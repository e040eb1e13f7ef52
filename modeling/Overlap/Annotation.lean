/-
  Comments in sources that say which calls may run in parallel.

  * `Result.annotations` are the comments of the reported groups, by file;
  * `annotate` puts comments before the statements of a source, and aligns the
    bodies of functions on consecutive lines;
  * `writeAnnotated` writes the annotated copies of all files.
-/
import Overlap.Decimal.Format
import Overlap.Files
import Overlap.Report.Group
import Overlap.Source.Outline

namespace Overlap

open Ssa Text

/-- A comment that goes before the statement at a line; without a file it fits every file. -/
structure Annotation where
  file : String
  line : Int
  text : String
deriving DecidableEq, Repr, Inhabited

/-! ## Comments of groups -/

/-- The comment at the `i`-th member of a group. -/
def Group.annotationText (g : Group Float) (i : Nat) : String :=
  let partners := (g.members.zipIdx.filter (·.2 != i)).map fun (m, _) =>
    m.callee ++ " (line " ++ toString m.line ++ ")"
  "// parpot #" ++ toString g.rank ++ ": " ++ ((g.members[i]?).map (·.callee)).getD "" ++
    " may run in parallel with " ++ ", ".intercalate partners ++ ", saving " ++
    Decimal.generalRounded 3 g.maxPercent ++ "% of the run time" ++
    (if g.dependencies.isEmpty then ""
      else " (" ++ toString g.dependencies.length ++ " dependencies, cost " ++
        Decimal.generalRounded 3 g.cost ++ ")")

/-- The comments at the call sites of a group; sites without a known position have none. -/
def Group.annotations (P : Program) (g : Group Float) (s : NodeSet Float) : List Annotation :=
  s.members.zipIdx.filterMap fun (m, i) =>
    let pos := P.sourcePos m.site
    if pos.isKnown then some ⟨pos.file, pos.line, g.annotationText i⟩ else none

/-- The comments of the reported groups, by file and in the order of the groups. -/
def Result.annotations (r : Result Float) (P : Program) (opts : ReportOptions Float) :
    List (String × List Annotation) :=
  let all := (r.reportedSets P opts).flatMap fun (g, s) => g.annotations P s
  let files := ((all.map (·.file)).eraseDups).mergeSort fun a b => decide (a ≤ b)
  files.map fun f => (f, all.filter (·.file == f))

/-! ## Annotated sources -/

open Source

/-- The innermost statement at a line, by its number in an outline. -/
def Source.Outline.statementAt (o : Outline) (line : Int) : Option Nat :=
  (o.statements.toList.zipIdx.filter fun (s, _) => s.first ≤ line && line ≤ s.last).getLast?.map (·.2)

/-- The blanks at the start of a line. -/
def indentation (line : String) : String :=
  String.ofList (line.toList.takeWhile fun c => c == ' ' || c == '\t')

/-- A text without the blanks at its end. -/
def trimEnd (s : String) : String :=
  String.ofList (s.toList.reverse.dropWhile fun c => c == ' ' || c == '\t').reverse

/-- The comments before a statement, by the lines they are meant for. -/
def commentsOf (o : Outline) (byLine : List (Int × String)) (statement : Nat) : List String :=
  let own := byLine.filter fun (line, _) => o.statementAt line == some statement
  (own.mergeSort fun a b => decide (a.1 ≤ b.1)).map (·.2)

/-- The lines that go before a line of a source: the comments of the statements that start there,
    indented as these are. -/
def insertedAt (o : Outline) (byLine : List (Int × String)) (number : Nat) (line : String) :
    List String :=
  o.statements.toList.zipIdx.flatMap fun (s, i) =>
    if s.first == number then
      -- a label stands further left than a statement
      let indent := indentation line ++ (if s.labelled then "\t" else "")
      (commentsOf o byLine i).map fun text => trimEnd (indent ++ text)
    else []

/-- The functions on the lines around a function that are consecutive with it. -/
def neighbours (functions : List OneLine) (line : Nat) : List OneLine :=
  let has (n : Nat) : Bool := functions.any (·.line == n)
  let above := ((List.range line).reverse.takeWhile has)
  let below := ((List.range (functions.length + 1)).map (line + ·)).takeWhile has
  functions.filter fun f => above.contains f.line || below.contains f.line

/-- A line in which the body of a function is moved to where the bodies of its neighbours start. -/
def alignBody (lines : Array String) (functions : List OneLine) (number : Nat) (line : String) :
    String :=
  match functions.find? (·.line == number) with
  | none => line
  | some f =>
    let header (g : OneLine) : String :=
      trimEnd (String.ofList (((lines[g.line - 1]?).getD "").toList.take g.body))
    let width := ((neighbours functions number).map fun g => (header g).length).foldl max 0
    let own := header f
    own ++ String.ofList (List.replicate (width + 1 - own.length) ' ') ++
      String.ofList (line.toList.drop f.body)

/-- A source with comments before the statements they are meant for. -/
def annotate (file source : String) (annotations : List Annotation) : Except Malformed String := do
  let o ← outline source
  let byLine := (annotations.filter fun a => a.file == file || a.file.isEmpty).map
    fun a => (a.line, a.text)
  let lines := (source.splitOn "\n").toArray
  let functions := o.functions.toList
  return "\n".intercalate (lines.toList.mapIdx fun i line =>
    insertedAt o byLine (i + 1) line ++ [alignBody lines functions (i + 1) line]).flatten

/-! ## Files -/

/-- Why sources could not be annotated. -/
inductive AnnotateError where
  | unreadable (e : FileError)
  | unparsable (file : String)
  | noDirectory (name : String) (e : FileError)
  | unwritable (name : String) (e : FileError)
deriving DecidableEq, Repr

/-- The text of an error. -/
def AnnotateError.message : AnnotateError → String
  | .unreadable e => "could not read source: " ++ e.message
  | .unparsable file => "could not parse " ++ file
  | .noDirectory name e => "could not create directory " ++ name ++ ": " ++ e.message
  | .unwritable name e => "could not write " ++ name ++ ": " ++ e.message

/-- Where the annotated copy of a file goes: the file `a/b/c.go` to `b/c.go`. -/
def annotatedPath (directory file : String) : String :=
  Path.join directory (Path.join (Path.base (Path.dir file)) (Path.base file))

/-- Writes the annotated copy of a file. -/
def writeAnnotatedFile (directory : String) (fs : Files) (file : String)
    (annotations : List Annotation) : Except AnnotateError Files := do
  let content ← (fs.read file).mapError .unreadable
  let source ← match content with
    | .text text => pure text
    | _ => throw (.unparsable file)
  let annotated ← (annotate file source annotations).mapError fun _ => .unparsable file
  let target := annotatedPath directory file
  let fs ← (fs.createDirectories (Path.dir target)).mapError (.noDirectory (Path.dir target))
  (fs.write target (.text annotated)).mapError (.unwritable target)

/-- Writes the annotated copies of the files of reported groups. -/
def writeAnnotated (directory : String) (fs : Files) (annotations : List (String × List Annotation)) :
    Except AnnotateError Files :=
  annotations.foldlM (fun fs (file, as) => writeAnnotatedFile directory fs file as) fs

end Overlap
