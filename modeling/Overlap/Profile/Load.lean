/-
  Profiles in files.

  A file whose name says so holds sampled stacks; any other holds call records
  in YAML.

  * `Profile.load` reads a file.
-/
import Overlap.Files
import Overlap.Yaml.Decode

namespace Overlap

open Yaml

/-- Why a profile could not be loaded. -/
inductive ProfileError where
  | unreadable (e : FileError)
  | unopenable (e : FileError)
  | undecodable (file : String) (e : DecodeError)
  /-- The call with that number names no call site. -/
  | noSite (file : String) (call : Nat)
  | negativeTime (file : String) (call : Nat)
  /-- The file does not hold stacks. -/
  | unparsable (file : String) (reason : String)
  | unusable (e : StackError)
deriving DecidableEq, Repr

/-- The text of an error. -/
def ProfileError.message : ProfileError → String
  | .unreadable e => "could not read profile: " ++ e.message
  | .unopenable e => "could not open profile: " ++ e.message
  | .undecodable file e => "could not unmarshal profile " ++ file ++ ": " ++ e.message
  | .noSite file call => s!"profile {file}: call {call} has no caller or line"
  | .negativeTime file call => s!"profile {file}: call {call} has a negative time"
  | .unparsable file reason => "could not parse profile " ++ file ++ ": " ++ reason
  | .unusable e => e.message

namespace Profile

/-- Whether the name of a file says that it holds sampled stacks. -/
def holdsSamples (name : String) : Bool :=
  [".pprof", ".prof", ".pb", ".pb.gz"].any fun ext => name.endsWith ext

/-- A document with call records. -/
structure CallList where
  mainTime : Float := 0
  calls : List (CallRecord Float) := []
deriving Inhabited

/-- How a call record is read. -/
def recordDecoder : Decoder (CallRecord Float) :=
  Decode.record "profile.CallRecord" [
    Decode.field "caller" (·.caller) (fun r v => { r with caller := v }) Decode.string,
    Decode.field "file" (·.file) (fun r v => { r with file := v }) Decode.string,
    Decode.field "line" (·.line) (fun r v => { r with line := v }) Decode.int,
    Decode.field "callee" (·.callee) (fun r v => { r with callee := v }) Decode.string,
    Decode.field "time" (·.time) (fun r v => { r with time := v }) Decode.float]

/-- How a document with call records is read. -/
def listDecoder : Decoder CallList :=
  Decode.record "profile.yamlProfile" [
    Decode.field "main-time" (·.mainTime) (fun p v => { p with mainTime := v }) Decode.float,
    Decode.field "calls" (·.calls) (fun p v => { p with calls := v })
      (Decode.list recordDecoder ⟨"", "", 0, "", 0⟩)]

/-- The first call of a list that cannot be used. -/
def badCall? (file : String) (calls : List (CallRecord Float)) : Option ProfileError :=
  calls.zipIdx.findSome? fun (r, i) =>
    if r.caller.isEmpty || r.line ≤ 0 then some (.noSite file i)
    else if r.time < 0 then some (.negativeTime file i)
    else none

/-- The profile of a document with call records. -/
def ofYaml (file text : String) : Except ProfileError (Profile Float) :=
  match decode listDecoder {} text with
  | .error e => .error (.undecodable file e)
  | .ok list =>
    match badCall? file list.calls with
    | some e => .error e
    | none => .ok (.ofRecords list.mainTime list.calls)

/-- The profile of a file that should hold sampled stacks. -/
def ofSampleFile (file : String) : FileContent → Except ProfileError (Profile Float)
  | .text text =>
    .error (.unparsable file (if text.isEmpty then "parsing profile: empty input file"
      else "parsing profile: unrecognized profile format"))
  | .tables _ => .error (.unparsable file "parsing profile: unrecognized profile format")
  | .samples p =>
    match p.stored.check with
    | some e => .error (.unparsable file ("malformed profile: " ++ e.message))
    | none => (ofSamples p.stored).mapError .unusable

/-- Loads a profile from a file. -/
def load (fs : Files) (file : String) : Except ProfileError (Profile Float) :=
  if holdsSamples file then
    match fs.read file with
    | .error (.isDirectory name) => .error (.unparsable file (FileError.isDirectory name).message)
    | .error e => .error (.unopenable e)
    | .ok content => ofSampleFile file content
  else
    match fs.read file with
    | .error e => .error (.unreadable e)
    | .ok (.text text) => ofYaml file text
    | .ok _ => .error (.undecodable file .malformed)

end Profile

end Overlap
