/-
  Slash-separated file paths.

  * `Path.base` and `Path.dir` split a path at its last slash;
  * `Path.clean` is the shortest equivalent path, `Path.join` joins two.
-/

namespace Overlap.Text.Path

/-- The components of a path: what stands between its slashes. -/
def components (path : String) : List String := (path.toList.splitOn '/').map String.ofList

/-- Whether a path starts at the root. -/
def isAbsolute (path : String) : Bool := path.startsWith "/"

/-- The last component of a path: `.` for the empty path, `/` for one of slashes only. -/
def base (path : String) : String :=
  if path.isEmpty then "."
  else (((components path).filter (· != "")).getLast?).getD "/"

/-- Adds a component to a reduced path, kept in reverse: an empty component and `.` change
    nothing, and `..` removes the last component if it can. -/
def reduce (rooted : Bool) (done : List String) (c : String) : List String :=
  if c = "" || c = "." then done
  else if c = ".." then
    match done with
    | [] => if rooted then [] else [".."]
    | last :: rest => if last = ".." then ".." :: done else rest
  else c :: done

/-- The shortest path equivalent to `path` by the meaning of `.`, `..` and repeated slashes. -/
def clean (path : String) : String :=
  let rooted := isAbsolute path
  let body := "/".intercalate ((components path).foldl (reduce rooted) []).reverse
  if rooted then "/" ++ body
  else if body.isEmpty then "." else body

/-- All but the last component of a path. -/
def dir (path : String) : String :=
  match (components path).dropLast with
  | [] => "."
  | parts => clean ("/".intercalate parts ++ "/")

/-- Two paths after each other; empty ones are left out. -/
def join (a b : String) : String :=
  match a.isEmpty, b.isEmpty with
  | true, true => ""
  | true, false => clean b
  | false, true => clean a
  | false, false => clean (a ++ "/" ++ b)

end Overlap.Text.Path
