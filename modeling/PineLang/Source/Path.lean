/-!
# Paths

Paths with forward slashes. The cleaned form of a path has no empty and no `.` parts, and `..` only
at its start.
-/
namespace PineLang.Path

/-- The parts of a path between slashes. -/
def parts (p : String) : List String :=
  (p.toList.splitOn '/').map String.ofList

/-- The path starts at the root. -/
def isAbs (p : String) : Bool := p.toList.head? == some '/'

/-- Takes parts one by one: `..` undoes the part before it, and nothing lies above the root. `done`
    holds the parts taken so far in reverse. -/
def cleanParts (rooted : Bool) (done : List String) : List String → List String
  | [] => done.reverse
  | p :: rest =>
    if p == "" || p == "." then cleanParts rooted done rest
    else if p == ".." then
      match done with
      | [] => cleanParts rooted (if rooted then [] else [".."]) rest
      | ".." :: _ => cleanParts rooted (".." :: done) rest
      | _ :: above => cleanParts rooted above rest
    else cleanParts rooted (p :: done) rest

/-- The parts of the cleaned path. -/
def cleaned (p : String) : List String := cleanParts (isAbs p) [] (parts p)

/-- The shortest path with the same meaning. -/
def clean (p : String) : String :=
  let body := "/".intercalate (cleaned p)
  if isAbs p then "/" ++ body
  else if body.isEmpty then "." else body

/-- Joins paths, leaving out empty ones. -/
def join (ps : List String) : String :=
  match ps.filter (!·.isEmpty) with
  | [] => ""
  | ps => clean ("/".intercalate ps)

/-- The last part, without trailing slashes. -/
def base (p : String) : String :=
  if p.isEmpty then "."
  else
    let stripped := (p.toList.reverse.dropWhile (· == '/'))
    if stripped.isEmpty then "/"
    else String.ofList (stripped.takeWhile (· != '/')).reverse

/-- Everything before the last part, cleaned. -/
def dir (p : String) : String :=
  clean (String.ofList (p.toList.reverse.dropWhile (· != '/')).reverse)

/-- The extension of the last part, with its dot. -/
def ext (p : String) : String :=
  let last := (p.toList.reverse.takeWhile (· != '/'))
  if last.contains '.' then String.ofList (last.takeWhile (· != '.') ++ ['.']).reverse else ""

/-- The last part without its extension. -/
def stem (p : String) : String :=
  let b := base p
  String.ofList (b.toList.take (b.length - (ext b).length))

/-- The path seen from a working directory. -/
def absolute (cwd p : String) : String := if isAbs p then clean p else join [cwd, p]

/-- Leaves out the parts two paths have in common at their start. -/
def dropCommon : List String → List String → List String × List String
  | a :: as, b :: bs => if a == b then dropCommon as bs else (a :: as, b :: bs)
  | as, bs => (as, bs)

/-- The path of `target` as seen from `origin`; none if one of them is rooted and the other is not,
    or if `origin` lies above its own start. -/
def relative? (origin target : String) : Option String :=
  if isAbs origin != isAbs target then none
  else
    let (up, down) := dropCommon (cleaned origin) (cleaned target)
    if up.contains ".." then none
    else
      let all := up.map (fun _ => "..") ++ down
      some (if all.isEmpty then "." else "/".intercalate all)

end PineLang.Path
