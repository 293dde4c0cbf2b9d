import PineLang.Unix.Tools

/-!
# Programs

What a file that can be run is: its first line names the shell or a tool of the system. A program is
found by its path, or by its name in the directories searched.
-/
namespace PineLang.Shell

/-- How a file that can be run is run: by the shell, with the option that its first line gives, or
    by the tool of the system at a path. -/
inductive Program where
  | script (option : Option String) (text : String)
  | tool (path : String) (option : Option String)

/-- The first line of a file that names what runs it: at most 255 bytes, without blanks at its
    ends. -/
def interpreterLine (content : Bytes) : String :=
  let line := ((content.take 256).drop 2).takeWhile (· != 10)
  let isBlank (c : Char) : Bool := c == ' ' || c == '\t'
  String.ofList (((Text.chars line).dropWhile isBlank).reverse.dropWhile isBlank).reverse

/-- The names of the shell. -/
def shellPaths : List String :=
  ["/bin/sh", "/bin/dash", "/bin/bash", "/usr/bin/sh", "/usr/bin/dash", "/usr/bin/bash"]

/-- The directories of the tools of the system. -/
def toolDirs : List String := ["/bin/", "/usr/bin/"]

/-- The name of a tool that comes with the system, by its path. -/
def systemTool? (path : String) : Option String :=
  toolDirs.findSome? fun dir =>
    if path.startsWith dir then some (String.ofList (path.toList.drop dir.length)) else none

/-- A tool of the system is known by this name. -/
def isTool (name : String) : Bool :=
  name == "env" || (runTool {} name ⟨name, [], []⟩).isSome

/-- What a file that can be run is: its first line must name what runs it. -/
def programAt (d : Disk) (path : String) : Except DiskCause Program :=
  match d.find path with
  | .error c => .error c
  | .ok (_, .dir) => .error .denied
  | .ok (_, .file _ false) => .error .denied
  | .ok (_, .file content true) =>
    if content.take 2 != utf8 "#!" then .error .notRunnable
    else
      let line := interpreterLine content
      let isBlank (c : Char) : Bool := c == ' ' || c == '\t'
      let name := String.ofList (line.toList.takeWhile (!isBlank ·))
      let rest := String.ofList ((line.toList.drop name.length).dropWhile isBlank)
      let option := if rest.isEmpty then none else some rest
      if name.isEmpty then .error .notRunnable
      else if shellPaths.contains name then .ok (.script option (Text.lossy content))
      else match systemTool? name with
        | some t => if isTool t then .ok (.tool name option) else .error .missing
        | none => .error .missing

/-- The path of a program in the directories searched. -/
def locate (d : Disk) (search : List String) (name : String) : Option String :=
  (search.map fun dir => if dir.isEmpty then name else dir ++ "/" ++ name).find? fun path =>
    match d.find path with
    | .ok (_, .file _ runnable) => runnable
    | _ => false

end PineLang.Shell
