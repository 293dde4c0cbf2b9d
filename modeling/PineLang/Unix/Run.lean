import PineLang.Unix.Builtin

/-!
# Running scripts

A script runs over a disk, with arguments, and leaves a disk, what it wrote and a status. Commands
are those of the shell itself, functions, tools of the system, and other scripts.
-/
namespace PineLang.Shell

/-- What a run of a program leaves. -/
structure Outcome where
  disk : Disk
  out : Bytes := []
  err : Bytes := []
  status : ExitStatus := .exited 0

/-- A command of the shell that runs other commands. -/
def runsOthers (name : String) : Bool := ["eval", "exec", "command", ".", "kill"].contains name

/-- What the shell says about a file that a redirection cannot open. -/
def openFault (toRead : Bool) (path : String) (cause : DiskCause) : String :=
  let isMissing := cause == .missing || cause == .notDirectory
  if toRead then "cannot open " ++ path ++ ": " ++ (if isMissing then "No such file" else causeText cause)
  else "cannot create " ++ path ++ ": " ++ (if isMissing then "Directory nonexistent" else causeText cause)

/-- Opens a file for a channel, or says why it cannot be opened. -/
def openFile (s : State) (n : Nat) (mode : OpenMode) (path : String) : Except String State :=
  let put (s : State) (c : Channel) : State :=
    { s with channels := (n, c) :: s.channels.filter (·.1 != n) }
  if path == "/dev/null" then .ok (put s .nothing)
  else if path == "/dev/stdout" || path == "/dev/stderr" then
    .ok (put s ((s.channel? (if path == "/dev/stdout" then 1 else 2)).getD .nothing))
  else match mode with
    | .input =>
      match s.world.disk.read path with
      | .ok bs =>
        let (k, world) := s.world.addSource bs
        .ok (put { s with world } (.source k))
      | .error f =>
        if f.cause == .isDirectory then .ok (put s .nothing) else .error (openFault true path f.cause)
    | _ =>
      let old := (s.world.disk.read path).toOption.getD []
      if mode == .output && s.options.keepsFiles && (s.world.disk.read path).toOption.isSome then
        .error (openFault false path .alreadyThere)
      else match s.world.disk.write path (if mode == .output || mode == .forced then [] else old) with
      | .ok disk =>
        match disk.follow path with
        | .ok loc => .ok (put { s with world := { s.world with disk } } (.file loc))
        | .error c => .error (openFault false path c)
      | .error f => .error (openFault false path f.cause)

/-- Goes on after a program that a signal may have stopped. -/
def State.awaited (s : State) : State :=
  match s.flow with
  | .killed n => { s.writeTo 2 (utf8 (deathNotice n)) with status := 128 + n, flow := .next }
  | _ => s

/-- Calls a tool of the system. -/
def callTool (s : State) (tool name : String) (args : List String) : State :=
  let source := s.channel? 0
  match runTool s.world.disk tool ⟨name, args, s.world.input source⟩ with
  | none => { s.complain (name ++ ": not found") with status := 127 }
  | some r =>
    let usesInput := !(["true", "false", "echo", "printf", "test", "[", "pwd", "sleep"].contains tool)
    let world := { s.world with disk := r.disk }
    let world := if usesInput then world.leave [] source else world
    { ({ s with world }.writeTo 1 r.out).writeTo 2 r.err with status := r.code }

mutual

/-- Expands the pieces of a word. `divides` says that plain text is divided too, as in braces. -/
def expand : Nat → Bool → Word → State → List Glyph × State
  | 0, _, _, s => ([], s)
  | _, _, [], s => ([], s)
  | fuel + 1, divides, p :: rest, s =>
    let (gs, s) := expandPiece fuel divides p s
    if s.isOver then ([], s)
    else
      let (more, s) := expand fuel divides rest s
      (gs ++ more, s)

/-- Expands a piece of a word. -/
def expandPiece : Nat → Bool → Piece → State → List Glyph × State
  | 0, _, _, s => ([], s)
  | fuel + 1, divides, p, s =>
    match p with
    | .text t quoted =>
      if t.isEmpty && quoted then ([.empty], s) else (glyphs t quoted (divides && !quoted), s)
    | .sum expr quoted =>
      let (gs, s) := expand fuel false expr s
      let text := glyphText gs
      match evalSum s.vars text with
      | .ok (n, vars) => (glyphs (toString n) quoted (!quoted), { s with vars })
      | .error f => ([], s.abort (f.message text))
    | .output body quoted =>
      let (k, world) := s.world.addStream
      let part := runPart fuel false body
        { s with world, channels := (1, .stream k) :: s.channels.filter (·.1 != 1), traps := [] }
      let (bs, world) := part.world.dropStream
      let s := { s.afterPart { part with world } with status := s.status, partStatus := part.status }
      let text := Text.lossy (bs.filter (· != 0))
      (glyphs (String.ofList (text.toList.reverse.dropWhile (· == '\n')).reverse) quoted (!quoted), s)
    | .param name change quoted => expandParam fuel name change quoted s

/-- Expands a parameter. -/
def expandParam : Nat → String → Change → Bool → State → List Glyph × State
  | 0, _, _, _, s => ([], s)
  | fuel + 1, name, change, quoted, s =>
    let value := s.value? name
    let plain (s : State) : List Glyph :=
      if name == "@" || (name == "*" && !quoted) then
        let between : List Glyph := [.gap]
        let each := s.args.map fun a =>
          (if quoted && name == "@" then [Glyph.empty] else []) ++ glyphs a quoted (!quoted)
        between.intercalate each
      else if name == "*" then
        let joint := match s.dividers with
          | c :: _ => String.singleton c
          | [] => ""
        glyphs (joint.intercalate s.args) quoted (!quoted)
      else glyphs ((s.value? name).getD "") quoted (!quoted)
    let isSet (orEmpty : Bool) : Bool := match value with
      | none => false
      | some v => !(orEmpty && v.isEmpty)
    match change with
    | .bad => ([], s.abort "Bad substitution")
    | .plain =>
      if value.isNone && s.options.refusesUnset && name != "@" && name != "*" then
        ([], s.abort (name ++ ": parameter not set"))
      else (plain s, s)
    | .length =>
      if value.isNone && s.options.refusesUnset then ([], s.abort (name ++ ": parameter not set"))
      else (glyphs (toString (value.getD "").utf8ByteSize) quoted (!quoted), s)
    | .fallback orEmpty w => if isSet orEmpty then (plain s, s) else expand fuel true w s
    | .alternative orEmpty w => if isSet orEmpty then expand fuel true w s else ([], s)
    | .assign orEmpty w =>
      if isSet orEmpty then (plain s, s)
      else
        let (gs, s) := expand fuel false w s
        if !isNameText name then ([], s.abort (name ++ ": bad variable name"))
        else
          let s := s.set name (glyphText gs)
          (plain s, s)
    | .require orEmpty w =>
      if isSet orEmpty then (plain s, s)
      else
        let (gs, s) := expand fuel false w s
        let text := if w.isEmpty then "parameter not set" ++ (if orEmpty then " or null" else "")
          else glyphText gs
        ([], s.abort (name ++ ": " ++ text))
    | .trim atEnd longest w =>
      let (gs, s) := expand fuel false w s
      let kept := trimMatch atEnd longest (pattern (glyphField gs)) (value.getD "").toList
      (glyphs (String.ofList kept) quoted (!quoted), s)

/-- Expands a word to one text. -/
def expandText : Nat → Word → State → String × State
  | 0, _, s => ("", s)
  | fuel + 1, w, s =>
    let (gs, s) := expand fuel false w s
    (glyphText gs, s)

/-- Expands words to fields: they are divided, and patterns become the names they match. -/
def expandFields : Nat → List Word → State → List String × State
  | 0, _, s => ([], s)
  | _, [], s => ([], s)
  | fuel + 1, w :: rest, s =>
    let (gs, s) := expand fuel false w s
    let allArgs := w.any fun p => match p with
      | .param "@" _ true => true
      | _ => false
    let gs := if s.args.isEmpty && allArgs then gs.filter (· != .empty) else gs
    let fields := Fields.of s.dividers gs
    let texts := fields.flatMap fun f =>
      if s.options.keepsPatterns then [f.text] else f.paths s.world.disk
    if s.isOver then ([], s)
    else
      let (more, s) := expandFields fuel rest s
      (texts ++ more, s)

/-- Sets up redirections from left to right; none if one cannot be set up. -/
def redirect : Nat → List Redirect → State → State × Bool
  | 0, _, s => (s, true)
  | _, [], s => (s, true)
  | fuel + 1, r :: rest, s =>
    match r with
    | .document n number =>
      let (gs, s) := expand fuel false ((s.documents.lookup number).getD []) s
      let (k, world) := s.world.addSource (utf8 (glyphText gs))
      redirect fuel rest { s with world, channels := (n, .source k) :: s.channels.filter (·.1 != n) }
    | .copy n w =>
      let (source, s) := expandText fuel w s
      if source == "-" then redirect fuel rest { s with channels := s.channels.filter (·.1 != n) }
      else match countArg? source with
        | none => ({ s with line := s.readTo }.abort "Syntax error: Bad fd number", false)
        | some k =>
          match s.channel? k with
          | some c => redirect fuel rest { s with channels := (n, c) :: s.channels.filter (·.1 != n) }
          | none =>
            let s := if n == 2 then s else s.complain (source ++ ": Bad file descriptor")
            ({ s with status := 2 }, false)
    | .file n mode w =>
      let (path, s) := expandText fuel w s
      if s.isOver then (s, false)
      else match openFile s n mode path with
        | .ok s => redirect fuel rest s
        | .error m => ({ s.complain m with status := 2 }, false)

/-- Runs a part of a script as a shell of its own. -/
def runPart : Nat → Bool → List Command → State → State
  | 0, _, _, s => s
  | fuel + 1, tested, body, s => finish fuel (runAll fuel tested body { s with flow := .next })

/-- Runs what was set to be run at the end. -/
def finish : Nat → State → State
  | 0, s => s
  | fuel + 1, s =>
    match s.flow, s.traps.lookup 0 with
    | .killed _, _ | _, none => s
    | _, some action =>
      let status := s.status
      let s := runText fuel action { s with flow := .next, traps := s.traps.filter (·.1 != 0) }
      if s.isOver then s else { s with flow := .stop, status }

/-- Runs commands one after the other. -/
def runAll : Nat → Bool → List Command → State → State
  | 0, _, _, s => s
  | _, _, [], s => s
  | fuel + 1, tested, c :: rest, s =>
    let s := runOne fuel tested c s
    if s.goesOn then runAll fuel tested rest s else s

/-- Ends the script after a failure if it was told to. -/
def checkFailure : Bool → State → State
  | tested, s =>
    if s.options.stopsAtFailure && !tested && s.status != 0 && s.goesOn then { s with flow := .stop } else s

/-- Runs one command; `tested` says that its failure is looked at. -/
def runOne : Nat → Bool → Command → State → State
  | 0, _, _, s => s
  | fuel + 1, tested, c, s =>
    if s.options.onlyReads then s
    else match c with
    | .simple line assigns words redirects =>
      checkFailure tested (runSimple fuel line assigns words redirects { s with line, tested })
    | .pipeline negated stages =>
      let s := match stages with
        | [c] => runOne fuel (tested || negated) c s
        | _ => runStages fuel (tested || negated) stages (s.channel? 0) s
      if negated then { s with status := if s.status == 0 then 1 else 0 }
      else checkFailure tested s
    | .both a b =>
      let s := runOne fuel true a s
      if !s.goesOn || s.status != 0 then s else runOne fuel tested b s
    | .either a b =>
      let s := runOne fuel true a s
      if !s.goesOn || s.status == 0 then s else runOne fuel tested b s
    | .background c =>
      let part := runPart fuel tested [c]
        { s with channels := (0, .nothing) :: s.channels.filter (·.1 != 0) }
      { s.afterPart part with status := 0 }
    | .cond test yes no =>
      let s := runAll fuel true test s
      if !s.goesOn then s
      else if s.status == 0 then runAll fuel tested yes s
      else runAll fuel tested no { s with status := 0 }
    | .each name items body =>
      let (values, s) := match items with
        | some ws => expandFields fuel ws s
        | none => (s.args, s)
      if s.isOver then s
      else
        { runEach fuel tested name values body { s with status := 0, loops := s.loops + 1 } with
          loops := s.loops }
    | .loop goesOn test body =>
      { runLoop fuel tested goesOn test body { s with loops := s.loops + 1 } 0 with loops := s.loops }
    | .choice subject cases =>
      let (text, s) := expandText fuel subject s
      if s.isOver then s else runCases fuel tested text cases { s with status := 0 }
    | .subshell body =>
      checkFailure tested (s.afterPart (runPart fuel tested body { s with traps := [] }))
    | .group body => runAll fuel tested body s
    | .redirected line c redirects =>
      let (opened, ok) := redirect fuel redirects { s with line }
      if !ok then checkFailure tested { opened with channels := s.channels }
      else { runOne fuel tested c opened with channels := s.channels }
    | .define name body =>
      { s with functions := (name, body) :: s.functions.filter (·.1 != name), status := 0 }

/-- Runs the stages of a pipeline, each a shell of its own that reads what the one before wrote. -/
def runStages : Nat → Bool → List Command → Option Channel → State → State
  | 0, _, _, _, s => s
  | _, _, [], _, s => s
  | fuel + 1, tested, c :: rest, source, s =>
    let channels := (match source with
      | some x => [(0, x)]
      | none => []) ++ s.channels.filter (·.1 != 0)
    match rest with
    | [] => s.afterPart (runPart fuel tested [c] { s with channels, traps := [] })
    | _ =>
      let (k, world) := s.world.addStream
      let part := runPart fuel tested [c]
        { s with world, channels := (1, .stream k) :: channels.filter (·.1 != 1), traps := [] }
      let (bs, world) := part.world.dropStream
      let (n, world) := world.addSource bs
      let s := s.afterPart { part with world }
      if s.isOver then s else runStages fuel tested rest (some (.source n)) s

/-- Goes on after a round of a loop; the second part says whether the loop goes on too. -/
def afterRound : State → State × Bool
  | s =>
    match s.flow with
    | .leaveLoop n => ({ s with flow := if n ≤ 1 then .next else .leaveLoop (n - 1) }, false)
    | .nextRound n =>
      if n ≤ 1 then ({ s with flow := .next }, true) else ({ s with flow := .nextRound (n - 1) }, false)
    | .next => (s, true)
    | _ => (s, false)

/-- Runs commands once for each of some texts. -/
def runEach : Nat → Bool → String → List String → List Command → State → State
  | 0, _, _, _, _, s => s
  | _, _, _, [], _, s => s
  | fuel + 1, tested, name, item :: items, body, s =>
    if s.isOver then s
    else
      let (s, again) := afterRound (runAll fuel tested body (s.set name item))
      if again then runEach fuel tested name items body s else s

/-- Runs commands as long as a test goes as it should. `status` is that of the last round. -/
def runLoop : Nat → Bool → Bool → List Command → List Command → State → Nat → State
  | 0, _, _, _, _, s, _ => s
  | fuel + 1, tested, goesOn, test, body, s, status =>
    let (s, again) := afterRound (runAll fuel true test s)
    if !again then s
    else if (s.status == 0) == goesOn then
      let (s, again) := afterRound (runAll fuel tested body s)
      if again then runLoop fuel tested goesOn test body s s.status else s
    else { s with status }

/-- Runs the first case whose pattern matches. -/
def runCases : Nat → Bool → String → List (List Word × List Command) → State → State
  | 0, _, _, _, s => s
  | _, _, _, [], s => s
  | fuel + 1, tested, text, (patterns, body) :: rest, s =>
    let (found, s) := anyMatches fuel text patterns s
    if s.isOver then s
    else if found then runAll fuel tested body s
    else runCases fuel tested text rest s

/-- One of some patterns matches a text. -/
def anyMatches : Nat → String → List Word → State → Bool × State
  | 0, _, _, s => (false, s)
  | _, _, [], s => (false, s)
  | fuel + 1, text, w :: rest, s =>
    let (gs, s) := expand fuel false w s
    if matchesAll (pattern (glyphField gs)) text.toList then (true, s) else anyMatches fuel text rest s

/-- Sets parameters from left to right. -/
def assignAll : Nat → List (String × Word) → State → State
  | 0, _, s => s
  | _, [], s => s
  | fuel + 1, (name, w) :: rest, s =>
    let (value, s) := expandText fuel w s
    if s.isOver then s
    else if s.fixed.contains name then s.abort (name ++ ": is read only")
    else assignAll fuel rest (s.set name value)

/-- Runs a simple command. -/
def runSimple : Nat → Nat → List (String × Word) → List Word → List Redirect → State → State
  | 0, _, _, _, _, s => s
  | fuel + 1, line, assigns, words, redirects, s =>
    let (fields, s) := expandFields fuel words { s with partStatus := 0 }
    if s.isOver then s
    else match fields with
      | [] =>
        let (opened, ok) := redirect fuel redirects s
        let s := { opened with channels := s.channels }
        if !ok then s
        else
          let s := assignAll fuel assigns s
          let s := if s.isOver then s else { s with status := s.partStatus }
          if s.options.showsCommands && !assigns.isEmpty then
            s.writeTo 2 (utf8 (s.mark ++ shownAssigns s assigns ++ "\n"))
          else s
      | name :: args =>
        let isSpecial := specialBuiltins.contains name
        let (opened, ok) := redirect fuel redirects s
        if !ok then
          let failed := { opened with channels := s.channels }
          if isSpecial then { failed with flow := .stop } else failed
        else
          let given := assignAll fuel assigns opened
          let shown := if s.options.showsCommands then
              let set := if assigns.isEmpty then "" else shownAssigns given assigns ++ " "
              s.writeTo 2 (utf8 (s.mark ++ set ++ " ".intercalate (name :: args) ++ "\n"))
            else s
          let given := { given with world := { given.world with streams := shown.world.streams } }
          if given.isOver then given
          else
            let names := assigns.map (·.1)
            let given := { given with exported := names ++ given.exported }
            let after := runNamed fuel line name args given true
            let channels := if name == "exec" && args.isEmpty then after.channels else s.channels
            let kept := if isSpecial && (s.functions.lookup name).isNone then after.vars
              else after.vars.filter (fun v => !names.contains v.1) ++
                s.vars.filter (fun v => names.contains v.1)
            let exported := if names.isEmpty then after.exported else s.exported
            { after with channels, vars := kept, exported }

/-- Assignments as they are shown. -/
def shownAssigns : State → List (String × Word) → String
  | s, assigns => " ".intercalate (assigns.map fun (n, _) => n ++ "=" ++ (s.value? n).getD "")

/-- Runs a command by its name: a function, one of the shell, a tool of the system, or a program.
    Functions are left out unless `functions` is set. -/
def runNamed : Nat → Nat → String → List String → State → Bool → State
  | 0, _, _, _, s, _ => s
  | fuel + 1, line, name, args, s, functions =>
    let function := if functions then s.functions.lookup name else none
    if specialBuiltins.contains name && runsOthers name then runOuter fuel line name args s
    else if specialBuiltins.contains name then s.within none (runBuiltin · name args)
    else match function with
      | some body => callFunction fuel body args s
      | none =>
        if runsOthers name then runOuter fuel line name args s
        else if plainBuiltins.contains name then s.within none (runBuiltin · name args)
        else (runProgram fuel name args s).awaited

/-- Calls a function. Parameters that it makes its own are put back. -/
def callFunction : Nat → Command → List String → State → State
  | 0, _, _, s => s
  | fuel + 1, body, args, s =>
    let own := localNames body
    let after := runOne fuel s.tested body { s with args, calls := s.calls + 1, loops := 0 }
    let flow := if after.flow == .back then .next else after.flow
    let vars := after.vars.filter (fun v => !own.contains v.1) ++ s.vars.filter (fun v => own.contains v.1)
    { after with args := s.args, calls := s.calls, loops := s.loops, flow, vars }

/-- The parameters that a function declares as its own. -/
def localNames : Command → List String
  | .group body => body.flatMap fun c => match c with
      | .simple _ _ (w :: words) _ =>
        if bareText w == some "local" then words.map fun w => match assignment? w with
          | some (n, _) => n
          | none => (bareText w).getD ""
        else []
      | _ => []
  | _ => []

/-- Runs a command of the shell that runs other commands. -/
def runOuter : Nat → Nat → String → List String → State → State
  | 0, _, _, _, s => s
  | fuel + 1, line, name, args, s =>
    match name, args with
    | "eval", args => { s with status := 0 }.within (some name) (runText fuel (" ".intercalate args))
    | "exec", [] => { s with status := 0 }
    | "exec", name :: args =>
      let s := { s with under := some "exec" }
      if !s.canStart name then { s.complain (name ++ ": not found") with flow := .stop, status := 127 }
      else
        let s := runProgram fuel name args { s with traps := [] }
        if s.isOver then s else { s with flow := .stop }
    | ".", path :: _ =>
      let found := if path.contains '/' then some path else locate s.world.disk s.search path
      let s' := { s with under := some "." }
      match found with
      | none => s'.abort (path ++ ": not found")
      | some p =>
        match s.world.disk.read p with
        | .ok bs =>
          let after := { s with status := 0, tested := false }.within (some p) (runText fuel (Text.lossy bs))
          if after.flow == .back then { after with flow := .next } else after
        | .error f => s'.abort (openFault true path f.cause)
    | "command", "-v" :: names =>
      match names.head?.bind s.meaning with
      | some (text, _) => { s.writeTo 1 (utf8 (text ++ "\n")) with status := 0 }
      | none => { s with status := 127 }
    | "command", "-V" :: names => runBuiltin s "type" (names.take 1)
    | "command", name :: args =>
      let after := runNamed fuel line name args s false
      let isFault := after.flow == .stop && specialBuiltins.contains name && !(runsOthers name) &&
        name != "exit"
      if isFault then { after with flow := .next } else after
    | "kill", "-l" :: args => s.within none (listSignals · args)
    | "kill", args => s.within none (runKill fuel args)
    | _, _ => { s with status := 0 }

/-- Sends a signal. A script that was told what to do then does it. -/
def runKill : Nat → List String → State → State
  | 0, _, s => s
  | fuel + 1, args, s =>
    match killArgs args with
    | .error m => { s.complain ("kill: " ++ m) with status := 2 }
    | .ok (_, []) =>
      { s.complain ("kill: Usage: kill [-s sigspec | -signum | -sigspec] [pid | job]... or\n" ++
          "kill -l [exitstatus]") with status := 2 }
    | .ok (n, target :: _) =>
      if target.startsWith "%" then { s.complain ("kill: No such job: " ++ target) with status := 2 }
      else if (countArg? target).isNone then
        { s.complain ("kill: Illegal number: " ++ badNumber target) with status := 2 }
      else if target != State.processNumber && target != "0" then
        { s.complain "kill: No such process\n" with status := 1 }
      else match s.traps.lookup n with
        | some action =>
          if action.isEmpty then { s with status := 0 }
          else
            let after := runText fuel action { s with status := 0 }
            if after.isOver then after else { after with status := 0 }
        | none =>
          if isHarmless n then { s with status := 0 }
          else { s with flow := .killed n, status := 128 + n }

/-- Runs a program: a script, or a tool of the system. -/
def runProgram : Nat → String → List String → State → State
  | 0, _, _, s => s
  | fuel + 1, name, args, s =>
    let missing (s : State) : State := { s.complain (name ++ ": not found") with status := 127 }
    let system := s.search.any fun dir => toolDirs.contains (dir ++ "/")
    let path := if name.contains '/' then some name else locate s.world.disk s.search name
    let tool := if name.contains '/' then systemTool? name else if system then some name else none
    let isShell := match tool with
      | some t => shellPaths.contains ("/bin/" ++ t)
      | none => false
    if name.isEmpty then { s.complain ": Permission denied" with status := 127 }
    else match path.bind fun p => (s.world.disk.find p).toOption.map fun _ => p with
    | some p =>
      match programAt s.world.disk p with
      | .ok program => startIn fuel program p args s
      | .error .notRunnable =>
        let text := Text.lossy ((s.world.disk.read p).toOption.getD [])
        startIn fuel (.script none text) p args s
      | .error .missing => missing s
      | .error c => { s.complain (name ++ ": " ++ causeText c) with status := 126 }
    | none =>
      if isShell then runShell fuel name args s
      else match tool with
        | some "env" => runEnv fuel name args s
        | some t => if isTool t then callTool s t name args else missing s
        | none => missing s

/-- Runs a command with parameters that are set for it alone, or shows those that programs get. -/
def runEnv : Nat → String → List String → State → State
  | 0, _, _, s => s
  | fuel + 1, name, args, s =>
    match args with
    | [] =>
      s.environment.foldl (fun s v => s.writeTo 1 (utf8 (v.1 ++ "=" ++ v.2 ++ "\n"))) { s with status := 0 }
    | "-i" :: rest => runEnv fuel name rest { s with exported := [] }
    | command :: rest =>
      let key := String.ofList (command.toList.takeWhile (· != '='))
      if key.length < command.length then
        let value := String.ofList (command.toList.drop (key.length + 1))
        let s' := { s.set key value with exported := key :: s.exported }
        { runEnv fuel name rest s' with vars := s.vars, exported := s.exported }
      else if s.canStart command then runProgram fuel command rest s
      else
        { s.writeTo 2 (utf8 (name ++ ": '" ++ command ++ "': " ++ causeText .missing ++ "\n")) with
          status := 127 }

/-- Runs the shell itself: a command line, or a script. -/
def runShell : Nat → String → List String → State → State
  | 0, _, _, s => s
  | fuel + 1, name, args, s =>
    match args with
    | "-c" :: text :: rest => startIn fuel (.script none text) (rest.headD name) (rest.drop 1) s
    | "-e" :: "-c" :: text :: rest | "-ec" :: text :: rest =>
      startIn fuel (.script (some "-e") text) (rest.headD name) (rest.drop 1) s
    | path :: rest =>
      match s.world.disk.read path with
      | .ok bs => startIn fuel (.script none (Text.lossy bs)) path rest s
      | .error f =>
        { s.writeTo 2 (utf8 (name ++ ": 0: " ++ openFault true path f.cause ++ "\n")) with status := 2 }
    | [] =>
      let source := s.channel? 0
      let text := Text.lossy (s.world.input source)
      startIn fuel (.script none text) name [] { s with world := s.world.leave [] source }

/-- Starts a program with the channels and the parameters of a script, and waits for its end. -/
def startIn : Nat → Program → String → List String → State → State
  | 0, _, _, _, s => s
  | fuel + 1, program, path, args, s =>
    match program with
    | .tool tool option => runProgram fuel tool (option.toList ++ path :: args) s
    | .script option text =>
      let child : State := {
        world := s.world
        name := path
        args
        vars := ("PWD", "/" ++ "/".intercalate s.world.disk.cwd) :: s.environment.filter (·.1 != "PWD")
        exported := s.exported
        channels := s.channels
        options := (option.map fun o => (o.toList.drop 1).foldl (·.switch true ·) {}).getD {} }
      let child := finish fuel (runText fuel text child)
      s.afterPart child

/-- Runs the text of a script line by line. -/
def runText : Nat → String → State → State
  | 0, _, s => s
  | fuel + 1, text, s => runSource fuel { rest := text.toList, count := s.count } s

/-- Runs what is left of a script. -/
def runSource : Nat → Source → State → State
  | 0, _, s => s
  | fuel + 1, source, s =>
    match source.nextLine with
    | .error f => { s with line := f.line }.abort f.message
    | .ok none => s
    | .ok (some (cs, source)) =>
      let s := runAll fuel s.tested cs { s with
        documents := source.documents ++ s.documents, count := source.count, readTo := source.line }
      if s.goesOn then runSource fuel { source with documents := [] } s else s

end

/-- The greatest number of steps that a program may nest. -/
def stepLimit : Nat := 100000

/-- Starts the program at a path and lets it end. -/
def execute (d : Disk) (search : List String) (path : String) (args : List String) :
    Except DiskCause Outcome :=
  match programAt d path with
  | .error c => .error c
  | .ok program =>
    let s : State := {
      world := { disk := d }
      name := path
      vars := [("PATH", ":".intercalate search), ("PWD", "/" ++ "/".intercalate d.cwd)]
      exported := ["PATH", "PWD"] }
    let s := startIn stepLimit program path args s
    let status := match s.flow with
      | .killed n => ExitStatus.signaled n
      | _ => .exited s.status
    .ok {
      disk := { s.world.disk with cwd := d.cwd }
      out := s.world.streams[0]?.getD []
      err := s.world.streams[1]?.getD []
      status }

end PineLang.Shell
