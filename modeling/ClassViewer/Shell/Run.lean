import ClassViewer.Programs
import ClassViewer.Shell.Beside
import ClassViewer.Shell.Caller
import ClassViewer.Shell.Program
import ClassViewer.Shell.Redirection

/-!
# Running scripts

Execution of commands. A script is read and run line by line, so that what stands before a malformed
line is run. It is run with a bound on the depth of its steps, which no script that ends comes near;
of one that reaches the bound nothing is known, neither a status nor what it has written.
-/

namespace ClassViewer.Shell

open Session

/-! ## Processes -/

/-- The status a script ends with where it stands. -/
def endStatus (s : Session) : ExitStatus :=
  match s.flow with
  | .stop status => status
  | _ => .code (s.status % 256)

/-- The status of an ended process as a number. -/
def statusNumber : ExitStatus → Nat
  | .code n => n
  | .signal n => 128 + n

/-- Ends a strict script after a failed command. -/
def checkStrict : SessionM Unit := do
  let s ← get
  if s.hasOption 'e' && !s.asked && s.status != 0 && s.flow == .next then
    setFlow (.stop (.code (s.status % 256)))

/-- The traps a copy of a process keeps: those that pass over signals. -/
def keptTraps (s : Session) : List (Nat × String) :=
  s.traps.filter fun t => t.1 != Signal.exit && t.2 == ""

/-- Goes back to a process whose copy or child has ended: of what that did, only what it did to what
processes share stays. -/
def comeBack (s : Session) (status : Nat) : SessionM Unit :=
  modify fun t => { t with
    toProcess := { s.toProcess with status := status, awaited := s.awaited.dropLast }
    channels := t.keptChannels s.channels.length }

/-- The variables every script begins with. -/
def ownVariables (place : String) (process : Nat) : List (String × String) :=
  [("PWD", place), ("IFS", " \t\n"), ("OPTIND", "1"), ("PS1", "# "), ("PS2", "> "), ("PS4", "+ "),
    ("PPID", toString (process - 1))]

/-- The variables a script begins with: its own, and those handed to it. -/
def firstVariables (place : String) (process : Nat) (given : List (String × String)) :
    List (String × String) :=
  let own := ownVariables place process
  own ++ given.filter fun v => (own.lookup v.1).isNone && Parser.isName v.1

/-- The session a script begins with in a process of its own. -/
def childOf (s : Session) (name : String) (args : List String) : Session :=
  let child := s.pid + 1
  { s with
    pid := child, name := name, parameters := args, functions := [], aliases := []
    tracked := [], shadowed := none, fixed := []
    bindings := firstVariables s.place child s.environment
    line := 1, reached := 1, speaker := none, called := none, status := 0, captured := none
    options := [], asked := false, loops := 0, traps := keptTraps s, copied := false, besides := []
    awaited := [], lastBeside := none, lettersRead := 0 }

/-! ## Words of commands -/

/-- Writes a command before it is run. -/
def trace (words : List String) : SessionM Unit := do
  let s ← get
  if s.hasOption 'x' && !words.isEmpty then
    complain ((s.valueOf "PS4").getD "+ " ++ Text.join " " words)

/-- The reserved words. -/
def isKeyword (name : String) : Bool := Parser.keywords.contains name

/-- Says what a command is, in a sentence or by its name or path alone. -/
def describe (inWords : Bool) (name : String) : SessionM Unit := do
  let s ← get
  let tell (brief words : String) : SessionM Unit := do
    say ((if inWords then name ++ " is " ++ words else brief) ++ "\n")
    setStatus 0
  let meaning := s.aliases.lookup name
  if isKeyword name then tell name "a shell keyword"
  else if meaning.isSome then
    let text := meaning.getD ""
    tell ("alias " ++ name ++ "=" ++ inApostrophes text) ("an alias for " ++ text)
  else if isSpecial name then tell name "a special shell builtin"
  else if (s.functions.lookup name).isSome then tell name "a shell function"
  else if isBuiltin name then tell name "a shell builtin"
  else match findProgram s.disk s.here s.searchPath name with
    | .ok path =>
      let isTracked := s.tracked.contains name
      if !Text.holds '/' name then modify fun s => { s with tracked := name :: s.tracked }
      tell path ((if isTracked then "a tracked alias for " else "") ++ path)
    | .error _ =>
      if inWords then say (name ++ ": not found\n")
      setStatus 127

/-- Says what commands are. -/
def describeAll (status : Nat) : List String → SessionM Unit
  | [] => setStatus status
  | name :: rest => do
    describe true name
    describeAll (max status (← get).status) rest

mutual

/-- Runs the lines of a script up to its end or to the first that ends it. -/
def runLines : Nat → Script → SessionM Unit
  | 0, _ => failure
  | fuel + 1, script => do
    match script.next (← get).aliases with
    | .ok none => return ()
    | .ok (some (c, rest)) =>
      modify fun s => { s with reached := rest.line }
      run fuel c
      if ← goesOn then runLines fuel rest
    | .error fault =>
      modify fun s => { s with line := fault.line, reached := fault.line }
      refuse ("Syntax error: " ++ fault.message)
  termination_by structural fuel => fuel

/-- Runs the text of a script inside of another. -/
def runText : Nat → String → SessionM Unit
  | 0, _ => failure
  | fuel + 1, source => do
    let reached := (← get).reached
    runLines fuel (.ofText source)
    modify fun s => { s with reached := reached }
  termination_by structural fuel => fuel

/-- Runs what is to be done at the end of a process. It leaves the status as it is, except by ending
the process itself or by an error. -/
def sayFarewell : Nat → SessionM Unit
  | 0 => failure
  | fuel + 1 => do
    let s ← get
    match s.traps.lookup Signal.exit, endStatus s with
    | some action, .code n =>
      set { s with
        flow := Flow.next, status := if s.flow == Flow.next then s.status else n, speaker := none
        traps := s.traps.filter (·.1 != Signal.exit) }
      runText fuel action
      let after ← get
      match after.flow with
      | .stop _ => return ()
      | .fail => setFlow (.stop (.code (after.status % 256)))
      | _ => setFlow (.stop (.code n))
    | _, _ => return ()
  termination_by structural fuel => fuel

/-- Runs a computation in a copy of the process. -/
def runCopy : Nat → Command → SessionM Unit
  | 0, _ => failure
  | fuel + 1, c => do
    letOthersRun fuel
    let s ← get
    set { s with copied := true, traps := keptTraps s }
    run fuel c
    sayFarewell fuel
    comeBack s (statusNumber (endStatus (← get)))
    letOthersRun fuel
  termination_by structural fuel => fuel

/-- Runs a command in a copy of the process, and whatever it has left running that writes to the
same output. -/
def runFully : Nat → Command → SessionM Unit
  | 0, _ => failure
  | fuel + 1, c => do
    runCopy fuel c
    match (← get).streams.lookup 1 with
    | some i => wakeWhile fuel 0 (isHeld i)
    | none => return ()
  termination_by structural fuel => fuel

/-- Lets the processes with numbers above `since` that sleep wake up, one after the other, as long
as something holds. -/
def wakeWhile : Nat → Nat → (Session → Bool) → SessionM Unit
  | 0, _, _ => failure
  | fuel + 1, since, holds => do
    let s ← get
    match if holds s then firstToWake since s else none with
    | none => return ()
    | some p =>
      let due := p.wake - s.clock
      if s.left.any (· < due) then
        pass due
        return ()
      set { s.atTime p.wake with
        toProcess := { p.process with status := 0 }, ahead := p.ahead, left := none
        since := s.lastNumber
        sleepers := s.sleepers.filter (·.number != p.number) }
      p.signals.forM fun n =>
        match p.process.traps.lookup n with
        | some action => runText fuel action
        | none => pure ()
      goOnWith fuel p.number p.rest
      modify fun t => { t with
        toProcess := s.toProcess, clock := max s.clock p.wake, ahead := s.ahead, since := s.since
        left := s.left.map (· - due), channels := t.keptChannels s.channels.length }
      wakeWhile fuel since holds
  termination_by structural fuel => fuel

/-- Lets the processes go on that the running one has started and that could, while it waits. -/
def letOthersRun : Nat → SessionM Unit
  | 0 => failure
  | fuel + 1 => do
    let since := (← get).since
    wakeWhile fuel since (isAnyReady since)
  termination_by structural fuel => fuel

/-- Lets a process that runs by itself go on with a command, up to where it sleeps or ends. -/
def goOnWith : Nat → Nat → Command → SessionM Unit
  | 0, _, _ => failure
  | fuel + 1, number, c => do
    match ← runUntilSleep fuel c with
    | some p =>
      modify fun s => { s with
        sleepers := s.sleepers ++ [⟨number, s.clock + p.time, s.toProcess, p.rest, p.ahead, []⟩] }
    | none =>
      sayFarewell fuel
      modify fun s => { s with ended := (number, endStatus s) :: s.ended }
  termination_by structural fuel => fuel

/-- Runs a command up to where it lets time pass, if it does. -/
def runUntilSleep : Nat → Command → SessionM (Option Pause)
  | 0, _ => failure
  | fuel + 1, c => do
    if !sleeps fuel c then runAtOnce fuel c
    else match c with
      | .sequence first second =>
        match ← runUntilSleep fuel first with
        | some p => return some (p.within fun rest => .sequence rest second)
        | none => if ← goesOn then runUntilSleep fuel second else return none
      | .both first second =>
        match ← askUntilSleep fuel first with
        | some p => return some (p.within fun rest => .both rest second)
        | none =>
          if (← goesOn) && (← get).status = 0 then runUntilSleep fuel second else return none
      | .either first second =>
        match ← askUntilSleep fuel first with
        | some p => return some (p.within fun rest => .either rest second)
        | none =>
          if (← goesOn) && (← get).status != 0 then runUntilSleep fuel second else return none
      | .subshell _ body redirections => runLedUntilSleep fuel body redirections
      | .group _ body redirections => runLedUntilSleep fuel body redirections
      | .conditional condition yes no =>
        match ← askUntilSleep fuel condition with
        | some p => return some (p.within fun rest => .conditional rest yes no)
        | none =>
          if !(← goesOn) then return none
          else if (← get).status = 0 then runUntilSleep fuel yes
          else
            setStatus 0
            runUntilSleep fuel no
      | .loop untilTrue condition body =>
        if isUnrolled fuel body then
          let round : Command := .sequence body c
          runUntilSleep fuel (if untilTrue then .conditional condition .nothing round
            else .conditional condition round .nothing)
        else runAtOnce fuel c
      | .each line name words body =>
        if isUnrolled fuel body then
          let values ← match words with
            | some ws => expandFields (capture fuel) fuel ws
            | none => do pure (← get).parameters
          match values with
          | [] => return none
          | value :: rest =>
            assign name value
            let later : Command := .each line name (some (rest.map fun v => [.text v true])) body
            runUntilSleep fuel (.sequence body later)
        else runAtOnce fuel c
      | .simple line _ words _ =>
        modify fun s => { s with line := line }
        let fields ← expandFields (capture fuel) fuel words
        let times := fields.tail.map interval?
        if times.isEmpty || times.contains none then runAtOnce fuel c
        else return some ⟨(times.filterMap id).foldl (· + ·) 0, .nothing, 0⟩
      | c => runAtOnce fuel c
  termination_by structural fuel => fuel

/-- Runs a command that is only asked about up to where it lets time pass, if it does. -/
def askUntilSleep : Nat → Command → SessionM (Option Pause)
  | 0, _ => failure
  | fuel + 1, c => do
    let before := (← get).asked
    modify fun s => { s with asked := true }
    let pause ← runUntilSleep fuel c
    modify fun s => { s with asked := before }
    return pause
  termination_by structural fuel => fuel

/-- Runs a command that cannot be parted. If it lets time pass, then it is all done after that. -/
def runAtOnce : Nat → Command → SessionM (Option Pause)
  | 0, _ => failure
  | fuel + 1, c => do
    let before ← get
    run fuel c
    let time := passedSince before (← get)
    if time = 0 || before.ahead != 0 then
      modify fun s => { s with ahead := 0 }
      return none
    else
      set before
      return some ⟨time, c, time⟩
  termination_by structural fuel => fuel

/-- Runs a command with streams led elsewhere up to where it lets time pass, if it does. -/
def runLedUntilSleep : Nat → Command → List Redirection → SessionM (Option Pause)
  | 0, _, _ => failure
  | fuel + 1, c, redirections => do
    let before ← get
    if ← redirectAll fuel redirections then
      match ← runUntilSleep fuel c with
      | some pause => return some pause
      | none =>
        leadBack before (redirections.map ledStream)
        return none
    else
      setStatus 2
      return none
  termination_by structural fuel => fuel

/-- Waits for processes that were left to run by themselves. -/
def waitFor : Nat → List String → SessionM Unit
  | 0, _ => failure
  | fuel + 1, args => do
    let awaits (isMeant : Nat → Bool) (s : Session) : Bool :=
      s.sleepers.any fun p => isMeant p.number
    match args.find? fun a => (numberOf? a).isNone && !Text.startsWith "%" a, args with
    | some bad, _ => refuse ("Illegal number: " ++ bad)
    | none, [] =>
      let own := (← get).besides
      wakeWhile fuel 0 (awaits own.contains)
      modify fun s => { s with besides := [], awaited := own ++ s.awaited }
      setStatus 0
    | none, args =>
      args.forM fun a => do
        let isMeant (n : Nat) : Bool := toString n == a
        let known := (← get).besides ++ (← get).awaited
        if known.any isMeant then
          wakeWhile fuel 0 (awaits isMeant)
          match (← get).ended.find? fun e => isMeant e.1 with
          | some (_, .signal n) =>
            match Signal.words? n with
            | some text => complain text
            | none => pure ()
            setStatus (128 + n)
          | some (_, .code n) => setStatus n
          | none => setStatus 127
          modify fun s => { s with
            besides := s.besides.filter fun n => !isMeant n
            awaited := s.besides.filter isMeant ++ s.awaited }
        else setStatus 127
  termination_by structural fuel => fuel

/-- What a command in a word writes. -/
def capture : Nat → Command → SessionM String
  | 0, _ => failure
  | fuel + 1, c => do
    let s ← get
    let bytes ← collecting (runFully fuel c)
    let status := (← get).status
    modify fun t => { t with status := s.status, captured := some status }
    return Text.Octets.ofBytes bytes
  termination_by structural fuel => fuel

/-- Sees to the signals that were sent to the process. -/
def seeSignals : Nat → SessionM Unit
  | 0 => failure
  | fuel + 1 => do
    let s ← get
    let isOwn (p : Nat × Nat) : Bool := p.1 == s.pid
    match s.copied, s.flow, s.pending.find? isOwn with
    | false, .next, some (p, n) =>
      set { s with pending := s.pending.erase (p, n) }
      match if Signal.isFinal n then none else s.traps.lookup n with
      | none => if !Signal.isPassedOver n then setFlow (.stop (.signal n))
      | some "" => return ()
      | some action =>
        runText fuel action
        if ← goesOn then
          setStatus s.status
          modify fun t => { t with line := s.line }
      seeSignals fuel
    | _, _, _ => return ()
  termination_by structural fuel => fuel

/-- Runs a script in a process of its own; how it ended. -/
def runChild : Nat → String → List String → List Char → String → SessionM ExitStatus
  | 0, _, _, _, _ => failure
  | fuel + 1, name, args, options, source => do
    let s ← get
    set (childOf s name args)
    options.forM (setOption true)
    runLines fuel (.ofText source)
    sayFarewell fuel
    let status := endStatus (← get)
    comeBack s (statusNumber status)
    modify fun t => { t with pending := t.pending.filter (·.1 != s.pid + 1) }
    return status
  termination_by structural fuel => fuel

/-- Runs the shell as a program with arguments that are left to read; how it ended. -/
def runShell : Nat → Launch → List Char → List String → SessionM ExitStatus
  | 0, _, _, _ => failure
  | fuel + 1, l, options, args => do
    let isKnown (c : Char) : Bool := c == 'c' || (optionNames.lookup c).isSome
    let wrong (text : String) : SessionM ExitStatus := do
      complain (l.called ++ ": 0: " ++ text)
      return .code 2
    match args with
    | "-o" :: name :: rest =>
      match optionNames.find? (·.2 == name) with
      | some (letter, _) => runShell fuel l (options ++ [letter]) rest
      | none => wrong ("Illegal option -o " ++ name)
    | a :: rest =>
      match a.toList with
      | '-' :: c :: cs =>
        let letters := c :: cs
        if a = "--" then runShellFile fuel l options rest
        else match letters.find? fun d => !isKnown d with
          | some d => wrong ("Illegal option -" ++ String.singleton d)
          | none =>
            let others := options ++ letters.filter fun d => d != 'c' && d != 's'
            if letters.contains 'c' then
              match rest with
              | source :: name :: args => runChild fuel name args others source
              | [source] => runChild fuel l.called [] others source
              | [] => wrong "-c requires an argument"
            else if letters.contains 's' then
              let source := Text.Octets.ofBytes (← takeInput)
              runChild fuel l.called rest others source
            else runShell fuel l others rest
      | ['-'] => runShellFile fuel l options rest
      | _ => runShellFile fuel l options args
    | [] => runShellFile fuel l options []
  termination_by structural fuel => fuel

/-- Runs a script that the shell is given as a file, or as its input. -/
def runShellFile : Nat → Launch → List Char → List String → SessionM ExitStatus
  | 0, _, _, _ => failure
  | fuel + 1, l, options, args => do
    match args with
    | [] =>
      let source := Text.Octets.ofBytes (← takeInput)
      runChild fuel l.called [] options source
    | file :: args =>
      let source ← match l.script with
        | some (path, bytes) =>
          if path = file then pure (.ok (Text.Octets.ofBytes bytes)) else contentOf file
        | none => contentOf file
      match source with
      | .ok source => runChild fuel file args options source
      | .error e =>
        complain (l.called ++ ": 0: cannot open " ++ file ++ ": " ++
          (if e.isNotFound then "No such file" else reason e))
        return .code 2
  termination_by structural fuel => fuel

/-- Runs a program; how it ended. It speaks under the name it was called by. -/
def runProgram : Nat → Launch → SessionM ExitStatus
  | 0, _ => failure
  | fuel + 1, l => do
    let before ← get
    set { before with called := some (l.program, l.called), lost := none }
    let status ← match before.expired, utility? l.program with
      | true, _ => pure (.signal 15)
      | false, some f => do pure (.code (← f l.args))
      | false, none => runCaller fuel l
    let status ← match (← get).lost with
      | some e => do
        let (text, n) := lossReport l.program e
        complain text
        pure (.code n)
      | none => pure status
    modify fun s => { s with flow := before.flow, called := before.called, lost := before.lost }
    return status
  termination_by structural fuel => fuel

/-- Runs a program that runs others; how it ended. -/
def runCaller : Nat → Launch → SessionM ExitStatus
  | 0, _ => failure
  | fuel + 1, l => do
    let args := l.args
    let call (missing : String → String) (words : List String) : SessionM ExitStatus := do
      let s ← get
      match words with
      | [] => return .code 0
      | name :: args =>
        match start true s.disk s.here s.searchPath name args with
        | .ok launched => runProgram fuel launched
        | .error e =>
          complain (missing name ++ ": " ++ reason e)
          return .code (if e.isNotFound then 127 else 126)
    let plainCall (tool : String) (words : List String) : SessionM Nat := do
      return statusNumber (← call (fun name => tool ++ ": " ++ shownName name) words)
    match l.program with
    | "sh" => runShell fuel l [] args
    | "dash" => runShell fuel l [] args
    | "find" => return .code (← Find.find (fun words => do
        let s ← get
        match words with
        | name :: rest =>
          match start true s.disk s.here s.searchPath name rest with
          | .ok _ => plainCall "find" words
          | .error e =>
            complain ("find: " ++ cited name ++ ": " ++ reason e)
            return 1
        | [] => return 0) args)
    | "timeout" =>
      match limitOptions ⟨15, false, false⟩ args with
      | .error message =>
        complain message
        return .code 125
      | .ok (limit, time :: name :: rest) =>
        match interval? time with
        | none => return .code (← misuse "timeout" ("invalid time interval " ++ cited time) 125)
        | some bound =>
          let begun ← get
          let isOwn := bound != 0 && begun.left.all (bound < ·)
          if isOwn then set { begun with left := some bound }
          let status ← call (fun name => "timeout: failed to run command " ++ cited name)
            (name :: rest)
          let expired := (← get).expired
          modify fun s => { s with
            left := begun.left.map (· - passedSince begun s), expired := expired && !isOwn }
          if !expired then return status
          else
            if limit.tells then
              complain ("timeout: sending signal " ++ Signal.name limit.signal ++ " to command " ++
                cited name)
            return if limit.signal = 9 then .signal 9
              else .code (if limit.preserves then 128 + limit.signal else 124)
      | .ok _ =>
        complain (hint "timeout")
        return .code 125
    | "nohup" =>
      match args with
      | [] => return .code (← misuse "nohup" "missing operand" 125)
      | "--" :: args => call (fun name => "nohup: failed to run command " ++ quoted name) args
      | a :: _ =>
        match a.toList with
        | '-' :: c :: _ =>
          return .code (← misuse "nohup" ("invalid option -- " ++ between (String.singleton c)) 125)
        | _ => call (fun name => "nohup: failed to run command " ++ quoted name) args
    | "which" =>
      let s ← get
      let (letters, names) := args.span fun a => Text.startsWith "-" a && a != "-"
      match (letters.flatMap fun a => a.toList.drop 1).find? fun c => !Text.holds c "as" with
      | some c =>
        complain ("Illegal option -" ++ String.singleton c)
        say ("Usage: " ++ (if Text.holds '/' l.called then l.called else "/usr/bin/" ++ l.called) ++
          " [-as] args\n")
        return .code 2
      | none =>
        let statuses ← names.mapM fun name =>
          match findProgram s.disk s.here s.searchPath name with
          | .ok path => do
            if !letters.any (Text.holds 's') then say (path ++ "\n")
            pure 0
          | .error _ => pure 1
        return .code (if names.isEmpty then 1 else statuses.foldl max 0)
    | "env" =>
      match envOptions (args.length + 100) args with
      | .error message =>
        complain message
        return .code 125
      | .ok (cleared, dropped, args) =>
        let before ← get
        let isAssignment (a : String) : Bool := Text.holds '=' a && !Text.startsWith "=" a
        if cleared then modify fun s => { s with exported := [] }
        modify fun s => { s with exported := s.exported.filter fun n => !dropped.contains n }
        (args.takeWhile isAssignment).forM fun a => do
          let (name, value) := declaration a
          restore name value
          handOn name
        let words := args.dropWhile isAssignment
        let status ← match words with
          | [] => do pure (.code (← printenv []))
          | name :: _ => do
            let status ← call (fun name => "env: " ++ cited name) words
            if status = .code 127 && name.toList.any Number.isBlank then
              complain "env: use -[v]S to pass options in shebang lines"
            pure status
        modify fun s => { s with bindings := before.bindings, exported := before.exported }
        return status
    | _ =>
      match wordsOptions args with
      | .error message =>
        complain message
        return .code 1
      | .ok (options, words) =>
        let words := if words.isEmpty then ["echo"] else words
        let text := Text.Octets.ofBytes (← takeInput)
        let runs : List (List String) := match options.value? 'I' with
          | some mark =>
            let lines := (linesOf text).map (Text.dropLeading ' ')
            (lines.filter (· != "")).map fun line =>
              words.map fun (w : String) => Text.join line (w.splitOn mark)
          | none =>
            let items := if options.has '0' then
                (Text.split (Char.ofNat 0) text).filter (· != "")
              else inputWords true (text.toList.length + 1) none text.toList
            if items.isEmpty && options.has 'r' then []
            else match (options.value? 'n').bind numberOf? with
              | some n => (inPieces (max n 1) (items.length + 1) items).map (words ++ ·)
              | none => [words ++ items]
        let statuses ← runs.mapM (plainCall "xargs")
        let worst := statuses.foldl max 0
        return .code (if [0, 126, 127].contains worst then worst else 123)
  termination_by structural fuel => fuel

/-- Runs the program a command names. -/
def external : Nat → Bool → String → List String → SessionM Unit
  | 0, _, _, _ => failure
  | fuel + 1, inPlace, name, args => do
    if Text.holds '/' name then letOthersRun fuel
    let s ← get
    if !inPlace then set { s with awaited := s.awaited.dropLast }
    match startNamed true s.disk s.here s.searchPath name args with
    | .ok launched =>
      if !Text.holds '/' name then modify fun s => { s with tracked := name :: s.tracked }
      letOthersRun fuel
      let status ← runProgram fuel launched
      letOthersRun fuel
      if inPlace then
        modify fun s => { s with traps := s.traps.filter (·.1 != Signal.exit) }
        setFlow (.stop status)
      else
        match status with
        | .code n => setStatus n
        | .signal n =>
          match Signal.words? n with
          | some text => complain text
          | none => pure ()
          setStatus (128 + n)
    | .error e =>
      if e == .os .noEntry || e == .os .notADirectory then
        complainHere (name ++ ": not found")
        setStatus 127
      else
        let isMissing := !inPlace && !Text.holds '/' name &&
          !(findProgram s.disk s.here s.searchPath name).isOk
        complainHere (name ++ ": " ++ reason e)
        setStatus (if isMissing || e == .os .tooManyLinks || e == .os .nameTooLong then 127
          else 126)
      if inPlace then setFlow (.stop (.code (← get).status))
  termination_by structural fuel => fuel

/-- Runs a command of the shell itself. -/
def builtin : Nat → String → List String → SessionM Unit
  | 0, _, _ => failure
  | fuel + 1, name, args => do
    let speaker := (← get).speaker
    modify fun s => { s with speaker := some name, lost := none }
    match (specialBuiltin? name).orElse fun _ => regularBuiltin? name with
    | some f => setStatus (← f args)
    | none =>
      match name with
      | "eval" =>
        let s ← get
        setStatus (if args.all (· == "") then 0 else s.status)
        runText fuel (Text.join " " args)
      | "." =>
        match args with
        | [] => setStatus 0
        | file :: _ => runSourced fuel file
      | "exec" =>
        match args with
        | [] => setStatus 0
        | name :: args => external fuel true name args
      | "command" =>
        modify fun s => { s with speaker := speaker }
        runCommand fuel args
      | "wait" => waitFor fuel args
      | _ => describeAll 0 args
    if (← get).lost.isSome then
      modify fun s => { s with speaker := some name }
      complainHere (name ++ ": I/O error")
      modify fun s => { s with status := max s.status 1, lost := none }
    let failed := (← get).flow == .fail
    if failed && !isSpecial name then
      setFlow .next
      setStatus 2
    modify fun s => { s with speaker := speaker }
  termination_by structural fuel => fuel

/-- Runs a file in the session itself. -/
def runSourced : Nat → String → SessionM Unit
  | 0, _ => failure
  | fuel + 1, file => do
    let s ← get
    let found : Except IoError (String × String) :=
      if Text.holds '/' file then
        (s.disk.read s.here (pathOf file)).map fun b => (file, Text.Octets.ofBytes b)
      else
        let places := (Text.split ':' ((s.valueOf "PATH").getD "")).map fun d =>
          if d = "" then file else d ++ "/" ++ file
        match places.find? fun p => s.disk.isFile s.here (pathOf p) with
        | some p => (s.disk.read s.here (pathOf p)).map fun b => (p, Text.Octets.ofBytes b)
        | none => .error (.os .noEntry)
    match found with
    | .ok (path, source) =>
      modify fun s => { s with speaker := some path, status := 0 }
      runText fuel source
      if (← get).flow == .leaveFunction then setFlow .next
    | .error e =>
      if !Text.holds '/' file then refuse (file ++ ": not found")
      else refuse ("cannot open " ++ file ++ ": " ++
        (if e.isNotFound then "No such file" else reason e))
  termination_by structural fuel => fuel

/-- Runs a command that no function stands in for, or says what it is. -/
def runCommand : Nat → List String → SessionM Unit
  | 0, _ => failure
  | fuel + 1, args => do
    match args with
    | [] => setStatus 0
    | "-v" :: name :: _ => describe false name
    | "-V" :: name :: _ => describe true name
    | "-p" :: rest => runCommand fuel rest
    | "--" :: rest => runCommand fuel rest
    | name :: args =>
      if isBuiltin name then
        builtin fuel name args
        if (← get).flow == .fail then
          setFlow .next
          setStatus 2
      else external fuel false name args
  termination_by structural fuel => fuel

/-- Calls a function. -/
def callFunction : Nat → Command → List String → SessionM Unit
  | 0, _, _ => failure
  | fuel + 1, body, args => do
    let s ← get
    set { s with parameters := args, shadowed := some [], loops := 0 }
    run fuel body
    ((← get).shadowed.getD []).forM fun v => restore v.1 v.2
    modify fun t => { t with
      parameters := s.parameters, shadowed := s.shadowed, loops := s.loops
      flow := if t.flow == .leaveFunction then .next else t.flow }
  termination_by structural fuel => fuel

/-- Runs a command by its name and arguments. -/
def call : Nat → String → List String → SessionM Unit
  | 0, _, _ => failure
  | fuel + 1, name, args => do
    let s ← get
    match isSpecial name, s.functions.lookup name with
    | false, some body => callFunction fuel body args
    | _, _ => if isBuiltin name then builtin fuel name args else external fuel false name args
  termination_by structural fuel => fuel

/-- Leads a stream as a redirection says; whether it could. -/
def redirect : Nat → Redirection → SessionM Bool
  | 0, _ => failure
  | fuel + 1, r => do
    match r with
    | .output fd target opening =>
      let text ← expandText (capture fuel) fuel target
      if !(← goesOn) then return false
      else if opening = .replace && (← keepsFile text) then
        complainHere ("cannot create " ++ text ++ ": File exists")
        return false
      else leadToFile fd text false (opening == .append) (opening == .append)
    | .both fd target =>
      let text ← expandText (capture fuel) fuel target
      if ← goesOn then leadToFile fd text false true false else return false
    | .input fd source =>
      let text ← expandText (capture fuel) fuel source
      if ← goesOn then leadToFile fd text true true false else return false
    | .document fd body =>
      let text ← expandText (capture fuel) fuel body
      if ← goesOn then
        lead fd (.supply (Text.Octets.toBytes text))
        return true
      else
        if (← get).flow == .fail then setFlow .next
        return false
    | .duplicate fd source =>
      let text ← expandText (capture fuel) fuel source
      if ← goesOn then duplicate fd text else return false
  termination_by structural fuel => fuel

/-- Leads streams in order, up to the first that cannot be. -/
def redirectAll : Nat → List Redirection → SessionM Bool
  | 0, _ => failure
  | _ + 1, [] => return true
  | fuel + 1, r :: rs => do
    if ← redirect fuel r then redirectAll fuel rs else return false
  termination_by structural fuel => fuel

/-- Assigns the words of assignments, and gives them as they are traced. -/
def assignAll : Nat → List (String × Word) → SessionM (List String)
  | 0, _ => failure
  | _ + 1, [] => return []
  | fuel + 1, (name, w) :: rest => do
    let value ← expandText (capture fuel) fuel w
    if ← goesOn then
      assign name value
      if ← goesOn then
        return (name ++ "=" ++ value) :: (← assignAll fuel rest)
      else return []
    else return []
  termination_by structural fuel => fuel

/-- Runs a simple command. -/
def runSimple : Nat → List (String × Word) → List Word → List Redirection → SessionM Unit
  | 0, _, _, _ => failure
  | fuel + 1, assignments, words, redirections => do
    modify fun s => { s with captured := none }
    let fields ← expandFields (capture fuel) fuel words
    if !(← goesOn) then return ()
    let before ← get
    let special := (fields.head?.any isSpecial)
    let led ← redirectAll fuel redirections
    let names := assignments.map (·.1)
    if !led then
      if (← get).flow == .next then
        setStatus 2
        if special then setFlow .fail
    else
      let assigned ← assignAll fuel assignments
      if ← goesOn then
        trace (assigned ++ fields)
        match fields with
        | [] => setStatus ((← get).captured.getD 0)
        | name :: args =>
          if !special then names.forM handOn
          call fuel name args
    if !fields.isEmpty && !special then
      names.forM fun n => restore n (before.valueOf n)
      if !names.isEmpty then modify fun s => { s with exported := before.exported }
    let stays := match fields with
      | ["exec"] => led
      | _ => false
    if !stays then leadBack before (redirections.map ledStream)
  termination_by structural fuel => fuel

/-- Runs something with streams led elsewhere. -/
def redirected : Nat → List Redirection → Command → SessionM Unit
  | 0, _, _ => failure
  | fuel + 1, rs, c => do
    let before ← get
    if ← redirectAll fuel rs then run fuel c
    else if ← goesOn then
      setStatus 2
      checkStrict
    leadBack before (rs.map ledStream)
  termination_by structural fuel => fuel

/-- Runs the commands of a pipeline, each on what the one before it wrote. -/
def runPipes : Nat → List Command → SessionM Unit
  | 0, _ => failure
  | _ + 1, [] => return ()
  | fuel + 1, [c] => runCopy fuel c
  | fuel + 1, c :: rest => do
    let before ← get
    let bytes ← collecting (runFully fuel c)
    lead 0 (.supply bytes)
    runPipes fuel rest
    leadBack before [0]
  termination_by structural fuel => fuel

/-- Runs the rounds of a loop with a condition; `status` is that of the last round. -/
def runRounds : Nat → Bool → Command → Command → Nat → SessionM Unit
  | 0, _, _, _, _ => failure
  | fuel + 1, untilTrue, condition, body, status => do
    asking (run fuel condition)
    let flow := (← get).flow
    if ← endOfRound then
      if flow != .next then runRounds fuel untilTrue condition body (← get).status
      else if ((← get).status == 0) != untilTrue then
        run fuel body
        let status := (← get).status
        if ← endOfRound then runRounds fuel untilTrue condition body status
      else setStatus status
  termination_by structural fuel => fuel

/-- Runs a loop over words. -/
def runEach : Nat → String → List String → Command → SessionM Unit
  | 0, _, _, _ => failure
  | _ + 1, _, [], _ => return ()
  | fuel + 1, name, value :: rest, body => do
    assign name value
    if ← goesOn then
      run fuel body
      if ← endOfRound then runEach fuel name rest body
  termination_by structural fuel => fuel

/-- Whether one of the patterns fits. -/
def fitsAny : Nat → String → List Word → SessionM Bool
  | 0, _, _ => failure
  | _ + 1, _, [] => return false
  | fuel + 1, subject, w :: rest => do
    let bits ← expandWord (capture fuel) fuel false w
    if !(← goesOn) then return false
    else if Pattern.fits (patternOf (markedOf bits)) subject.toList then return true
    else fitsAny fuel subject rest
  termination_by structural fuel => fuel

/-- Runs the first arm that fits. -/
def runArms : Nat → String → List (List Word × Command) → SessionM Unit
  | 0, _, _ => failure
  | _ + 1, _, [] => setStatus 0
  | fuel + 1, subject, (patterns, body) :: rest => do
    let fits ← fitsAny fuel subject patterns
    if !(← goesOn) then return ()
    else if fits then
      match body with
      | .nothing => setStatus 0
      | body => run fuel body
    else runArms fuel subject rest
  termination_by structural fuel => fuel

/-- Runs a command. -/
def run : Nat → Command → SessionM Unit
  | 0, _ => failure
  | fuel + 1, c => do
    match if (← get).expired then .nothing else c with
    | .nothing => return ()
    | .simple line assignments words redirections =>
      modify fun s => { s with line := line }
      runSimple fuel assignments words redirections
      seeSignals fuel
      checkStrict
    | .pipeline negated commands =>
      if negated then
        asking (do
          match commands with
          | [c] => run fuel c
          | commands => runPipes fuel commands)
        if ← goesOn then setStatus (if (← get).status = 0 then 1 else 0)
      else
        runPipes fuel commands
        seeSignals fuel
        checkStrict
    | .sequence first second =>
      run fuel first
      if ← goesOn then run fuel second
    | .background body =>
      let s ← get
      let number := s.lastNumber + 1
      lead 0 (.device .null)
      modify fun t => { t with
        lastNumber := number
        copied := true, traps := keptTraps s, besides := [], awaited := [], ahead := 0
        left := none }
      let t ← get
      let begun : Sleeper := ⟨number, t.clock, t.toProcess, body, 0, []⟩
      set { t with sleepers := t.sleepers ++ [begun] }
      modify fun t => { t with
        toProcess := { s.toProcess with
          status := 0, besides := number :: s.besides, awaited := s.awaited.dropLast
          lastBeside := some number }
        clock := s.clock, ahead := s.ahead, left := s.left
        channels := t.keptChannels s.channels.length }
    | .both first second =>
      asking (run fuel first)
      if (← goesOn) && (← get).status = 0 then run fuel second
    | .either first second =>
      asking (run fuel first)
      if (← goesOn) && (← get).status != 0 then run fuel second
    | .subshell line body redirections =>
      modify fun s => { s with line := line }
      let before ← get
      if ← redirectAll fuel redirections then runCopy fuel body
      else if ← goesOn then setStatus 2
      leadBack before (redirections.map ledStream)
      seeSignals fuel
      checkStrict
    | .group line body redirections =>
      if redirections.isEmpty then run fuel body
      else
        modify fun s => { s with line := line }
        redirected fuel redirections body
    | .conditional condition yes no =>
      asking (run fuel condition)
      if ← goesOn then
        if (← get).status = 0 then run fuel yes
        else
          setStatus 0
          run fuel no
    | .loop untilTrue condition body =>
      modify fun s => { s with loops := s.loops + 1 }
      runRounds fuel untilTrue condition body 0
      modify fun s => { s with loops := s.loops - 1 }
    | .each line name words body =>
      modify fun s => { s with line := line }
      let values ← match words with
        | some ws => expandFields (capture fuel) fuel ws
        | none => do pure (← get).parameters
      if ← goesOn then
        setStatus 0
        modify fun s => { s with loops := s.loops + 1 }
        runEach fuel name values body
        modify fun s => { s with loops := s.loops - 1 }
    | .choose line subject arms =>
      modify fun s => { s with line := line }
      let text ← expandText (capture fuel) fuel subject
      if ← goesOn then runArms fuel text arms
    | .define name body =>
      modify fun s => { s with functions := (name, body) :: s.functions.filter (·.1 != name) }
      setStatus 0
  termination_by structural fuel => fuel

end

/-! ## Whole scripts -/

/-- The bound on the depth of steps. -/
def depth : Nat := 100000

/-- The session of whoever starts programs in a directory. -/
def Session.start (d : Disk) (m : Disk.Meanwhile) (here : Route)
    (environment : List (String × String)) (pid : Nat) : Session :=
  let octets := Text.Octets.ofText
  let place := octets here.toPath.text
  let given := environment.map fun v => (octets v.1, octets v.2)
  { here := here, place := place, name := "", parameters := []
    bindings := firstVariables place pid given, exported := "PWD" :: given.map (·.1), fixed := []
    functions := [], aliases := [], tracked := [], mask := 18, shadowed := none
    pid := pid, line := 1, reached := 1, speaker := none, called := none, status := 0
    captured := none, streams := [(0, 0), (1, 1), (2, 2)], flow := .next, options := []
    asked := false, loops := 0, traps := [], copied := false, besides := [], awaited := []
    lastBeside := none, lettersRead := 0
    disk := d, meanwhile := m
    channels := [.device .null, .collected ByteArray.empty, .collected ByteArray.empty]
    pending := [], clock := m.now, ahead := 0, sleepers := []
    lastNumber := pid + 999, since := 0, ended := [], lost := none, left := none, expired := false }

/-- The bytes that were collected in a channel. -/
def collectedIn (s : Session) (i : Nat) : ByteArray :=
  match s.channels[i]? with
  | some (.collected bytes) => bytes
  | _ => ByteArray.empty

/-- Runs a program to its end, and what it leaves running as long as that could write to its output.
-/
def Launch.run (l : Launch) : Started := fun d m here environment pid =>
  let whole : SessionM ExitStatus := do
    let status ← runProgram depth l
    wakeWhile depth 0 fun s => isHeld 1 s || isHeld 2 s || isAnyReady 0 s
    return status
  (whole.run (Session.start d m here environment pid)).map fun (status, t) =>
    (⟨status, collectedIn t 1, collectedIn t 2⟩, t.disk, t.meanwhile)

/-- The programs that are scripts or utilities. They see texts as bytes. -/
def programs : Programs where
  start d here searchPath name args :=
    let octets := Text.Octets.ofText
    (start false d here (octets searchPath) (octets name) (args.map octets)).map Launch.run

end ClassViewer.Shell
