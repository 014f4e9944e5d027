import ClassViewer.Shell.Condition
import ClassViewer.Shell.Expansion
import ClassViewer.Shell.Printf

/-!
# Commands of the shell itself

The commands that act on the session and run no others. An error of one of them ends the script if
the command is special, and is its status otherwise.
-/

namespace ClassViewer.Shell

open Session

/-- A command of the shell: given its arguments, it gives a status. -/
abbrev Builtin := List String → SessionM Nat

/-- Fails: the script ends, unless the command is not special. -/
def failWith (text : String) : SessionM Nat := do
  refuse text
  return 2

/-- The number of an argument. -/
def numberOf? (s : String) : Option Nat :=
  if s != "" && s.toList.all Char.isDigit then
    let n := digitsValue s.toList
    if n ≤ 2147483647 then some n else none
  else none

/-- Reads the letters of options up to `--` or the first other argument; a letter that is not known
fails. -/
def readFlags (known : String) : List String → Except Char (List Char × List String)
  | [] => .ok ([], [])
  | "--" :: rest => .ok ([], rest)
  | "-" :: rest => .ok ([], "-" :: rest)
  | a :: rest =>
    match a.toList with
    | '-' :: letters =>
      match letters.find? fun c => !Text.holds c known with
      | some c => .error c
      | none => (readFlags known rest).map fun r => (letters ++ r.1, r.2)
    | _ => .ok ([], a :: rest)

/-- A command with options of single letters. -/
def withFlags (known : String) (f : List Char → List String → SessionM Nat) : Builtin := fun args =>
  match readFlags known args with
  | .ok (letters, rest) => f letters rest
  | .error c => failWith ("Illegal option -" ++ String.singleton c)

/-! ## Output -/

def echoCommand : Builtin := fun args => do
  say (echo args)
  return 0

def printfCommand : Builtin := withFlags "" fun _ args => do
  match args with
  | [] => failWith "usage: printf format [arg ...]"
  | format :: args =>
    let p := printf format args
    p.faults.forM complainHere
    match p.stop with
    | some (.refused message) =>
      let status ← failWith message
      say p.text
      return status
    | _ =>
      say p.text
      return if p.faults.isEmpty then 0 else 1

/-! ## Directories -/

/-- The names of a path with its dots and double dots worked in. -/
def settle (path : String) : String :=
  let names := (Text.split '/' path).foldl (fun acc n =>
    if n = "" || n = "." then acc else if n = ".." then acc.dropLast else acc ++ [n]) []
  "/" ++ Text.join "/" names

/-- Goes to a directory. -/
def changeDirectory : Builtin := withFlags "LP" fun flags args => do
  let s ← get
  let (target, spoken) := match args with
    | [] => ((s.valueOf "HOME").getD "", false)
    | "-" :: _ => ((s.valueOf "OLDPWD").getD "", true)
    | p :: _ => (p, false)
  if target = "" then return 0
  else
    let path := if Text.startsWith "/" target then target else s.place ++ "/" ++ target
    let logical := settle path
    let physical := flags.getLast? = some 'P'
    match s.disk.lookup s.here true (pathOf (if physical then target else logical)) with
    | .ok (r, .directory) =>
      let place := if physical then Text.Octets.ofText r.toPath.text else logical
      assign "OLDPWD" s.place
      assign "PWD" place
      modify fun s => { s with here := r, place := place }
      if spoken then say (place ++ "\n")
      return 0
    | _ => failWith ("can't cd to " ++ target)

def printDirectory : Builtin := withFlags "LP" fun flags _ => do
  let s ← get
  let path := if flags.getLast? = some 'P' then Text.Octets.ofText s.here.toPath.text else s.place
  say (path ++ "\n")
  return 0

/-! ## Signals -/

/-- Whether a process that was left to run by itself takes no notice of a signal. -/
def isMissed (p : Process) (signal : Nat) : Bool :=
  [0, 2, 3, 19].contains signal || Signal.isPassedOver signal ||
    (!Signal.isFinal signal && p.traps.lookup signal == some "")

/-- Sends a signal to a process that sleeps: it sees to it when it wakes up, or is ended by it. -/
def sendToSleeper (p : Sleeper) (signal : Nat) : SessionM Unit := do
  let others (s : Session) : List Sleeper := s.sleepers.filter (·.number != p.number)
  if isMissed p.process signal then return ()
  else if !Signal.isFinal signal && (p.process.traps.lookup signal).isSome then
    modify fun s => { s with
      sleepers := others s ++ [{ p with signals := p.signals ++ [signal] }] }
  else
    modify fun s => { s with
      sleepers := others s, ended := (p.number, .signal signal) :: s.ended }

/-- Sends a signal to a process; whether there is one. -/
def send (signal : Nat) (target : String) : SessionM Bool := do
  let s ← get
  if target = toString s.pid || target = "0" then
    if signal != 0 then modify fun s => { s with pending := s.pending ++ [(s.pid, signal)] }
    return true
  else
    match s.sleepers.find? fun p => toString p.number == target with
    | some p =>
      sendToSleeper p signal
      return true
    | none => return s.besides.any fun n => toString n == target

/-- Sends a signal to the processes in order. -/
def sendAll (signal : Nat) : Nat → List String → SessionM Nat
  | status, [] => return status
  | status, target :: rest => do
    match numberOf? target with
    | none => failWith ("Illegal number: " ++ target)
    | some _ =>
      if ← send signal target then sendAll signal status rest
      else
        complainHere "No such process\n"
        sendAll signal 1 rest

/-- Lists the names of signals. -/
def listSignals : List String → SessionM Nat
  | [] => do
    say "0\n"
    (List.range (Signal.count - 1)).forM fun n => say (Signal.name (n + 1) ++ "\n")
    return 0
  | a :: _ => do
    match numberOf? a with
    | none => failWith ("Illegal number: " ++ a)
    | some n =>
      let n := if 128 < n then n - 128 else n
      if 0 < n && n < Signal.count then
        say (Signal.name n ++ "\n")
        return 0
      else failWith ("invalid signal number or exit status: " ++ a)

def kill : Builtin := fun args => do
  let usage := failWith
    "Usage: kill [-s sigspec | -signum | -sigspec] [pid | job]... or\nkill -l [exitstatus]"
  let toTargets (signal : Nat) (targets : List String) : SessionM Nat :=
    match targets with
    | [] => usage
    | targets => sendAll signal 0 targets
  match args with
  | [] => usage
  | a :: rest =>
    match Text.dropHead? "-" a with
    | none => toTargets 15 args
    | some name =>
      match Signal.ofText? 1 name, name.toList with
      | some n, _ => toTargets n rest
      | none, ['-'] => toTargets 15 rest
      | none, ['l'] => listSignals rest
      | none, 's' :: given =>
        let (given, targets) := match given, rest with
          | [], g :: rest => (g, rest)
          | given, rest => (String.ofList given, rest)
        match Signal.ofText? 1 given with
        | some n => toTargets n targets
        | none => failWith ("invalid signal number or name: " ++ given)
      | none, c :: _ => failWith ("Illegal option -" ++ String.singleton c)
      | none, [] => toTargets 15 args

/-- The pieces of a text between apostrophes, and runs of apostrophes between quotation marks;
`fuel` bounds the pieces. -/
def apostrophePieces : Nat → List Char → List Char
  | 0, _ => []
  | fuel + 1, cs =>
    let isApostrophe (c : Char) : Bool := c == Char.ofNat 39
    let plain := cs.takeWhile fun c => !isApostrophe c
    let rest := cs.drop plain.length
    let marks := rest.takeWhile isApostrophe
    let after := rest.drop marks.length
    let piece := (Char.ofNat 39 :: plain) ++ [Char.ofNat 39]
    if marks.isEmpty then piece
    else
      let quoted := piece ++ ('"' :: marks) ++ ['"']
      if after.isEmpty then quoted else quoted ++ apostrophePieces fuel after

/-- A text as a script would write it. -/
def inApostrophes (s : String) : String :=
  String.ofList (apostrophePieces (s.length + 1) s.toList)

/-- Sets what is done on a signal. -/
def setTrap (action : Option String) (signal : Nat) : SessionM Unit :=
  modify fun s => { s with
    traps := (action.map fun a => (signal, a)).toList ++ s.traps.filter (·.1 != signal) }

/-- Sets what is done on signals, in order. -/
def setTraps (action : Option String) : List String → SessionM Nat
  | [] => return 0
  | name :: rest => do
    match Signal.ofText? 0 name with
    | some n =>
      setTrap action n
      setTraps action rest
    | none =>
      complain ("trap: " ++ name ++ ": bad trap")
      return 1

def trap : Builtin := withFlags "" fun _ args => do
  match args with
  | [] =>
    let s ← get
    (List.range Signal.count).forM fun n =>
      match s.traps.lookup n with
      | some action => say ("trap -- " ++ inApostrophes action ++ " " ++ Signal.name n ++ "\n")
      | none => pure ()
    return 0
  | [name] => setTraps none [name]
  | "-" :: names => setTraps none names
  | action :: names =>
    if (numberOf? action).isSome then setTraps none args else setTraps (some action) names

/-! ## Options -/

/-- The letters of options with their long names, in the order they are shown in. -/
def optionNames : List (Char × String) :=
  [('e', "errexit"), ('f', "noglob"), ('I', "ignoreeof"), ('i', "interactive"), ('m', "monitor"),
    ('n', "noexec"), ('s', "stdin"), ('x', "xtrace"), ('v', "verbose"), ('V', "vi"),
    ('E', "emacs"), ('C', "noclobber"), ('a', "allexport"), ('b', "notify"), ('u', "nounset")]

/-- The names of options that nothing takes note of. -/
def unusedOptions : List String := ["privileged", "nolog", "debug"]

/-- Sets an option or takes it back. -/
def setOption (on : Bool) (letter : Char) : SessionM Unit :=
  modify fun s => { s with
    options := (optionNames.map (·.1)).filter fun c =>
      if c = letter then on else s.options.contains c }

/-- Sets the options of letters; whether all are known. -/
def setLetters (on : Bool) : List Char → SessionM (Option Char)
  | [] => return none
  | c :: rest => do
    if (optionNames.lookup c).isNone then return some c
    else
      setOption on c
      setLetters on rest

/-- Lists the options, or the commands that set them. -/
def listOptions (asCommands : Bool) : SessionM Unit := do
  let s ← get
  if !asCommands then say "Current option settings\n"
  let named := optionNames.map fun o => (o.2, s.hasOption o.1)
  (named ++ unusedOptions.map fun name => (name, false)).forM fun (name, on) =>
    say (if asCommands then "set " ++ (if on then "-" else "+") ++ "o " ++ name ++ "\n"
      else name ++ String.ofList (List.replicate (16 - name.length) ' ') ++
        (if on then "on\n" else "off\n"))

/-- Sets options and arguments. -/
def setOptions : List String → SessionM Nat
  | [] => return 0
  | "--" :: rest => do
    modify fun s => { s with parameters := rest }
    return 0
  | "-" :: rest => do
    if !rest.isEmpty then modify fun s => { s with parameters := rest }
    return 0
  | a :: rest => do
    match a.toList with
    | sign :: letters =>
      if sign = '-' || sign = '+' then
        if letters = ['o'] then
          match rest with
          | name :: rest =>
            match optionNames.find? (·.2 == name) with
            | some (letter, _) =>
              setOption (sign == '-') letter
              setOptions rest
            | none => failWith ("Illegal option " ++ String.singleton sign ++ "o " ++ name)
          | [] =>
            listOptions (sign == '+')
            return 0
        else
          match ← setLetters (sign == '-') letters with
          | some c => failWith ("Illegal option " ++ String.ofList [sign, c])
          | none => setOptions rest
      else
        modify fun s => { s with parameters := a :: rest }
        return 0
    | [] =>
      modify fun s => { s with parameters := a :: rest }
      return 0

/-! ## Variables -/

/-- The name and the value of a declaration. -/
def declaration (a : String) : String × Option String :=
  match Text.split '=' a with
  | name :: value :: more => (name, some (Text.join "=" (value :: more)))
  | _ => (a, none)

/-- Does something with declared variables in order; a bad name fails. -/
def declareAll (f : String → Option String → SessionM Unit) : List String → SessionM Nat
  | [] => return 0
  | a :: rest => do
    let (name, value) := declaration a
    if !Parser.isName name then failWith (name ++ ": bad variable name")
    else
      f name value
      if ← goesOn then declareAll f rest else return 2

/-- Lists variables as commands that set them. -/
def listVariables (command : String) (names : List String) : SessionM Nat := do
  let s ← get
  (sortNames names).forM fun n =>
    match s.valueOf n with
    | some v => say (command ++ " " ++ n ++ "=" ++ inApostrophes v ++ "\n")
    | none => say (command ++ " " ++ n ++ "\n")
  return 0

/-- Sets options and arguments, or lists the variables. -/
def setCommand : Builtin := fun args => do
  if args.isEmpty then
    let s ← get
    (sortNames (s.bindings.map (·.1))).forM fun n =>
      say (n ++ "=" ++ inApostrophes ((s.valueOf n).getD "") ++ "\n")
    return 0
  else setOptions args

def exportCommand : Builtin := withFlags "p" fun _ args => do
  if args.isEmpty then listVariables "export" (← get).exported
  else
    declareAll (fun name value => do
      match value with
      | some v => assign name v
      | none => pure ()
      handOn name) args

def readonlyCommand : Builtin := withFlags "p" fun _ args => do
  if args.isEmpty then listVariables "readonly" (← get).fixed
  else
    declareAll (fun name value => do
      match value with
      | some v => assign name v
      | none => pure ()
      modify fun s => { s with fixed := name :: s.fixed.filter (· != name) }) args

/-- Makes variables local to the running function. -/
def localCommand : Builtin := fun args => do
  if (← get).shadowed.isNone then failWith "not in a function"
  else
    declareAll (fun name value => do
      let s ← get
      let shadowed := s.shadowed.getD []
      if (shadowed.lookup name).isNone then
        set { s with shadowed := some ((name, s.valueOf name) :: shadowed) }
      match value with
      | some v => assign name v
      | none => pure ()) args

def unsetCommand : Builtin := withFlags "fv" fun flags args => do
  if flags.contains 'f' then
    modify fun s => { s with functions := s.functions.filter fun f => !args.contains f.1 }
    return 0
  else
    declareAll (fun name _ => do
      if (← get).fixed.contains name then refuse (name ++ ": is read only")
      else
        restore name none
        modify fun s => { s with exported := s.exported.filter (· != name) }) args

def shift : Builtin := fun args => do
  let s ← get
  match args.head? with
  | none => go s 1
  | some a =>
    match numberOf? a with
    | some n => go s n
    | none => failWith ("Illegal number: " ++ a)
where
  /-- Drops so many arguments. -/
  go (s : Session) (n : Nat) : SessionM Nat := do
    if s.parameters.length < n then failWith "can't shift that many"
    else
      set { s with parameters := s.parameters.drop n }
      return 0

/-! ## Lines -/

/-- Takes a line off the bytes from a place on: its characters, those behind a backslash marked, how
many bytes were read, and whether the line was ended. -/
def takeLine (raw : Bool) (bytes : ByteArray) : Nat → Nat → List Marked × Nat × Bool
  | 0, _ => ([], 0, false)
  | fuel + 1, i =>
    if h : i < bytes.size then
      let c := Char.ofNat bytes[i].toNat
      if c = '\n' then ([], 1, true)
      else if c = '\\' && !raw then
        if h : i + 1 < bytes.size then
          let d := Char.ofNat bytes[i + 1].toNat
          let (cs, n, ended) := takeLine raw bytes fuel (i + 2)
          (if d = '\n' then cs else (d, true) :: cs, n + 2, ended)
        else ([], 1, false)
      else
        let (cs, n, ended) := takeLine raw bytes fuel (i + 1)
        (if c.toNat = 0 then cs else (c, false) :: cs, n + 1, ended)
    else ([], 0, false)

/-- Whether a character of a line parts fields. -/
def isSeparator (separators : String) (m : Marked) : Bool := !m.2 && Text.holds m.1 separators

/-- Whether it does so as a blank. -/
def isBlankSeparator (separators : String) (m : Marked) : Bool :=
  isSeparator separators m && (m.1 == ' ' || m.1 == '\t' || m.1 == '\n')

/-- The first field of a line without blanks before it, and what is behind its separator. -/
def firstField (separators : String) (cs : List Marked) : List Marked × List Marked :=
  let blank := isBlankSeparator separators
  let field := cs.takeWhile fun m => !isSeparator separators m
  let rest := (cs.drop field.length).dropWhile blank
  match rest with
  | m :: more => if isSeparator separators m then (field, more.dropWhile blank) else (field, rest)
  | [] => (field, [])

/-- The fields of a line for so many names; the last takes all that is left, without the separator
of a field that stands alone in it. -/
def lineFields (separators : String) : Nat → List Marked → List String
  | 0, _ => []
  | 1, cs =>
    let (field, rest) := firstField separators cs
    if rest.isEmpty then [plain field]
    else [plain (cs.reverse.dropWhile (isBlankSeparator separators)).reverse]
  | n + 1, cs =>
    let (field, rest) := firstField separators cs
    plain field :: lineFields separators n rest

def readCommand : Builtin := fun args => do
  match args with
  | "-p" :: _ :: rest => go false rest
  | args =>
    match readFlags "r" args with
    | .ok (flags, names) => go (flags.contains 'r') names
    | .error c => failWith ("Illegal option -" ++ String.singleton c)
where
  /-- Reads a line into names. -/
  go (raw : Bool) (names : List String) : SessionM Nat := do
    match names, names.find? fun n => !Parser.isName n with
    | [], _ => failWith "arg count"
    | _, some bad => failWith (bad ++ ": bad variable name")
    | names, none =>
      let bytes ← remaining 0
      let (cs, n, ended) := takeLine raw bytes (bytes.size + 1) 0
      advance 0 n
      let marks := separators (← get)
      let fields := lineFields marks names.length (cs.dropWhile (isBlankSeparator marks))
      (names.zip fields).forM fun v => assign v.1 v.2
      return if ended then 0 else 1

/-! ## Options of scripts -/

/-- Reads the next option of the arguments into a variable. -/
def getopts : Builtin := fun args => do
  match args with
  | known :: name :: given =>
    let s ← get
    let words := if given.isEmpty then s.parameters else given
    let index := ((s.valueOf "OPTIND").bind numberOf?).getD 1
    let silent := Text.startsWith ":" known
    let current := if 0 < s.lettersRead then index - 1 else index
    let finish (value : String) (argument : Option String) (index letters : Nat) :
        SessionM Unit := do
      assign name value
      restore "OPTARG" argument
      assign "OPTIND" (toString index)
      modify fun s => { s with lettersRead := letters }
    let word := (words[current - 1]?).getD ""
    match word.toList, (word.toList.drop 1).drop s.lettersRead with
    | '-' :: _, c :: rest =>
      let place := (known.toList.drop (if silent then 1 else 0)).dropWhile (· != c)
      let next := current + 1
      let read := if rest.isEmpty then 0 else s.lettersRead + 1
      if word = "--" then
        finish "?" none next 0
        return 1
      else if c = ':' || place.isEmpty then
        if silent then finish "?" (some (String.singleton c)) next read
        else
          complain ("Illegal option -" ++ String.singleton c)
          finish "?" none next read
        return 0
      else if place[1]? = some ':' then
        match rest, words[current]? with
        | [], some argument => finish (String.singleton c) (some argument) (next + 1) 0
        | [], none =>
          if silent then finish ":" (some (String.singleton c)) next 0
          else
            complain ("No arg for -" ++ String.singleton c ++ " option")
            finish "?" none next 0
        | rest, _ => finish (String.singleton c) (some (String.ofList rest)) next 0
        return 0
      else
        finish (String.singleton c) none next read
        return 0
    | _, _ =>
      finish "?" none index 0
      return 1
  | _ => failWith "Usage: getopts optstring var [arg...]"

/-! ## Flow -/

/-- Goes on with the status that an argument names, or with the last one. -/
def withStatus (args : List String) (f : Nat → SessionM Nat) : SessionM Nat := do
  match args with
  | [] => f (← get).status
  | a :: _ =>
    match numberOf? a with
    | some n => f n
    | none => failWith ("Illegal number: " ++ a)

/-- Goes on with a number of loops, no more than there are. -/
def withLevels (args : List String) (f : Nat → Flow) : SessionM Nat := do
  let go (n : Nat) : SessionM Nat := do
    let s ← get
    if n = 0 then failWith ("Illegal number: " ++ args.headD "0")
    else
      if 0 < s.loops then setFlow (f (min n s.loops))
      return 0
  match args with
  | [] => go 1
  | a :: _ =>
    match numberOf? a with
    | some n => go n
    | none => failWith ("Illegal number: " ++ a)

def testCommand (args : List String) : SessionM Nat := do
  match Condition.holds (← get) false (args.length + 1) args with
  | .ok b => return if b then 0 else 1
  | .error message => failWith message

/-! ## Aliases and permissions -/

/-- The place of an alias among others when they are listed. -/
def aliasPlace (name : String) : Nat :=
  let codes := name.toList.map Char.toNat
  (codes.foldl (· + ·) (16 * codes.headD 0)) % 39

/-- The text an alias is listed by. -/
def aliasText (a : String × String) : String := a.1 ++ "=" ++ inApostrophes a.2 ++ "\n"

/-- Makes a word stand for a text, or says what it stands for. -/
def aliasCommand : Builtin := fun args => do
  if args.isEmpty then
    let listed := (← get).aliases.mergeSort fun a b => aliasPlace a.1 ≤ aliasPlace b.1
    listed.forM fun a => say (aliasText a)
    return 0
  else
    args.foldlM (fun status arg => do
      let head := String.ofList (arg.toList.take 1)
      let name := head ++ String.ofList ((arg.toList.drop 1).takeWhile (· != '='))
      match (arg.toList.drop 1).dropWhile (· != '=') with
      | _ :: text =>
        let s ← get
        let text := String.ofList text
        let renewed : List (String × String) :=
          s.aliases.map fun a => if a.1 == name then (name, text) else a
        let isKnown := (s.aliases.lookup name).isSome
        set { s with aliases := if isKnown then renewed else s.aliases ++ [(name, text)] }
        return status
      | [] =>
        match (← get).aliases.lookup name with
        | some text =>
          say (aliasText (name, text))
          return status
        | none =>
          complain ("alias: " ++ name ++ " not found")
          return 1) 0

/-- Takes the meaning of words away. -/
def unalias : Builtin := withFlags "a" fun flags args => do
  if flags.contains 'a' then
    modify fun s => { s with aliases := [] }
    return 0
  else
    args.foldlM (fun status name => do
      let s ← get
      if (s.aliases.lookup name).isSome then
        set { s with aliases := s.aliases.filter (·.1 != name) }
        return status
      else
        complain ("unalias: " ++ name ++ " not found")
        return 1) 0

/-- The letters of the permissions that a digit of a mask leaves. -/
def permissionLetters (digit : Nat) : String :=
  (if digit / 4 % 2 = 0 then "r" else "") ++ (if digit / 2 % 2 = 0 then "w" else "") ++
    (if digit % 2 = 0 then "x" else "")

/-- Says or sets the permissions that new files are not given. -/
def umask : Builtin := withFlags "S" fun flags args => do
  let mask := (← get).mask
  match args with
  | [] =>
    if flags.contains 'S' then
      say ("u=" ++ permissionLetters (mask / 64) ++ ",g=" ++ permissionLetters (mask / 8) ++
        ",o=" ++ permissionLetters mask ++ "\n")
    else
      let digits := Nat.toDigits 8 mask
      say (String.ofList (List.replicate (4 - digits.length) '0' ++ digits) ++ "\n")
    return 0
  | arg :: _ =>
    if arg.toList.head?.any Char.isDigit then
      if arg.toList.all Number.isOctal then
        modify fun s => { s with mask := Number.value 8 arg.toList % 512 }
        return 0
      else failWith ("Illegal number: " ++ arg)
    else return 0

/-- The commands whose errors end the script. -/
def specialBuiltin? : String → Option Builtin
  | ":" => some fun _ => return 0
  | "set" => some setCommand
  | "export" => some exportCommand
  | "readonly" => some readonlyCommand
  | "local" => some localCommand
  | "unset" => some unsetCommand
  | "shift" => some shift
  | "trap" => some trap
  | "times" => some fun _ => do
    say "0m0.000000s 0m0.000000s\n0m0.000000s 0m0.000000s\n"
    return 0
  | "exit" => some fun args => withStatus args fun n => do
    setFlow (.stop (.code (n % 256)))
    return n
  | "return" => some fun args => withStatus args fun n => do
    setFlow .leaveFunction
    return n
  | "break" => some fun args => withLevels args .leaveLoop
  | "continue" => some fun args => withLevels args .nextRound
  | _ => none

/-- The other commands of the shell. -/
def regularBuiltin? : String → Option Builtin
  | "true" => some fun _ => return 0
  | "false" => some fun _ => return 1
  | "echo" => some echoCommand
  | "printf" => some printfCommand
  | "cd" => some changeDirectory
  | "chdir" => some changeDirectory
  | "pwd" => some printDirectory
  | "kill" => some kill
  | "read" => some readCommand
  | "getopts" => some getopts
  | "test" => some testCommand
  | "[" => some fun args =>
    if args.getLast? = some "]" then testCommand args.dropLast else failWith "missing ]"
  | "umask" => some umask
  | "hash" => some fun args => do
    if args.head? = some "-r" then modify fun s => { s with tracked := [] }
    return 0
  | "jobs" => some fun _ => return 0
  | "alias" => some aliasCommand
  | "unalias" => some unalias
  | "ulimit" => some fun _ => do
    say "unlimited\n"
    return 0
  | _ => none

/-- The commands of the shell that run others. -/
def runners : List String := [".", "eval", "exec", "command", "type", "wait"]

/-- Whether a name is that of a command of the shell. -/
def isBuiltin (name : String) : Bool :=
  (specialBuiltin? name).isSome || (regularBuiltin? name).isSome || runners.contains name

/-- Whether an error of a command ends the script. -/
def isSpecial (name : String) : Bool :=
  (specialBuiltin? name).isSome || [".", "eval", "exec"].contains name

end ClassViewer.Shell
