import ClassViewer.Shell.Session

/-!
# Options and messages of utilities

What the programs a script can call have in common: how they read their options, how they write
names in messages, and how they come to the bytes of files.
-/

namespace ClassViewer.Shell

open Session

/-- A program: given its arguments, it gives a status. -/
abbrev Utility := List String → SessionM Nat

/-! ## Names in messages -/

/-- Whether a byte is written as an escape. -/
def isUnprintable (c : Char) : Bool := c.toNat < 32 || 126 < c.toNat

/-- The escape of a byte. -/
def escapeOf (c : Char) : String :=
  match c with
  | '\n' => "\\n"
  | '\t' => "\\t"
  | '\r' => "\\r"
  | c =>
    if c.toNat = 7 then "\\a"
    else if c.toNat = 8 then "\\b"
    else if c.toNat = 11 then "\\v"
    else if c.toNat = 12 then "\\f"
    else
      let digits := Nat.toDigits 8 c.toNat
      "\\" ++ String.ofList (List.replicate (3 - digits.length) '0' ++ digits)

def apostrophe : Char := Char.ofNat 39

/-- A text between apostrophes as it is. -/
def between (text : String) : String := "'" ++ text ++ "'"

/-- The rest of a name between apostrophes: bytes that cannot be printed stand in escapes, outside
of them. -/
def quotedRest (inEscape : Bool) : List Char → String
  | [] => "'"
  | c :: cs =>
    if isUnprintable c then
      (if inEscape then "" else "'$'") ++ escapeOf c ++ quotedRest true cs
    else if c = apostrophe then "'\\''" ++ quotedRest false cs
    else (if inEscape then "''" else "") ++ String.singleton c ++ quotedRest false cs

/-- A name between apostrophes as the shell would read it, or between quotation marks if it holds an
apostrophe and nothing that quotation marks do not hide. A name with an apostrophe is gone through
twice, and the second time begins as the first has ended, in an escape or not. -/
def quoted (name : String) : String :=
  let cs := name.toList
  let isApostrophed := cs.contains apostrophe
  if isApostrophed && !cs.any isUnprintable &&
      !cs.any fun c => c == '"' || c == '$' || c == '\\' || c == '!' || c.toNat == 96 then
    "\"" ++ name ++ "\""
  else "'" ++ quotedRest (isApostrophed && cs.getLast?.any isUnprintable) cs

/-- A text between apostrophes, with escapes for apostrophes, backslashes and bytes that cannot be
printed. -/
def cited (text : String) : String :=
  let shown (c : Char) : String :=
    if isUnprintable c then escapeOf c
    else if c = apostrophe || c = '\\' then String.ofList ['\\', c]
    else String.singleton c
  between (Text.join "" (text.toList.map shown))

/-- Whether a name has to be quoted where others are not. -/
def needsQuotes (name : String) : Bool :=
  let special := " !\"$&'()*;<=>?[\\^|".toList
  let cs := name.toList
  cs.isEmpty || cs.any (fun c => special.contains c || isUnprintable c || c.toNat == 96) ||
    cs == ['\x7b'] || cs == ['\x7d'] || cs.head?.any fun c => c == '#' || c == '~'

/-- A name, quoted only if it has to be. -/
def shownName (name : String) : String := if needsQuotes name then quoted name else name

/-! ## Options -/

/-- The options and the other arguments of a program. -/
structure Given where
  options : List (Char × String)
  operands : List String

/-- Whether an option is given. -/
def Given.has (g : Given) (letter : Char) : Bool := g.options.any (·.1 == letter)

/-- The value of an option that is given last. -/
def Given.value? (g : Given) (letter : Char) : Option String := (g.options.reverse.lookup letter)

/-- The values of an option in order. -/
def Given.values (g : Given) (letter : Char) : List String :=
  (g.options.filter (·.1 == letter)).map (·.2)

/-- Reads the letters of one argument: the options, and what is wrong; a letter of `valued` takes
the rest, or none if there is none. -/
def readLetters (plain valued : String) :
    List Char → List (Char × String) × Option (Except Char Char)
  | [] => ([], none)
  | c :: cs =>
    if Text.holds c valued then
      if cs.isEmpty then ([], some (.ok c)) else ([(c, String.ofList cs)], none)
    else if Text.holds c plain then
      let (more, rest) := readLetters plain valued cs
      ((c, "") :: more, rest)
    else ([], some (.error c))

/-- The line that ends a message on wrong usage. -/
def hint (tool : String) : String := "Try '" ++ tool ++ " --help' for more information."

/-- What follows a message on wrong usage. -/
def advice (tool : String) : String :=
  match tool with
  | "cmp" => "cmp: " ++ hint tool
  | "grep" => "Usage: grep [OPTION]... PATTERNS [FILE]...\n" ++ hint tool
  | tool => hint tool

/-- Reads options wherever they stand, up to `--`. Letters of `plain` stand alone, letters of
`valued` take a value; `long` gives the letters of long options. -/
def readOptions (tool plain valued : String) (long : List (String × Char)) :
    List String → Except String Given
  | [] => .ok ⟨[], []⟩
  | "--" :: rest => .ok ⟨[], rest⟩
  | "-" :: rest => do
    let g ← readOptions tool plain valued long rest
    return { g with operands := "-" :: g.operands }
  | a :: rest =>
    match Text.dropHead? "--" a, Text.dropHead? "-" a with
    | some name, _ =>
      let (name, value) := match Text.split '=' name with
        | name :: value :: more => (name, some (Text.join "=" (value :: more)))
        | _ => (name, none)
      let exactly : List (String × Char) := long.filter fun o => o.1 == name
      let known : List (String × Char) :=
        if exactly.isEmpty then long.filter fun o => Text.startsWith name o.1 else exactly
      match known, value, rest with
      | [(_, letter)], none, next :: more =>
        if Text.holds letter valued then do
          let g ← readOptions tool plain valued long more
          return { g with options := (letter, next) :: g.options }
        else do
          let g ← readOptions tool plain valued long (next :: more)
          return { g with options := (letter, "") :: g.options }
      | [(name, letter)], none, [] =>
        if Text.holds letter valued then
          .error (tool ++ ": option '--" ++ name ++ "' requires an argument\n" ++ advice tool)
        else .ok ⟨[(letter, "")], []⟩
      | [(name, letter)], some value, rest =>
        if Text.holds letter valued then do
          let g ← readOptions tool plain valued long rest
          return { g with options := (letter, value) :: g.options }
        else
          .error (tool ++ ": option '--" ++ name ++ "' doesn't allow an argument\n" ++ advice tool)
      | [], _, _ => .error (tool ++ ": unrecognized option '" ++ a ++ "'\n" ++ advice tool)
      | several, _, _ =>
        let names := several.map fun o => " '--" ++ o.1 ++ "'"
        .error (tool ++ ": option '" ++ a ++ "' is ambiguous; possibilities:" ++
          Text.join "" names ++ "\n" ++ advice tool)
    | none, some letters =>
      match readLetters plain valued letters.toList with
      | (found, none) => do
        let g ← readOptions tool plain valued long rest
        return { g with options := found ++ g.options }
      | (found, some (.ok letter)) =>
        match rest with
        | value :: rest => do
          let g ← readOptions tool plain valued long rest
          return { g with options := found ++ (letter, value) :: g.options }
        | [] => .error (tool ++ ": option requires an argument -- '" ++ String.singleton letter ++
            "'\n" ++ advice tool)
      | (_, some (.error letter)) =>
        .error (tool ++ ": invalid option -- '" ++ String.singleton letter ++ "'\n" ++ advice tool)
    | none, none => do
      let g ← readOptions tool plain valued long rest
      return { g with operands := a :: g.operands }

/-- A program with options; wrong ones are reported with the status `wrong`. -/
def withOptions (tool plain valued : String) (long : List (String × Char)) (wrong : Nat)
    (f : Given → SessionM Nat) : Utility := fun args => do
  match readOptions tool plain valued long args with
  | .ok g => f g
  | .error message =>
    complain message
    return wrong

/-- The letters among arguments that are no options; `isValue` says whether the first argument is
the value of an option. -/
def wrongLetters (plain valued : String) (isValue : Bool) : List String → List Char
  | [] => []
  | a :: rest =>
    match isValue || Text.startsWith "--" a, a.toList with
    | false, '-' :: letters =>
      let read := letters.takeWhile fun c => !Text.holds c valued
      read.filter (fun c => !Text.holds c plain) ++
        wrongLetters plain valued (read.length + 1 = letters.length) rest
    | _, _ => if a = "--" && !isValue then [] else wrongLetters plain valued false rest

/-- A program with options that reports every wrong letter. -/
def withAllOptions (tool plain valued : String) (long : List (String × Char)) (wrong : Nat)
    (f : Given → SessionM Nat) : Utility := fun args => do
  match wrongLetters plain valued false args with
  | [] => withOptions tool plain valued long wrong f args
  | letters =>
    letters.forM fun c => complain (tool ++ ": invalid option -- " ++ between (String.singleton c))
    complain (advice tool)
    return wrong

/-- Reports wrong usage. -/
def misuse (tool message : String) (status : Nat) : SessionM Nat := do
  complain (tool ++ ": " ++ message ++ "\n" ++ advice tool)
  return status

/-! ## Outcomes -/

/-- Does something for every argument, and gives the worst status. -/
def forAll (args : List String) (f : String → SessionM Nat) : SessionM Nat := do
  let statuses ← args.mapM f
  return statuses.foldl max 0

/-- Reports a failed change under the words of a program. -/
def report (words : String) : Except IoError Unit → SessionM Nat
  | .ok () => return 0
  | .error e => do
    complain (words ++ ": " ++ reason e)
    return 1

/-! ## Contents -/

/-- Whether the standard input is a directory. -/
def readsDirectory : SessionM Bool := do
  let s ← get
  return match s.channel? 0 with
    | some (.file r _ _) => s.disk.item? r == some .directory
    | _ => false

/-- What is left of the standard input. -/
def inputText : SessionM (Except IoError String) := do
  if ← readsDirectory then return .error (.os .isADirectory)
  else return .ok (Text.Octets.ofBytes (← takeInput))

/-- The bytes of a file, or of the standard input for `-`; of what has no end, so many as are
needed. -/
def contentUpTo (needed : Nat) (name : String) : SessionM (Except IoError String) := do
  if name = "-" then inputText
  else
    let s ← get
    match s.disk.lookup s.here true (pathOf name) with
    | .ok (_, .device (.stream 0)) => inputText
    | .ok (_, .device d) =>
      return (Disk.checkDevice d).map fun _ => Text.Octets.ofBytes (deviceBytes d needed)
    | .ok (r, .pipe held) =>
      set { s with disk := s.disk.alter r (.pipe ByteArray.empty) }
      return .ok (Text.Octets.ofBytes held)
    | _ => return (s.disk.read s.here (pathOf name)).map Text.Octets.ofBytes

/-- The bytes of a file, or of the standard input for `-`. -/
def contentOf (name : String) : SessionM (Except IoError String) := contentUpTo endless name

/-- The same, with a failure reported. -/
def content (tool name : String) : SessionM (Option String) := do
  match ← contentOf name with
  | .ok text => return some text
  | .error e =>
    complain (tool ++ ": " ++ shownName name ++ ": " ++ reason e)
    return none

/-- The contents of all files, or of the standard input if there is none, and the status. -/
def contents (tool : String) (names : List String) : SessionM (List String × Nat) := do
  let parts ← (if names.isEmpty then ["-"] else names).mapM (content tool)
  return (parts.filterMap id, if parts.contains none then 1 else 0)

/-! ## Lines -/

/-- The lines of a text; a final line end ends the last line. -/
def linesOf (text : String) : List String :=
  let ps := Text.split '\n' text
  if ps.getLast? = some "" then ps.dropLast else ps

/-- Whether the last line of a text is ended. -/
def isEnded (text : String) : Bool := text.toList.getLast?.all (· == '\n')

/-- The text of lines, each ended. -/
def ofLines (lines : List String) : String := Text.join "" (lines.map (· ++ "\n"))

end ClassViewer.Shell
