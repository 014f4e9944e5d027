import ClassViewer.Text.Basic

/-!
# Arguments

Reading of arguments by a list of the options and operands that are understood. An option is written
`--name value` or `--name=value`, or by its letter as `-n value`, `-nvalue` or `-n=value`; letters
without a value can be written together, and `--` ends the options.

A value is taken note of when the argument behind it shows that it is complete (`Progress.settle`),
which decides which of two faults is found first.
-/

namespace ClassViewer.CommandLine

/-- Why arguments cannot be understood, or need not be. -/
inductive ArgumentError where
  | unknownArgument
  | invalidValue
  | argumentConflict
  | missingRequiredArgument
  | missingSubcommand
  | invalidSubcommand
  | tooManyValues
  | helpWanted
  | helpOnMissingSubcommand
  deriving DecidableEq, Repr

/-- What a value has to be. -/
inductive ValueKind where
  /-- Any text. -/
  | text
  /-- A path, which is not empty. -/
  | path
  /-- One of some words. -/
  | word (choices : List String)
  deriving DecidableEq, Repr

/-- Whether a text is a value of a kind. -/
def ValueKind.accepts : ValueKind → String → Bool
  | text, _ => true
  | path, s => s != ""
  | word choices, s => choices.contains s

/-- What an option does. -/
inductive Role where
  /-- It is given or not. -/
  | flag
  | help
  | valued (kind : ValueKind)
  deriving DecidableEq, Repr

/-- An option. -/
structure Switch where
  name : String
  letter : Option Char
  role : Role
  deriving DecidableEq, Repr

/-- The operands that are understood. -/
inductive Operands where
  | none
  | one (kind : ValueKind)
  | many (kind : ValueKind)
  deriving DecidableEq, Repr

/-- What is understood in one place: before a subcommand, or behind it. -/
structure Level where
  switches : List Switch
  operands : Operands
  subcommands : List String
  deriving DecidableEq, Repr

/-- A value whose end has not been seen: of an option, or an operand. -/
inductive Pending where
  | option (s : Switch) (values : List String)
  | operands (values : List String)
  deriving DecidableEq, Repr

/-- What was read so far. -/
structure Progress where
  /-- The options with their values. -/
  given : List (String × Option String)
  operands : List String
  pending : Option Pending
  /-- Whether the next argument is the value of the pending option. -/
  expecting : Bool
  /-- Whether options have ended. -/
  trailing : Bool
  deriving DecidableEq, Repr

namespace Progress

/-- Nothing was read. -/
def start : Progress := ⟨[], [], none, false, false⟩

/-- Takes note of an option. -/
def note (p : Progress) (s : Switch) (value : Option String) : Except ArgumentError Progress :=
  if (p.given.lookup s.name).isSome then .error .argumentConflict
  else match s.role, value with
    | .valued kind, some v =>
      if kind.accepts v then .ok { p with given := p.given ++ [(s.name, some v)] }
      else .error .invalidValue
    | .valued _, none => .error .invalidValue
    | _, _ => .ok { p with given := p.given ++ [(s.name, none)] }

/-- The kind of the operands of a level. -/
def operandKind : Operands → ValueKind
  | .none => .text
  | .one kind => kind
  | .many kind => kind

/-- Takes note of the pending value. -/
def settle (level : Level) (p : Progress) : Except ArgumentError Progress :=
  let rest := { p with pending := none, expecting := false }
  match p.pending with
  | none => .ok p
  | some (.option s []) => match s.role with
    | .valued _ => .error .invalidValue
    | _ => rest.note s none
  | some (.option s (v :: _)) => rest.note s (some v)
  | some (.operands vs) =>
    if vs.all (operandKind level.operands).accepts then
      .ok { rest with operands := p.operands ++ vs }
    else .error .invalidValue

/-- Reads an option that is written with or without a value. -/
def readSwitch (level : Level) (p : Progress) (s : Switch) (value : Option String) :
    Except ArgumentError Progress := do
  let p ← p.settle level
  match s.role, value with
  | .help, _ => .error .helpWanted
  | .flag, _ => p.note s none
  | .valued _, some v => p.note s (some v)
  | .valued _, none => .ok { p with pending := some (.option s []), expecting := true }

/-- Reads an argument that begins with two dashes, without them. -/
def readLong (level : Level) (p : Progress) (body : String) : Except ArgumentError Progress :=
  let (name, value) := match Text.split '=' body with
    | name :: v :: more => (name, some (Text.join "=" (v :: more)))
    | _ => (body, none)
  match level.switches.find? (·.name == name), value with
  | none, _ => .error .unknownArgument
  | some s, none => p.readSwitch level s none
  | some s, some v =>
    match s.role with
    | .valued _ => p.readSwitch level s (some v)
    | _ => .error .tooManyValues

/-- Reads the letters of an argument that begins with one dash. -/
def readLetters (level : Level) (p : Progress) : List Char → Except ArgumentError Progress
  | [] => .ok p
  | c :: rest =>
    match level.switches.find? (·.letter == some c) with
    | none => .error .unknownArgument
    | some s =>
      match s.role, rest with
      | .valued _, [] => p.readSwitch level s none
      | .valued _, '=' :: value => p.readSwitch level s (some (String.ofList value))
      | .valued _, value => p.readSwitch level s (some (String.ofList value))
      | _, rest => do readLetters level (← p.readSwitch level s none) rest

/-- Reads an operand. -/
def readOperand (level : Level) (p : Progress) (arg : String) : Except ArgumentError Progress :=
  let taken := match p.pending with
    | some (.operands vs) => p.operands ++ vs
    | _ => p.operands
  match level.operands, p.pending with
  | .none, _ =>
    if level.subcommands.isEmpty || (p.trailing && level.subcommands.contains arg) then
      .error .unknownArgument
    else .error .invalidSubcommand
  | .one _, _ =>
    if taken.isEmpty then do
      let p ← p.settle level
      .ok { p with pending := some (.operands [arg]) }
    else .error .unknownArgument
  | .many _, some (.operands vs) => .ok { p with pending := some (.operands (vs ++ [arg])) }
  | .many _, _ => do
    let p ← p.settle level
    .ok { p with pending := some (.operands [arg]) }

/-- Reads the value of the pending option. -/
def readValue (p : Progress) (arg : String) : Progress :=
  match p.pending with
  | some (.option s vs) => { p with pending := some (.option s (vs ++ [arg])), expecting := false }
  | _ => p

/-- Reads one argument that is no subcommand. -/
def read (level : Level) (p : Progress) (arg : String) : Except ArgumentError Progress :=
  if p.trailing then p.readOperand level arg
  else if arg = "--" then .ok { p with trailing := true }
  else match Text.dropHead? "--" arg, Text.dropHead? "-" arg with
    | some body, _ => p.readLong level body
    | none, some body =>
      if body = "" then
        if p.expecting then .ok (p.readValue arg) else p.readOperand level arg
      else p.readLetters level body.toList
    | none, none => if p.expecting then .ok (p.readValue arg) else p.readOperand level arg

end Progress

/-- What help is asked for: of a subcommand, or of none. -/
def helpOutcome (subcommands : List String) : List String → ArgumentError
  | [] => .helpWanted
  | [name] => if subcommands.contains name then .helpWanted else .invalidSubcommand
  | _ => .invalidSubcommand

/-- The word that asks for help. -/
def helpWord : String := "help"

/-- Reads arguments up to a subcommand: what was read, and the subcommand with the arguments behind
it. A value right before a subcommand is still pending then. -/
def readLevel (level : Level) (p : Progress) :
    List String → Except ArgumentError (Progress × Option (String × List String))
  | [] => do return (← p.settle level, none)
  | arg :: rest =>
    if !p.trailing && !p.expecting && level.subcommands.contains arg then
      if arg = helpWord then .error (helpOutcome level.subcommands rest)
      else .ok (p, some (arg, rest))
    else do readLevel level (← p.read level arg) rest

end ClassViewer.CommandLine
