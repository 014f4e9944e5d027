import ClassViewer.Disk.Files
import ClassViewer.Disk.Meanwhile
import ClassViewer.Shell.Script
import ClassViewer.Shell.Signal
import ClassViewer.Text.Octets

/-!
# Shell sessions

The state of a running script: the disk it works on, the directory it is in, its variables and
arguments, and where its streams lead. A script knows bytes only, so every text in a session has one
character for each byte (`Text.Octets`); names are turned into characters where they meet the disk.

Streams are numbers that lead to channels. Two numbers that lead to one channel share its position,
as after a duplication.
-/

namespace ClassViewer.Shell

/-- What a stream leads to. -/
inductive Channel where
  /-- Bytes that are collected. -/
  | collected (bytes : ByteArray)
  /-- Bytes that are still to be read. -/
  | supply (bytes : ByteArray)
  /-- A place in a file; what is written goes there, or always to the end. -/
  | file (route : Route) (position : Nat) (atEnd : Bool)
  | device (d : Device)

/-- What becomes of a script after a command. -/
inductive Flow where
  | next
  | stop (status : ExitStatus)
  /-- An error ends it, unless a command stands in between whose errors do not. -/
  | fail
  | leaveLoop (levels : Nat)
  | nextRound (levels : Nat)
  | leaveFunction
  deriving DecidableEq, Repr

/-- What a process has for itself. -/
structure Process where
  here : Route
  /-- The path by which the script came to its directory. -/
  place : String
  /-- The name of the script. -/
  name : String
  /-- The arguments. -/
  parameters : List String
  /-- The values of variables. -/
  bindings : List (String × String)
  /-- The variables that are handed to other programs. -/
  exported : List String
  /-- The variables that keep their values. -/
  fixed : List String
  functions : List (String × Command)
  /-- The words that stand for texts at the beginning of a command, in the order they were made. -/
  aliases : List (String × String)
  /-- The commands whose files were found before. -/
  tracked : List String
  /-- The permissions that new files are not given. -/
  mask : Nat
  /-- What the variables that are local to the running function were before it, if one runs. -/
  shadowed : Option (List (String × Option String))
  /-- The number of the process. -/
  pid : Nat
  /-- The line of the command that runs. -/
  line : Nat
  /-- The line that is read next. -/
  reached : Nat
  /-- The command of the shell itself that runs. -/
  speaker : Option String
  /-- The program that runs, and the name it was called by. -/
  called : Option (String × String)
  /-- The status of the last command. -/
  status : Nat
  /-- The status of the last command in a word of the command that runs. -/
  captured : Option Nat
  /-- The channels that streams lead to. -/
  streams : List (Nat × Nat)
  flow : Flow
  /-- The letters of the options that are set. -/
  options : List Char
  /-- Whether a failing command is being asked about, so that it ends nothing. -/
  asked : Bool
  /-- How many loops are around the command that runs. -/
  loops : Nat
  /-- What is done on signals; an empty text passes over the signal. -/
  traps : List (Nat × String)
  /-- Whether the process is a copy of that of the script. -/
  copied : Bool
  /-- The processes that were left to run by themselves and not waited for. -/
  besides : List Nat
  /-- The ended processes that were waited for and are still known. -/
  awaited : List Nat
  /-- The last process that was left to run by itself. -/
  lastBeside : Option Nat
  /-- How many letters of the argument whose options are being read were read. -/
  lettersRead : Nat

/-- A process that was left to run by itself and sleeps. -/
structure Sleeper where
  /-- The number it is known by. -/
  number : Nat
  /-- When it wakes up. -/
  wake : Nat
  process : Process
  /-- What it does then. -/
  rest : Command
  /-- How much of the time that takes has passed already then. -/
  ahead : Nat
  /-- The signals it sees to when it wakes up. -/
  signals : List Nat

/-- The state of a script: the process that runs, and what it shares with others. -/
structure Session extends Process where
  disk : Disk
  /-- What is done to the disk in the meantime by others than the script. -/
  meanwhile : Disk.Meanwhile
  channels : List Channel
  /-- The signals that were sent and not yet seen, with the processes they are for. -/
  pending : List (Nat × Nat)
  /-- The time, in nanoseconds. -/
  clock : Nat
  /-- How much of the time that the running process lets pass has passed already. -/
  ahead : Nat
  sleepers : List Sleeper
  /-- The last number that was given to a process that runs by itself. -/
  lastNumber : Nat
  /-- The last number that was given when the running process began or woke up. -/
  since : Nat
  /-- The statuses of ended processes that were left to run by themselves. -/
  ended : List (Nat × ExitStatus)
  /-- Why something that the running program wrote to its output was lost. -/
  lost : Option OsError
  /-- How much longer the running program may take, if that is bounded. -/
  left : Option Nat
  /-- Whether it takes longer than that, so that nothing more of it is run. -/
  expired : Bool

/-- A computation of a script; nothing comes of one that does not end within its bound. -/
abbrev SessionM := StateT Session Option

/-- The path a text names. -/
def pathOf (s : String) : Path := ⟨Text.Octets.toText s⟩

/-- The message of an error without its number. -/
def reason (e : IoError) : String :=
  match e with
  | .os e => e.description
  | e => e.message

namespace Session

/-! ## Variables -/

/-- The value of a variable. -/
def valueOf (s : Session) (name : String) : Option String := s.bindings.lookup name

/-- Where programs are looked for. -/
def searchPath (s : Session) : String := (s.valueOf "PATH").getD ""

/-- Whether an option is set. -/
def hasOption (s : Session) (letter : Char) : Bool := s.options.contains letter

/-- Gives a variable a value, or takes it away. -/
def restore (name : String) (value : Option String) : SessionM Unit :=
  modify fun s => { s with
    bindings := (value.map fun v => (name, v)).toList ++ s.bindings.filter (·.1 != name) }

/-- Hands a variable to other programs. -/
def handOn (name : String) : SessionM Unit :=
  modify fun s => { s with exported := name :: s.exported.filter (· != name) }

/-- The variables handed to other programs. -/
def environment (s : Session) : List (String × String) :=
  s.bindings.filter fun v => s.exported.contains v.1

/-! ## Flow -/

/-- Sets the status of the last command. -/
def setStatus (n : Nat) : SessionM Unit := modify fun s => { s with status := n }

/-- Changes what becomes of the script. -/
def setFlow (f : Flow) : SessionM Unit := modify fun s => { s with flow := f }

/-- Whether the script goes on with its next command. -/
def goesOn : SessionM Bool := do
  let s ← get
  return s.flow == .next && !s.expired

/-- Runs something whose failure is only asked about. -/
def asking (f : SessionM Unit) : SessionM Unit := do
  let before := (← get).asked
  modify fun s => { s with asked := true }
  f
  modify fun s => { s with asked := before }

/-- Whether a loop goes on after a round, once what its body asked for is taken note of. -/
def endOfRound : SessionM Bool := do
  match (← get).flow with
  | .next => return !(← get).expired
  | .leaveLoop n =>
    setFlow (if n ≤ 1 then .next else .leaveLoop (n - 1))
    return false
  | .nextRound n =>
    setFlow (if n ≤ 1 then .next else .nextRound (n - 1))
    return n ≤ 1
  | _ => return false

/-! ## Channels -/

/-- The channel a stream leads to. -/
def channel? (s : Session) (fd : Nat) : Option Channel :=
  match s.streams.lookup fd with
  | some i => s.channels[i]?
  | none => none

/-- The bytes with others put at a place; a gap before it is filled with zeros. -/
def overwrite (old : ByteArray) (position : Nat) (bytes : ByteArray) : ByteArray :=
  let before := old.extract 0 position
  let gap : ByteArray := ⟨Array.replicate (position - old.size) 0⟩
  before ++ gap ++ bytes ++ old.extract (position + bytes.size) old.size

/-- The bytes of a file. -/
def fileBytes (d : Disk) (r : Route) : ByteArray :=
  match d.item? r with
  | some (.file bytes _) => bytes
  | _ => ByteArray.empty

/-- Writes to the stream of that number; whether it could. -/
def emit (fd : Nat) (bytes : ByteArray) : SessionM Bool := do
  let s ← get
  let lose (e : OsError) : SessionM Bool := do
    if fd = 1 then set { s with lost := some e }
    return false
  match if bytes.isEmpty then none else some (s.streams.lookup fd) with
  | none => return true
  | some none => lose .badDescriptor
  | some (some i) =>
    match s.channels[i]? with
    | some (.collected _) =>
      modify fun s => { s with channels := s.channels.modify i fun c => match c with
        | .collected old => .collected (old ++ bytes)
        | c => c }
      return true
    | some (.file r position atEnd) =>
      match s.disk.item? r with
      | some (.file old runners) =>
        let place := if atEnd then old.size else position
        set { s with
          disk := s.disk.alter r (.file (overwrite old place bytes) runners)
          channels := s.channels.set i (.file r (place + bytes.size) atEnd) }
        return true
      | some (.pipe held) =>
        set { s with disk := s.disk.alter r (.pipe (held ++ bytes)) }
        return true
      | _ => return true
    | some (.device d) =>
      match Disk.writeDevice d bytes with
      | .ok () => return true
      | .error _ => lose .noSpace
    | _ => lose .badDescriptor

/-- Writes text to the standard output. -/
def say (text : String) : SessionM Unit := do
  let _ ← emit 1 (Text.Octets.toBytes text)

/-- Programs that give advice under their own names. -/
def ownAdvisers : List String := ["grep", "rev"]

/-- A message of a program under the name it was called by. -/
def underName (called : Option (String × String)) (text : String) : String :=
  match called with
  | none => text
  | some (tool, name) =>
    let advice (n : String) : String := "Try '" ++ n ++ " --help'"
    let renamed (line : String) : String :=
      let line := match Text.dropHead? (tool ++ ": ") line with
        | some rest => name ++ ": " ++ rest
        | none => line
      if ownAdvisers.contains tool then line
      else Text.join (advice name) (line.splitOn (advice tool))
    Text.join "\n" ((Text.split '\n' text).map renamed)

/-- Writes a line to the standard error. -/
def complain (text : String) : SessionM Unit := do
  let text := underName (← get).called text
  let _ ← emit 2 (Text.Octets.toBytes (text ++ "\n"))

/-- Writes a message of the shell itself: the script, the line and the command come first. -/
def complainHere (text : String) : SessionM Unit := do
  let s ← get
  let speaker := match s.speaker with
    | some name => name ++ ": "
    | none => ""
  complain (s.name ++ ": " ++ toString s.line ++ ": " ++ speaker ++ text)

/-- Reports an error that ends the script. -/
def refuse (text : String) : SessionM Unit := do
  complainHere text
  setStatus 2
  setFlow .fail

/-- How many bytes are read of what has no end: more than a script that ends needs. -/
def endless : Nat := 262144

/-- So many bytes of a special file. -/
def deviceBytes (d : Device) (count : Nat) : ByteArray :=
  if d = .zero ∨ d = .full ∨ d = .random then ⟨Array.replicate count 0⟩ else ByteArray.empty

/-- What is left to be read of a stream. -/
def remaining (fd : Nat) : SessionM ByteArray := do
  let s ← get
  match s.channel? fd with
  | some (.supply bytes) => return bytes
  | some (.file r position _) =>
    let bytes := fileBytes s.disk r
    return bytes.extract position bytes.size
  | some (.device d) => return deviceBytes d endless
  | _ => return ByteArray.empty

/-- Passes over bytes of a stream. -/
def advance (fd n : Nat) : SessionM Unit := do
  let s ← get
  match s.streams.lookup fd with
  | none => return ()
  | some i =>
    set { s with channels := s.channels.modify i fun c => match c with
      | .supply bytes => .supply (bytes.extract n bytes.size)
      | .file r position atEnd => .file r (position + n) atEnd
      | c => c }

/-- Takes all that is left of the standard input. -/
def takeInput : SessionM ByteArray := do
  let bytes ← remaining 0
  advance 0 bytes.size
  return bytes

/-- Leads a stream to a channel. -/
def lead (fd : Nat) (c : Channel) : SessionM Unit :=
  modify fun s => { s with
    streams := (fd, s.channels.length) :: s.streams.filter (·.1 != fd)
    channels := s.channels ++ [c] }

/-- Leads a stream to where another one leads, or nowhere. -/
def leadLike (fd : Nat) (other : Option Nat) : SessionM Unit :=
  modify fun s => { s with
    streams := (other.map fun i => (fd, i)).toList ++ s.streams.filter (·.1 != fd) }

/-- The channels without those from that number on to which no stream of a process that sleeps
leads. -/
def keptChannels (s : Session) (length : Nat) : List Channel :=
  let held := s.sleepers.flatMap fun p => p.process.streams.map (·.2 + 1)
  s.channels.take (held.foldl max length)

/-- Forgets the channels from that number on if no stream leads to them. -/
def forget (length : Nat) : SessionM Unit :=
  modify fun s =>
    if s.streams.all fun e => e.2 < length then { s with channels := s.keptChannels length } else s

/-- Leads streams back to where they led before. -/
def leadBack (before : Session) (fds : List Nat) : SessionM Unit := do
  fds.forM fun fd => leadLike fd (before.streams.lookup fd)
  forget before.channels.length

/-- Runs a computation whose output is collected, and gives what it wrote. -/
def collecting (f : SessionM Unit) : SessionM ByteArray := do
  let s ← get
  let i := s.channels.length
  lead 1 (.collected ByteArray.empty)
  f
  let t ← get
  leadBack s [1]
  match t.channels[i]? with
  | some (.collected bytes) => return bytes
  | _ => return ByteArray.empty

/-- The session at a time, with what others have done to the disk up to it. -/
def atTime (s : Session) (time : Nat) : Session :=
  let (disk, meanwhile) := s.meanwhile.reach time s.disk
  { s with clock := time, disk := disk, meanwhile := meanwhile }

/-- Lets time pass, as much as may. -/
def pass (time : Nat) : SessionM Unit :=
  modify fun s =>
    let allowed := min time (s.left.getD time)
    { s.atTime (s.clock + (allowed - s.ahead)) with
      ahead := s.ahead - allowed
      left := s.left.map (· - allowed), expired := s.expired || allowed < time }

/-- How much time passed for the running process since a session. -/
def passedSince (before s : Session) : Nat :=
  (s.clock + before.ahead) - (before.clock + s.ahead)

/-- Makes a change to the disk, or none if it fails. -/
def change (f : Disk → Route → Except IoError Disk) : SessionM (Except IoError Unit) := do
  let s ← get
  match f s.disk s.here with
  | .ok d =>
    set { s with disk := d }
    return .ok ()
  | .error e => return .error e

end Session

end ClassViewer.Shell
