import ClassViewer.Preferences.Space
import ClassViewer.Shell.Run
import ClassViewer.Text.Json

/-!
# The machine

Everything outside the program that it can see or change: the disk, the other programs, the
directory it runs in, its environment variables, and what it holds open. A computation of type
`HostM α` gives an `α` and the machine after it.
-/

namespace ClassViewer

/-- A table of keys and values. -/
abbrev Table := List (String × String)

/-- The table with a value stored under a key. -/
def Table.put (t : Table) (key value : String) : Table := (key, value) :: t.filter (·.1 != key)

/-- What a database contains. -/
structure Stored where
  /-- The values by their keys. -/
  table : Table
  /-- The key and the size of every write, the last one first. -/
  writes : List (String × Nat)
  /-- The pages as the writes have left them. -/
  space : Database.Space

/-- The state of the machine. -/
structure Host where
  /-- The files and directories. -/
  disk : Disk
  /-- What is done to the disk in the meantime, if others work on it. -/
  meanwhile : Option Disk.Meanwhile
  /-- The directory that relative paths start in. -/
  here : Route
  /-- The environment variables. -/
  environment : Table
  /-- The home directory of the account that the process runs under. -/
  accountHome : Option Path
  /-- The number of the running process. -/
  process : Nat
  /-- The time, in nanoseconds. -/
  clock : Nat
  /-- How many scratch directories the process has made. -/
  scratchCount : Nat
  /-- The tables of preference stores in memory. -/
  tables : List Table
  /-- The databases the process holds open, with what they contain. -/
  databases : List (Route × Stored)
  /-- Notes left by whoever watches a back end, in order. -/
  journal : List Json
  /-- What the process has written to its standard output. -/
  stdout : ByteArray
  /-- What the process has written to its standard error. -/
  stderr : ByteArray
  /-- The programs that can be started; scripts and utilities unless something else is said. -/
  programs : Programs := Shell.programs
  deriving Inhabited

/-- A computation on the machine. -/
abbrev HostM := StateM Host

namespace Host

/-- The value of an environment variable. -/
def envValue (h : Host) (name : String) : Option String := h.environment.lookup name

def isFile (h : Host) (p : Path) : Bool := h.disk.isFile h.here p

def isDirectory (h : Host) (p : Path) : Bool := h.disk.isDirectory h.here p

def leads (h : Host) (p : Path) : Bool := h.disk.leads h.here p

def read (h : Host) (p : Path) : Except IoError ByteArray := h.disk.read h.here p

def readText (h : Host) (p : Path) : Except IoError String := h.disk.readText h.here p

def readMapped (h : Host) (p : Path) : Except IoError ByteArray := h.disk.readMapped h.here p

def canonical (h : Host) (p : Path) : Except IoError Route := h.disk.canonical h.here p

def list (h : Host) (p : Path) : Except IoError (List String) := h.disk.list h.here p

/-- The directory for temporary files. -/
def temporary (h : Host) : Path := ⟨(h.envValue "TMPDIR").getD "/tmp"⟩

/-- Makes a change to the disk, or none if it fails. -/
def change (f : Disk → Route → Except IoError Disk) : HostM (Except IoError Unit) := do
  let h ← get
  match f h.disk h.here with
  | .ok d =>
    set { h with disk := d }
    return .ok ()
  | .error e => return .error e

/-- What is known of others who work on the disk; nothing if nobody does. -/
def surroundings (h : Host) : Disk.Meanwhile := h.meanwhile.getD (.start [] h.disk)

/-- The machine with another disk, and what is known of others who work on it if somebody does. -/
def withDisk (h : Host) (d : Disk) (m : Disk.Meanwhile) : Host :=
  { h with disk := d, meanwhile := h.meanwhile.map fun _ => m }

/-- Sees what others have done to the disk up to now. -/
def catchUp : HostM Unit :=
  modify fun h =>
    let m := h.surroundings
    let (d, m) := m.reach m.now h.disk
    h.withDisk d m

/-- Begins to work on the disk while others do. -/
def beginBeside (others : List Disk.Change) : HostM Unit :=
  modify fun h => { h with meanwhile := some (.start others h.disk) }

/-- Sees everything that others do to the disk, and gives what was done to it here. -/
def settle : HostM (List Disk.Change) := do
  let h ← get
  let m := h.surroundings
  set { h with disk := m.settled h.disk, meanwhile := none }
  return (m.changes h.disk).reverse

/-- Writes a file; what is written to a stream of the process is added to it. -/
def write (p : Path) (bytes : ByteArray) : HostM (Except IoError Unit) := do
  let h ← get
  match h.disk.lookup h.here true p with
  | .ok (_, .device (.stream n)) =>
    set { h with
      stdout := if n = 1 then h.stdout ++ bytes else h.stdout
      stderr := if n = 2 then h.stderr ++ bytes else h.stderr }
    return .ok ()
  | _ => change fun d here => d.write here p bytes

/-- Makes a directory and those above it that are missing; those made before a failure stay. -/
def makeDirectories (p : Path) : HostM (Except IoError Unit) := do
  let h ← get
  let (outcome, d) := h.disk.makeDirectories h.here p
  set { h with disk := d }
  return outcome

def removeFile (p : Path) : HostM (Except IoError Unit) :=
  change fun d here => d.removeFile here p

def removeAll (p : Path) : HostM (Except IoError Unit) :=
  change fun d here => d.removeAll here p

def removeTree (p : Path) : HostM (Except IoError Unit) :=
  change fun d here => d.removeTree here p

/-- Writes text to the standard output. -/
def print (text : String) : HostM Unit :=
  modify fun h => { h with stdout := h.stdout ++ text.toUTF8 }

/-- Writes text to the standard error. -/
def printError (text : String) : HostM Unit :=
  modify fun h => { h with stderr := h.stderr ++ text.toUTF8 }

/-- Leaves a note in the journal. -/
def note (j : Json) : HostM Unit := modify fun h => { h with journal := h.journal ++ [j] }

end Host

end ClassViewer
