import ClassViewer.Error
import ClassViewer.Host

/-!
# Scratch directories

A directory for the files of one run of a tool. What is written to it stays inside of it, and it is
removed when the run is over.
-/

namespace ClassViewer

/-- A scratch directory. -/
structure Scratch where
  root : Path
  deriving DecidableEq, Repr

namespace Scratch

/-- The name of a scratch directory. -/
def name (label : String) (process clock count : Nat) : String :=
  "class-lens-" ++ label ++ "-" ++
    Text.join "-" [toString process, toString clock, toString count]

/-- Makes a new scratch directory. -/
def create (label : String) : HostM (Except Failure Scratch) := do
  let h ← get
  let root := h.temporary.join ⟨name label h.process h.clock h.scratchCount⟩
  set { h with scratchCount := h.scratchCount + 1 }
  match ← Host.makeDirectories root with
  | .ok () => return .ok ⟨root⟩
  | .error e =>
    return .error ((Failure.ofIo e).inContext ("Failed to create scratch dir: " ++ root.text))

/-- Whether a component keeps a path where it is or leads it down. -/
def staysInside : Path.Component → Bool
  | .name _ => true
  | .current => true
  | .root => false
  | .parent => false

/-- The path of a file in the directory, if it stays inside of it. -/
def place (s : Scratch) (relative : String) : Except Failure Path :=
  let inner : Path := ⟨Text.dropLeading '/' relative⟩
  if inner.components.all staysInside then .ok (s.root.join inner)
  else
    .error (.ofMessage ("Refusing scratch path outside " ++ s.root.text ++ ": " ++ inner.text))

/-- Writes a file in the directory, making those above it. -/
def write (s : Scratch) (relative : String) (bytes : ByteArray) : HostM (Except Failure Path) := do
  match s.place relative with
  | .error f => return .error f
  | .ok p =>
    let above ← match p.parent? with
      | some above => Host.makeDirectories above
      | none => pure (.ok ())
    match above with
    | .error e => return .error (.ofIo e)
    | .ok () =>
      match ← Host.write p bytes with
      | .ok () => return .ok p
      | .error e =>
        return .error ((Failure.ofIo e).inContext ("Failed to write scratch file: " ++ p.text))

/-- Removes the directory with everything in it. What took its place in the meantime stays, unless
it is a directory or a link. -/
def remove (s : Scratch) : HostM Unit := do
  let _ ← Host.removeTree s.root

/-- Runs something with a scratch directory of its own, which is removed whatever comes of it. -/
def within {α : Type} (label : String) (f : Scratch → HostM (Except Failure α)) :
    HostM (Except Failure α) := do
  match ← create label with
  | .error e => return .error e
  | .ok s =>
    let r ← f s
    s.remove
    return r

end Scratch

end ClassViewer
