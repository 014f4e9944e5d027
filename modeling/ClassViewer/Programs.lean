import ClassViewer.Disk.Meanwhile
import ClassViewer.Process

/-!
# Programs

How a machine starts programs, and what can come of that. Nothing is said of what the programs do :
whatever is proved of runs of them holds for all.
-/

namespace ClassViewer

/-- What a program does once it is started, on a disk that others may work on, in a directory, with
environment variables and a process number : how it ends and what it writes, the disk after it, and
what is known then of the others. Nothing comes of a program that never ends. -/
abbrev Started :=
  Disk → Disk.Meanwhile → Route → List (String × String) → Nat →
    Option (Finished × Disk × Disk.Meanwhile)

/-- The programs of a machine. -/
structure Programs where
  /-- Starts the program of a name from a directory, with the path it is looked for on and its
  arguments. -/
  start : Disk → Route → String → String → List String → Except IoError Started

/-- Where there are no programs, none is found. -/
instance : Inhabited Programs := ⟨⟨fun _ _ _ _ _ => .error (.os .noEntry)⟩⟩

end ClassViewer
