import ClassViewer.Disk.Basic

/-!
# What is done to a disk in the meantime

Several may work on one disk at the same time. What one of them does is a list of changes with the
times they were made at; each works on a disk of its own, and the changes of the others are made to
it once their time has come.
-/

namespace ClassViewer.Disk

/-- What was done to a disk up to a time, by the disk before and after it. -/
structure Change where
  /-- The time, in nanoseconds since all of them began. -/
  time : Nat
  before : Disk
  after : Disk
  deriving DecidableEq

namespace Change

/-- The disk with the change made. -/
def apply (c : Change) (d : Disk) : Disk := d.withChanges c.before c.after

/-- The change a moment later. -/
def later (c : Change) : Change := { c with time := c.time + 1 }

/-- Puts a change among others in the order of their times; it comes behind those of its time, and
makes one change with them. -/
def insertInto (c : Change) : List Change → List Change
  | [] => [c]
  | e :: es =>
    if c.time < e.time then c :: e :: es
    else if c.time = e.time then { e with after := c.apply e.after } :: es
    else e :: insertInto c es

/-- Puts changes among others. -/
def insertAll (changes : List Change) (others : List Change) : List Change :=
  changes.foldl (fun es c => c.insertInto es) others

end Change

/-- What one of several who work on a disk knows of that. -/
structure Meanwhile where
  /-- The time up to which this one has come. -/
  now : Nat
  /-- The changes of others that are not yet seen, in the order of their times. -/
  others : List Change
  /-- The changes that were made here, the last one first. -/
  own : List Change
  /-- The disk as it was when the own changes were last taken note of. -/
  noted : Disk
  deriving Inhabited

namespace Meanwhile

/-- At the beginning nothing is seen of what others do. -/
def start (others : List Change) (d : Disk) : Meanwhile := ⟨0, others, [], d⟩

/-- The changes that were made here, up to a disk. -/
def changes (m : Meanwhile) (d : Disk) : List Change := ⟨m.now, m.noted, d⟩ :: m.own

/-- Goes on at a time: sees on a disk what others have done up to it. -/
def reach (m : Meanwhile) (time : Nat) (d : Disk) : Disk × Meanwhile :=
  let (due, rest) := m.others.span fun c => c.time ≤ time
  if time ≤ m.now && due.isEmpty then (d, m)
  else
    let seen := due.foldl (fun d c => c.apply d) d
    (seen, ⟨max m.now time, rest, m.changes d, seen⟩)

/-- The disk with everything seen that others do. -/
def settled (m : Meanwhile) (d : Disk) : Disk := m.others.foldl (fun d c => c.apply d) d

end Meanwhile

end ClassViewer.Disk
