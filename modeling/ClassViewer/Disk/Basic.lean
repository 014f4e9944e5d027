import ClassViewer.IoError
import ClassViewer.Path
import ClassViewer.Text.ByteString

/-!
# Disks

A disk holds files, directories, links and special files at routes from its root. `Disk.resolve`
follows a path segment by segment: names are looked up, `.` stays, `..` climbs, links lead on from
where they lie, and the end of the path is either found or a vacant name in an existing directory.
-/

namespace ClassViewer

/-- The names that lead from the root to a place. -/
abbrev Route := List String

/-- What a special file stands for. -/
inductive Device where
  /-- Takes everything and gives nothing. -/
  | null
  /-- Takes everything and gives zeros without end. -/
  | zero
  /-- Has room for nothing and gives zeros without end. -/
  | full
  /-- Takes everything and gives bytes without end that nobody can tell beforehand. -/
  | random
  /-- The terminal of a process that has none. -/
  | terminal
  /-- A stream of the process that asks, by its number. -/
  | stream (number : Nat)
  deriving DecidableEq, Repr

/-- Who may execute a file: its owner, the members of its group, all others. -/
structure Runners where
  owner : Bool
  group : Bool
  others : Bool
  deriving DecidableEq, Repr, Inhabited

def Runners.nobody : Runners := ⟨false, false, false⟩

def Runners.everybody : Runners := ⟨true, true, true⟩

/-- Whether anybody may, which is enough for the superuser. -/
def Runners.any (r : Runners) : Bool := r.owner || r.group || r.others

/-- Those who may execute a file by the bits of a mode. -/
def Runners.ofMode (mode : Nat) : Runners := ⟨mode.testBit 6, mode.testBit 3, mode.testBit 0⟩

/-- Those of `r` who are not of `s`. -/
def Runners.without (r s : Runners) : Runners :=
  ⟨r.owner && !s.owner, r.group && !s.group, r.others && !s.others⟩

/-- Those of `r` and those of `s`. -/
def Runners.union (r s : Runners) : Runners :=
  ⟨r.owner || s.owner, r.group || s.group, r.others || s.others⟩

/-- What lies at a place of a disk. -/
inductive Item where
  | file (bytes : ByteArray) (runners : Runners)
  | directory
  | link (target : String)
  | device (d : Device)
  /-- A pipe with a name, and what was written to it and not yet read. -/
  | pipe (held : ByteArray)
  deriving DecidableEq, Inhabited

/-- A disk: the items at their routes. The root is a directory and is not listed. -/
structure Disk where
  items : List (Route × Item)
  /-- The routes of every item that has several. -/
  shared : List (List Route)
  deriving DecidableEq, Inhabited

/-- The route as an absolute path. -/
def Route.toPath (r : Route) : Path := ⟨"/" ++ Text.join "/" r⟩

namespace Disk

/-- What lies at a route. -/
def item? (d : Disk) (r : Route) : Option Item :=
  if r = [] then some .directory else d.items.lookup r

/-- The disk without what lies at the routes that satisfy `p`. -/
def eraseWhere (d : Disk) (p : Route → Bool) : Disk :=
  ⟨d.items.filter fun e => !p e.1, d.shared.map fun routes => routes.filter fun r => !p r⟩

/-- The disk without what lies at a route. -/
def erase (d : Disk) (r : Route) : Disk := d.eraseWhere (· == r)

/-- The disk without what lies at or below a route. -/
def eraseBelow (d : Disk) (r : Route) : Disk := d.eraseWhere fun e => r.isPrefixOf e

/-- The disk with an item put at a route, in place of what was there. -/
def put (d : Disk) (r : Route) (i : Item) : Disk :=
  let d := d.erase r
  { d with items := (r, i) :: d.items }

/-- The routes of the item at a route. -/
def routesOf (d : Disk) (r : Route) : List Route := (d.shared.find? (·.contains r)).getD [r]

/-- The disk with the item at a route changed, wherever it lies. -/
def alter (d : Disk) (r : Route) (i : Item) : Disk :=
  let routes := d.routesOf r
  { d with items := routes.map (fun r => (r, i)) ++ d.items.filter fun e => !routes.contains e.1 }

/-- The disk with the item at a route given another route. -/
def share (d : Disk) (r other : Route) : Disk :=
  match d.item? r with
  | none => d
  | some i =>
    let d := d.put other i
    let routes := d.routesOf r
    { d with shared := (other :: routes) :: d.shared.filter (· != routes) }

/-- The disk with everything at or below a route moved to another. -/
def move (d : Disk) (r target : Route) : Disk :=
  let moved (e : Route) : Route := if r.isPrefixOf e then target ++ e.drop r.length else e
  let d := d.erase target
  ⟨d.items.map fun e => (moved e.1, e.2), d.shared.map fun routes => routes.map moved⟩

/-- The disk with what changed from one disk to another, in both cases wherever it was. -/
def withChanges (d before after : Disk) : Disk :=
  let changed := after.items.filter fun e => before.item? e.1 != after.item? e.1
  let gone := before.items.filter fun e => (after.item? e.1).isNone
  let touched := (changed ++ gone).map (·.1)
  let shared := after.shared ++ d.shared.map fun routes => routes.filter fun r =>
    !touched.contains r && !after.shared.any (·.contains r)
  ⟨changed ++ d.items.filter fun e => !touched.contains e.1, shared⟩

/-- The names in a directory. -/
def children (d : Disk) (r : Route) : List String :=
  d.items.filterMap fun e =>
    match e.1.getLast? with
    | some name => if e.1.dropLast = r then some name else none
    | none => none

/-! ## Resolution -/

/-- The longest name a directory can hold, in bytes. -/
def nameLimit : Nat := 255

/-- The length from which a path is refused as a whole, in bytes. -/
def pathLimit : Nat := 4096

/-- How many links a path may lead through. -/
def linkLimit : Nat := 40

/-- Where a path ends. -/
inductive Spot where
  /-- At an item. -/
  | found (route : Route) (item : Item)
  /-- At a name that is free, in a directory that exists. -/
  | vacant (directory : Route) (name : String)

/-- The names and dots of a path; empty segments do not count. -/
def steps (text : String) : List String := (Text.split '/' text).filter (· != "")

/-- Whether a path asks for a directory by a slash at its end. -/
def asksDirectory (p : Path) : Bool := Text.endsWith "/" p.text

/-- What is wanted of the end of a path. -/
inductive Ending where
  /-- The entry itself, whatever it is. -/
  | entry
  /-- The entry, or where it leads if it is a link and a slash asks for a directory. -/
  | item
  /-- What the entry leads to. -/
  | target
  /-- What the entry leads to, or its place if there is nothing, for a file to be written. -/
  | writing
  deriving DecidableEq

/-- Whether a link at the end of a path is followed; `slash` says whether a slash stands behind it.
-/
def Ending.follows : Ending → Bool → Bool
  | entry, _ => false
  | item, slash => slash
  | target, _ => true
  | writing, _ => true

/-- Whether names can be made in a directory: not in one that was removed, nor where the system
speaks of its processes. -/
def takesNames (d : Disk) (r : Route) : Bool := (d.item? r).isSome && r.head? != some "proc"

/-- Goes on from the directory `here` along the segments; `slash` says whether one stands behind the
last of them, and `links` how many more links may be followed. A slash behind a name asks for a
directory there, also if it is the target of a link that ends in it. -/
def resolve (d : Disk) (ending : Ending) (links : Nat) (here : Route) (slash : Bool) :
    List String → Except OsError Spot
  | [] => .ok (.found here ((d.item? here).getD .directory))
  | seg :: rest =>
    if seg = "." then resolve d ending links here slash rest
    else if seg = ".." then resolve d ending links here.dropLast slash rest
    else if rest = [] ∧ slash ∧ ending = .writing then .error .isADirectory
    else if nameLimit < seg.utf8ByteSize then .error .nameTooLong
    else
      let place := here ++ [seg]
      match d.item? place with
      | none =>
        if rest = [] ∧ d.takesNames here then .ok (.vacant here seg) else .error .noEntry
      | some .directory => resolve d ending links place slash rest
      | some (.link target) =>
        if rest = [] ∧ !ending.follows slash then .ok (.found place (.link target))
        else match links with
          | 0 => .error .tooManyLinks
          | more + 1 =>
            resolve d ending more (if (Path.mk target).isAbsolute then [] else here)
              (slash || (rest = [] && asksDirectory ⟨target⟩)) (steps target ++ rest)
      | some item =>
        if rest = [] ∧ (!slash ∨ ending = .entry) then .ok (.found place item)
        else .error .notADirectory
  termination_by segs => (links, segs.length)

/-- Follows a path of any length from the directory `here`. -/
def follow (d : Disk) (here : Route) (ending : Ending) (p : Path) : Except IoError Spot :=
  if Text.holds (Char.ofNat 0) p.text then .error .nulInPath
  else if p.text = "" then .error (.os .noEntry)
  else
    match resolve d ending linkLimit (if p.isAbsolute then [] else here) (asksDirectory p)
        (steps p.text) with
    | .ok spot => .ok spot
    | .error e => .error (.os e)

/-- Follows a path from the directory `here`, if it is not too long. -/
def locate (d : Disk) (here : Route) (ending : Ending) (p : Path) : Except IoError Spot :=
  if !Text.holds (Char.ofNat 0) p.text && pathLimit ≤ p.text.utf8ByteSize then
    .error (.os .nameTooLong)
  else d.follow here ending p

/-- Follows a path to an item; `follow` says whether a link at its end is followed. -/
def lookup (d : Disk) (here : Route) (follow : Bool) (p : Path) : Except IoError (Route × Item) :=
  match locate d here (if follow then .target else .item) p with
  | .error e => .error e
  | .ok (.vacant _ _) => .error (.os .noEntry)
  | .ok (.found r i) => .ok (r, i)

end Disk

end ClassViewer
