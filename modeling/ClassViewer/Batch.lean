import ClassViewer.Decompiler
import ClassViewer.Digest.Sha256

/-!
# Batches of locations

One row of output for every location asked for, in order, and how rows are written to a file or to
the terminal. A guard keeps the output from replacing a class file.
-/

namespace ClassViewer

/-- The answer for one location. -/
structure Row where
  location : String
  className : String
  displayName : String
  engine : Option String
  error : Option String
  contentHash : String
  content : String
  deriving DecidableEq, Repr

namespace Row

/-- The row for the outcome at a location. -/
def ofOutcome (r : Registry) (l : Location) (outcome : Except DecompileError Decompiled) : Row :=
  let (className, engine, error, text) := match outcome with
    | .ok d => (d.id.dotted, some d.engine.id, none, d.text)
    | .error e => (l.className.dotted, none, some e.kind, r.diagnostic e)
  let document := Document.ofLocation l text
  { location := l.display
    className := className
    displayName := document.displayName
    engine := engine
    error := error
    contentHash := Digest.Sha256.hexOfText document.text
    content := document.text }

/-- The row as JSON. -/
def toJson (row : Row) : Json :=
  .obj [("location", .str row.location), ("class_name", .str row.className),
    ("display_name", .str row.displayName), ("engine", .ofOption row.engine),
    ("error", .ofOption row.error), ("content_hash", .str row.contentHash),
    ("content", .str row.content)]

end Row

namespace Registry

/-- What a request sets: an engine has to be registered, and lines may be left as they are. -/
def overrides (r : Registry) (engine : Option String) (noRealign : Bool) :
    Except Failure Overrides :=
  let o : Overrides := ⟨engine, if noRealign then some false else none⟩
  match engine with
  | none => .ok o
  | some id =>
    if (r.engine? id).isSome then .ok o
    else .error (.ofMessage ("Unknown engine: " ++ id ++ " (available: " ++ r.idList ++ ")"))

/-- Decompiles one location to a row. -/
def decompileRow (r : Registry) (o : Overrides) (l : Location) : HostM Row := do
  return Row.ofOutcome r l (← r.tryDecompile l o)

/-- Decompiles one location to a row while others work on the disk. What they do is seen once a
program is started, when it lets time pass, and at the end. -/
def decompileBeside (r : Registry) (o : Overrides) (others : List Disk.Change) (l : Location) :
    HostM (Row × List Disk.Change) := do
  Host.beginBeside others
  let row ← r.decompileRow o l
  return (row, ← Host.settle)

/-- Decompiles locations to rows, in order, each from the disk as it was when the first was begun.
What those before it do is seen, and a moment later what those behind it do, which stands with the
locations. -/
def decompileRound (r : Registry) (o : Overrides) (begun : Disk) (earlier : List Disk.Change) :
    List (Location × List Disk.Change) → HostM (List (Row × List Disk.Change))
  | [] => pure []
  | (l, _) :: rest => do
    modify fun h => { h with disk := begun }
    let behind := rest.flatMap fun e => e.2.map Disk.Change.later
    let (row, own) ← r.decompileBeside o (Disk.Change.insertAll behind earlier) l
    let rows ← r.decompileRound o begun (Disk.Change.insertAll own earlier) rest
    return (row, own) :: rows

/-- The changes of those behind the first that were made before a time. -/
def changesBehind (changes : List (List Disk.Change)) (time : Nat) : List (List Disk.Change) :=
  changes.tail.map fun own => own.filter fun c => c.time < time

/-- How often locations are decompiled at most. -/
def roundLimit : Nat := 1000

/-- Decompiles locations to rows again and again, until those behind others do what the others have
seen of them; `fuel` bounds how often. -/
def decompileRounds (r : Registry) (o : Overrides) :
    Nat → List (Location × List Disk.Change) → HostM (List Row)
  | fuel, known => do
    let h ← get
    let (round, after) := (r.decompileRound o h.disk [] known).run h
    let done := round.map (·.2)
    let last := (done.flatten.map (·.time)).foldl max 0
    if changesBehind done last = changesBehind (known.map (·.2)) last then
      set after
      return round.map (·.1)
    else match fuel with
      | 0 =>
        set after
        return round.map (·.1)
      | fuel + 1 => r.decompileRounds o fuel ((known.map (·.1)).zip done)

/-- Decompiles locations to rows, in order. All of them are begun at the same time. -/
def decompileAll (r : Registry) (o : Overrides) (ls : List Location) : HostM (List Row) :=
  r.decompileRounds o roundLimit (ls.map fun l => (l, []))

end Registry

/-! ## Written output -/

/-- How rows are written. -/
inductive Format where
  | text
  | json
  deriving DecidableEq, Repr

/-- The text of several rows: each under a line with its location, and ended by a newline. -/
def titled (row : Row) : String :=
  "// ==== " ++ row.location ++ " ====\n" ++ row.content ++
    (if Text.endsWith "\n" row.content then "" else "\n")

/-- The rows as one text; a single row is its content alone. -/
def renderRows (format : Format) (rows : List Row) : String :=
  match format with
  | .json => (Json.arr (rows.map Row.toJson)).pretty
  | .text =>
    match rows with
    | [row] => row.content
    | rows => Text.join "" (rows.map titled)

/-- Writes text to a file, making the directory it lies in. -/
def writeOutput (p : Path) (content : String) : HostM (Except Failure Unit) := do
  let above ← match p.parent? with
    | some above => if above.text = "" then pure (.ok ()) else Host.makeDirectories above
    | none => pure (.ok ())
  match above with
  | .error e => return .error (.ofIo e)
  | .ok () =>
    match ← Host.write p content.toUTF8 with
    | .ok () => return .ok ()
    | .error e => return .error ((Failure.ofIo e).inContext ("Failed to write output: " ++ p.text))

/-- The text as it is printed, ended by a newline. -/
def printed (content : String) : String :=
  if Text.endsWith "\n" content then content else content ++ "\n"

/-! ## The guard -/

/-- Whether two paths lead to one place; where one leads nowhere, whether they are the same path. -/
def sameFile (h : Host) (p q : Path) : Bool :=
  match h.canonical p, h.canonical q with
  | .ok r, .ok s => r == s
  | _, _ => p.same q

/-- Whether a path has the extension of class files, in any case. -/
def namesClassFile (p : Path) : Bool :=
  match p.extension? with
  | some e => (e.toList.map Char.toLower) == ['c', 'l', 'a', 's', 's']
  | none => false

/-- Whether an output path would replace a location's own file. -/
def replaces (h : Host) (output : Path) : Location → Bool
  | .file path => sameFile h path output
  | .archived _ _ => false

/-- Refuses an output path that names a class file or is one of the inputs. -/
def guardOutput (h : Host) (output : Path) (locations : List Location) : Except Failure Unit :=
  if namesClassFile output || locations.any (replaces h output) then
    match locations with
    | [] => .ok ()
    | l :: _ =>
      match (Document.ofLocation l "").writeBack with
      | .ok () => .ok ()
      | .error e =>
        .error ((Failure.ofError e).inContext ("Refusing to write to " ++ output.text))
  else .ok ()

end ClassViewer
