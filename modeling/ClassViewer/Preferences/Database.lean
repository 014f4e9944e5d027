import ClassViewer.Preferences.Library

/-!
# Databases of pages

One library to run the program with (`Database.pages`) : a database is a file with a lock file
beside it. A process may hold a database open only once; what counts is the file, not how its path
is written. The file must be empty, missing, or a database already.

The file holds a header, then the key and the size of every write there was, and then every key and
value, each text with its length in front (`Database.encode`, `Database.decode`). The sizes of the
writes decide how much room is left (`Space.ofWrites`).
-/

namespace ClassViewer

namespace Database

/-! ## The file -/

/-- The size of the header, in bytes. -/
def headerSize : Nat := 152

/-- A number in that many bytes, least significant first. -/
def encodeNumber (width n : Nat) : ByteArray :=
  ⟨((List.range width).map fun i => (n >>> (8 * i)).toUInt8).toArray⟩

/-- The flag of a page that holds what a database is about. -/
def metaFlag : Nat := 8

/-- The number every database is known by. -/
def magic : Nat := 0xBEEFC0DE

/-- The version of the format. -/
def formatVersion : Nat := 1

/-- The header of every database file: the number and the flags of its first page, then the mark and
the version of the format. -/
def header : ByteArray :=
  encodeNumber 10 0 ++ encodeNumber 2 metaFlag ++ encodeNumber 4 0 ++ encodeNumber 4 magic ++
    encodeNumber 4 formatVersion ++ encodeNumber (headerSize - 24) 0

/-- A text with its length in bytes in front. -/
def encodeText (s : String) : ByteArray := encodeNumber 8 s.utf8ByteSize ++ s.toUTF8

/-- The items one after the other, each behind a one, and a zero behind the last. -/
def encodeList {α : Type} (encodeItem : α → ByteArray) (items : List α) : ByteArray :=
  items.foldl (fun acc i => acc ++ (encodeNumber 1 1 ++ encodeItem i)) ByteArray.empty ++
    encodeNumber 1 0

/-- The file of what a database contains. -/
def encode (c : Stored) : ByteArray :=
  header ++ encodeList (fun w => encodeText w.1 ++ encodeNumber 8 w.2) c.writes ++
    encodeList (fun e => encodeText e.1 ++ encodeText e.2) c.table

/-- Reads the number at a position, and the position behind it. -/
def decodeNumber (data : ByteArray) (p : Nat) : Option (Nat × Nat) :=
  if p + 8 ≤ data.size then some (Archive.number data p 8, p + 8) else none

/-- Reads the text at a position, and the position behind it. -/
def decodeText (data : ByteArray) (p : Nat) : Option (String × Nat) := do
  let (n, p) ← decodeNumber data p
  if p + n ≤ data.size then
    (String.fromUTF8? (data.extract p (p + n))).map fun s => (s, p + n)
  else none

/-- Reads items from a position on, and the position behind them; `fuel` bounds their number. -/
def decodeItems {α : Type} (data : ByteArray) (decodeItem : Nat → Option (α × Nat)) :
    Nat → Nat → Option (List α × Nat)
  | 0, _ => none
  | fuel + 1, p =>
    if data.size ≤ p then none
    else if data.get! p = 0 then some ([], p + 1)
    else do
      let (i, p) ← decodeItem (p + 1)
      let (rest, p) ← decodeItems data decodeItem fuel p
      some (i :: rest, p)

/-- Reads items and the position behind them. -/
def decodeList {α : Type} (data : ByteArray) (decodeItem : Nat → Option (α × Nat)) (p : Nat) :
    Option (List α × Nat) :=
  decodeItems data decodeItem (data.size + 1) p

/-- Reads a key and what `decodeValue` reads behind it. -/
def decodePair {β : Type} (data : ByteArray) (decodeValue : Nat → Option (β × Nat)) (p : Nat) :
    Option ((String × β) × Nat) := do
  let (key, p) ← decodeText data p
  let (value, p) ← decodeValue p
  some ((key, value), p)

/-- The space after writes, of which the last comes first. -/
def Space.ofWrites : List (String × Nat) → Option Space
  | [] => some Space.start
  | w :: ws => (ofWrites ws).bind (·.put w.1 w.2)

/-- Reads what follows the header, up to the end. -/
def decodeBody (data : ByteArray) : Option Stored := do
  let (writes, p) ← decodeList data (decodePair data (decodeNumber data)) headerSize
  let (table, p) ← decodeList data (decodePair data (decodeText data)) p
  let space ← Space.ofWrites writes
  if p = data.size then some ⟨table, writes, space⟩ else none

/-! ## Errors -/

def badSize : DecompileError :=
  .store "MDB_BAD_VALSIZE: Unsupported size of key/DB name/data, or wrong DUPFIXED size"

def full : DecompileError := .store "MDB_MAP_FULL: Environment mapsize limit reached"

def notADatabase : DecompileError := .store "MDB_INVALID: File is not an LMDB file"

def otherVersion : DecompileError :=
  .store "MDB_VERSION_MISMATCH: Database environment version mismatch"

def alreadyOpen : DecompileError :=
  .store ("environment already open in this program; " ++
    "close it to be able to open it again with different options")

/-! ## Opening and closing -/

/-- The longest key, in bytes. -/
def keyLimit : Nat := 511

/-- What a new database contains. -/
def blank : Stored := ⟨[], [], Space.start⟩

/-- What a file contains; an empty one is a new database. -/
def decode (data : ByteArray) : Except DecompileError Stored :=
  if data.size = 0 then .ok blank
  else if data.size < headerSize ∨ Archive.number data 10 2 &&& metaFlag = 0 ∨
      Archive.number data 16 4 ≠ magic then .error notADatabase
  else if Archive.number data 20 4 ≠ formatVersion then .error otherVersion
  else match decodeBody data with
    | some c => .ok c
    | none => .error notADatabase

/-- The place of a database: where its path leads, or where its missing file would be made. -/
def place (h : Host) (p : Path) : Except IoError Route :=
  match h.canonical p with
  | .ok r => .ok r
  | .error e =>
    if e.isNotFound then
      match p.parent?, p.fileName? with
      | some above, some name => (h.canonical above).map (· ++ [name])
      | _, _ => .error e
    else .error e

/-- The bytes of a file that is made empty if it is missing. -/
def touch (p : Path) : HostM (Except IoError ByteArray) := do
  let h ← get
  match h.read p with
  | .ok bytes => return .ok bytes
  | .error e =>
    if e.isNotFound then
      match ← Host.write p ByteArray.empty with
      | .ok () => return .ok ByteArray.empty
      | .error e => return .error e
    else return .error e

/-- Opens the database at a place that is not open yet. -/
def openAt (r : Route) : HostM (Except DecompileError Unit) := do
  match ← touch (lockPath r.toPath) with
  | .error e => return .error (.store e.message)
  | .ok _ =>
    match ← touch r.toPath with
    | .error e => return .error (.store e.message)
    | .ok bytes =>
      match decode bytes with
      | .error e => return .error e
      | .ok c =>
        let _ ← Host.write r.toPath (encode c)
        modify fun h => { h with databases := (r, c) :: h.databases }
        return .ok ()

/-- What an open database contains. -/
def contents (h : Host) (r : Route) : Stored := (h.databases.lookup r).getD blank

/-- What a database contains after a write, if there is room for it. -/
def write? (c : Stored) (key value : String) : Option Stored :=
  (c.space.put key value.utf8ByteSize).map fun space =>
    ⟨c.table.put key value, (key, value.utf8ByteSize) :: c.writes, space⟩

/-- The store in the open database at a place. -/
def store (r : Route) : Store where
  get key := do
    if key = "" then return .error badSize
    else return .ok ((contents (← get) r).table.lookup key)
  put key value := do
    if key = "" ∨ keyLimit < key.utf8ByteSize then return .error badSize
    else match write? (contents (← get) r) key value with
      | none => return .error full
      | some c =>
        modify fun h => { h with databases := (r, c) :: h.databases.filter (·.1 != r) }
        if (← get).isFile r.toPath then
          let _ ← Host.write r.toPath (encode c)
        return .ok ()

/-- Opens the database in a file; gives its place. -/
def openFile (p : Path) : HostM (Except DecompileError Route) := do
  let h ← get
  match place h p with
  | .error e => return .error (.store e.message)
  | .ok r =>
    if (h.databases.lookup r).isSome then return .error alreadyOpen
    else
      match ← openAt r with
      | .error e => return .error e
      | .ok () => return .ok r

/-- Closes the database at a place. -/
def close (r : Route) : HostM Unit :=
  modify fun h => { h with databases := h.databases.filter (·.1 != r) }

/-- The library of these databases. -/
def pages : Library where
  Handle := Route
  openFile := openFile
  store := store
  close := close

/-- Opens the database at a path, making the directory it lies in; gives its place. -/
def openPath (p : Path) : HostM (Except DecompileError Route) := pages.openPath p

end Database

end ClassViewer
