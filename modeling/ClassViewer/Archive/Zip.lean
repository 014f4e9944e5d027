import ClassViewer.Archive.Inflate
import ClassViewer.Digest.Crc32
import ClassViewer.IoError
import ClassViewer.Path
import ClassViewer.Text.CodePage437
import ClassViewer.Text.Utf8

/-!
# ZIP archives

Reading of the ZIP container. The end record is found from the back of the file, the central
directory through it (or through its 64-bit twin), and the entries through the central directory:
it alone decides names, sizes, checksums and methods, and of an entry's own header only the
signature and the two lengths matter. Data in front of the archive shifts every offset.

`readDirectory` gives the central directory or the reason why there is none, `openEntry` one entry
of it, and `entries` all of them in order.
-/

namespace ClassViewer.Archive

/-- Why an archive cannot be read. -/
inductive ArchiveError where
  /-- The data breaks the format. -/
  | invalid (detail : String)
  /-- The data uses a feature that is not supported. -/
  | unsupported (detail : String)
  /-- There is no such entry. -/
  | missingEntry
  /-- Reading failed. -/
  | io (e : IoError)
  deriving DecidableEq, Repr

namespace ArchiveError

/-- The text of the error. -/
def message : ArchiveError → String
  | invalid detail => "invalid Zip archive: " ++ detail
  | unsupported detail => "unsupported Zip archive: " ++ detail
  | missingEntry => "specified file not found in archive"
  | io e => e.message

end ArchiveError

/-! ## Fields -/

/-- The little-endian number in `n` bytes from position `p`. -/
def number (data : ByteArray) (p : Nat) : Nat → Nat
  | 0 => 0
  | n + 1 => (data.get! p).toNat + 256 * number data (p + 1) n

/-- A field of `n` bytes at position `p`. -/
def field (data : ByteArray) (p n : Nat) : Except ArchiveError Nat :=
  if p + n ≤ data.size then .ok (number data p n) else .error (.io .shortRead)

/-- The bytes of a field of `n` bytes at position `p`. -/
def fieldBytes (data : ByteArray) (p n : Nat) : Except ArchiveError ByteArray :=
  if p + n ≤ data.size then .ok (data.extract p (p + n)) else .error (.io .shortRead)

def endSignature : Nat := 0x06054b50
def end64Signature : Nat := 0x06064b50
def locatorSignature : Nat := 0x07064b50
def centralSignature : Nat := 0x02014b50
def localSignature : Nat := 0x04034b50

/-- A 32-bit field with this value defers to its 64-bit twin. -/
def deferred : Nat := 0xFFFFFFFF

/-- Offsets are numbers of eight bytes. -/
def offsetBound : Nat := 0x10000000000000000

/-! ## The end record -/

/-- The record at the end of an archive. -/
structure EndRecord where
  position : Nat
  disk : Nat
  directoryDisk : Nat
  entriesHere : Nat
  entriesTotal : Nat
  directorySize : Nat
  directoryOffset : Nat
  commentLength : Nat

/-- Whether some field of the end record is too narrow for its value. -/
def EndRecord.tooSmall (e : EndRecord) : Bool :=
  e.disk == 0xFFFF || e.directoryDisk == 0xFFFF || e.entriesHere == 0xFFFF ||
    e.entriesTotal == 0xFFFF || e.directorySize == deferred || e.directoryOffset == deferred

/-- Parses the end record at position `p`; its comment has to be there in full. -/
def EndRecord.parse (data : ByteArray) (p : Nat) : Except ArchiveError EndRecord := do
  let disk ← field data (p + 4) 2
  let directoryDisk ← field data (p + 6) 2
  let entriesHere ← field data (p + 8) 2
  let entriesTotal ← field data (p + 10) 2
  let directorySize ← field data (p + 12) 4
  let directoryOffset ← field data (p + 16) 4
  let commentLength ← field data (p + 20) 2
  let _ ← fieldBytes data (p + 22) commentLength
  .ok ⟨p, disk, directoryDisk, entriesHere, entriesTotal, directorySize, directoryOffset,
    commentLength⟩

/-- The last position among the `n + 1` positions up to `p` that holds the signature. -/
def lastSignature (data : ByteArray) : Nat → Nat → Option Nat
  | n, p =>
    if number data p 4 = endSignature then some p
    else match n, p with
      | n + 1, p + 1 => lastSignature data n p
      | _, _ => none

/-- Finds and parses the end record: the one nearest to the end, no farther from it than the longest
comment allows. -/
def EndRecord.find (data : ByteArray) : Except ArchiveError EndRecord :=
  if data.size < 22 then .error (.invalid "Invalid zip header")
  else match lastSignature data 0xFFFF (data.size - 22) with
    | some p => EndRecord.parse data p
    | none => .error (.invalid "Could not find central directory end")

/-! ## The central directory -/

/-- Where the central directory is: how far the archive is shifted in the file, where its directory
begins, and how many entries it has. -/
structure Directory where
  shift : Nat
  start : Nat
  count : Nat

/-- The 64-bit locator, which stands right before the end record and its comment. -/
def locator? (data : ByteArray) (e : EndRecord) : Except ArchiveError (Option (Nat × Nat)) := do
  if data.size < 42 + e.commentLength then .ok none
  else
    let p := data.size - (42 + e.commentLength)
    let signature ← field data p 4
    if signature ≠ locatorSignature then .ok none
    else
      let disk ← field data (p + 4) 4
      let offset ← field data (p + 8) 8
      let _ ← field data (p + 16) 4
      .ok (some (disk, offset))

/-- Searches the 64-bit end record forward from `p` over `n` positions. -/
def findEnd64 (data : ByteArray) : Nat → Nat → Except ArchiveError Nat
  | 0, _ => .error (.invalid "Could not find ZIP64 central directory end")
  | n + 1, p => do
    let signature ← field data p 4
    if signature = end64Signature then .ok p else findEnd64 data n (p + 1)

/-- The refusal of archives that spread over several disks. -/
def multiDisk : ArchiveError := .unsupported "Support for multi-disk files is not implemented"

/-- The directory of an archive without a 64-bit locator. The end record stands right behind the
directory, and that tells how far the archive is shifted. -/
def Directory.ofEndRecord (e : EndRecord) : Except ArchiveError Directory :=
  if e.directorySize + e.directoryOffset ≤ e.position then
    let shift := e.position - e.directorySize - e.directoryOffset
    .ok ⟨shift, e.directoryOffset + shift, e.entriesHere⟩
  else .error (.invalid "Invalid central directory size or offset")

/-- The directory of an archive with a 64-bit locator. -/
def Directory.ofLocator (data : ByteArray) (e : EndRecord) (disk offset : Nat) :
    Except ArchiveError Directory := do
  if !e.tooSmall ∧ e.disk ≠ disk then .error multiDisk
  else if e.position < 60 then .error (.invalid "File cannot contain ZIP64 central directory end")
  else
    let p ← findEnd64 data (e.position - 60 + 1 - offset) offset
    let diskNumber ← field data (p + 16) 4
    let directoryDisk ← field data (p + 20) 4
    let count ← field data (p + 32) 8
    let directoryOffset ← field data (p + 48) 8
    if diskNumber ≠ directoryDisk then .error multiDisk
    else
      let start := directoryOffset + (p - offset)
      if start < offsetBound then .ok ⟨p - offset, start, count⟩
      else .error (.invalid "Invalid central directory size or offset")

/-- The place of the central directory. -/
def Directory.find (data : ByteArray) : Except ArchiveError Directory := do
  let e ← EndRecord.find data
  if !e.tooSmall ∧ e.disk ≠ e.directoryDisk then .error multiDisk
  else
    match ← locator? data e with
    | none => Directory.ofEndRecord e
    | some (disk, offset) => Directory.ofLocator data e disk offset

/-! ## Entries of the directory -/

/-- How the content of an entry is stored. -/
inductive Method where
  | stored
  | deflated
  | other (code : Nat)
  deriving DecidableEq, Repr

/-- The method with a number. -/
def Method.ofCode (code : Nat) : Method :=
  if code = 0 then .stored else if code = 8 then .deflated else .other code

/-- The method number that announces an encryption record instead of a method. -/
def encryptionMethod : Method := .other 99

/-- What the central directory says about one entry. -/
structure Header where
  name : String
  encrypted : Bool
  method : Method
  checksum : Nat
  packedSize : Nat
  size : Nat
  position : Nat
  hasEncryptionRecord : Bool

/-- What the extra records of an entry change: wide sizes and offsets, and the encryption record.
A record that is cut short ends the reading and keeps what was changed before. -/
def Header.withExtra (extra : ByteArray) : Nat → Nat → Header → Except ArchiveError Header
  | 0, _, h => .ok h
  | fuel + 1, p, h =>
    if extra.size < p + 4 then .ok h
    else
      let kind := number extra p 2
      let len := number extra (p + 2) 2
      let q := p + 4
      if kind = 0x0001 then
        let readSize := h.size = deferred
        if readSize ∧ extra.size < q + 8 then .ok h
        else
          let (h, q) := if readSize then ({ h with size := number extra q 8 }, q + 8) else (h, q)
          let readPacked := h.packedSize = deferred
          if readPacked ∧ extra.size < q + 8 then .ok h
          else
            let (h, q) :=
              if readPacked then ({ h with packedSize := number extra q 8 }, q + 8) else (h, q)
            let readPosition := h.position = deferred
            if readPosition ∧ extra.size < q + 8 then .ok h
            else
              let (h, q) :=
                if readPosition then ({ h with position := number extra q 8 }, q + 8) else (h, q)
              Header.withExtra extra fuel (max q (p + 4 + len)) h
      else if kind = 0x9901 then
        if len ≠ 7 then .error (.unsupported "AES extra data field has an unsupported length")
        else if extra.size < q + 7 then .ok h
        else
          let version := number extra q 2
          let vendor := number extra (q + 2) 2
          let strength := number extra (q + 4) 1
          let method := Method.ofCode (number extra (q + 5) 2)
          if vendor ≠ 0x4541 then .error (.invalid "Invalid AES vendor")
          else if version ≠ 1 ∧ version ≠ 2 then .error (.invalid "Invalid AES vendor version")
          else if strength = 0 ∨ 3 < strength then
            .error (.invalid "Invalid AES encryption strength")
          else
            -- The record's own length is skipped once more behind it.
            Header.withExtra extra fuel (q + 14)
              { h with method := method, hasEncryptionRecord := true }
      else Header.withExtra extra fuel (q + len) h

/-- The name of an entry: UTF-8 if it says so, else code page 437. -/
def decodeName (utf8 : Bool) (bytes : ByteArray) : String :=
  if utf8 then Text.Utf8.decodeLossy bytes else Text.decode437 bytes

/-- Parses the directory entry at position `p`; gives it with the position behind it. -/
def Header.parse (data : ByteArray) (shift p : Nat) : Except ArchiveError (Header × Nat) := do
  let signature ← field data p 4
  if signature ≠ centralSignature then .error (.invalid "Invalid Central Directory header")
  else
    let flags ← field data (p + 8) 2
    let method ← field data (p + 10) 2
    let checksum ← field data (p + 16) 4
    let packedSize ← field data (p + 20) 4
    let size ← field data (p + 24) 4
    let nameLength ← field data (p + 28) 2
    let extraLength ← field data (p + 30) 2
    let commentLength ← field data (p + 32) 2
    let offset ← field data (p + 42) 4
    let nameBytes ← fieldBytes data (p + 46) nameLength
    let extra ← fieldBytes data (p + 46 + nameLength) extraLength
    let _ ← fieldBytes data (p + 46 + nameLength + extraLength) commentLength
    let plain : Header :=
      { name := decodeName (flags / 2048 % 2 = 1) nameBytes
        encrypted := flags % 2 = 1
        method := Method.ofCode method
        checksum := checksum
        packedSize := packedSize
        size := size
        position := offset
        hasEncryptionRecord := false }
    let h ← Header.withExtra extra (extra.size + 1) 0 plain
    if h.method = encryptionMethod ∧ !h.hasEncryptionRecord then
      .error (.invalid "AES encryption without AES extra data field")
    else if offsetBound ≤ h.position + shift then
      .error (.invalid "Archive header is too large")
    else
      .ok ({ h with position := h.position + shift },
        p + 46 + nameLength + extraLength + commentLength)

/-- The next `n` directory entries from position `p`, those before them in `acc`, last one first. -/
def headersFrom (data : ByteArray) (shift : Nat) :
    Nat → Nat → List Header → Except ArchiveError (List Header)
  | 0, _, acc => .ok acc.reverse
  | n + 1, p, acc => do
    let (h, p) ← Header.parse data shift p
    headersFrom data shift n p (h :: acc)

/-- The central directory of an archive. -/
def readDirectory (data : ByteArray) : Except ArchiveError (List Header) := do
  let d ← Directory.find data
  headersFrom data d.shift d.count d.start []

/-! ## Entries -/

/-- An opened entry: its name, and its content or why it cannot be read. -/
structure Entry where
  name : String
  content : Except IoError ByteArray

/-- Whether an entry is a directory: its name ends in a slash of either kind. -/
def Entry.isDirectory (e : Entry) : Bool :=
  e.name.toList.getLast? == some '/' || e.name.toList.getLast? == some '\\'

/-- How far below the archive root a path leads, if it never climbs above it. -/
def depthBelowRoot : List Path.Component → Nat → Option Nat
  | [], depth => some depth
  | .root :: _, _ => none
  | .parent :: _, 0 => none
  | .parent :: cs, depth + 1 => depthBelowRoot cs depth
  | .name _ :: cs, depth => depthBelowRoot cs (depth + 1)
  | .current :: cs, depth => depthBelowRoot cs depth

/-- Whether the name of an entry stays inside the archive root. -/
def Entry.isEnclosed (e : Entry) : Bool :=
  !Text.holds (Char.ofNat 0) e.name && (depthBelowRoot (Path.mk e.name).components 0).isSome

/-- The content stored in `packed`, unpacked and checked. -/
def unpack (method : Method) (checksum : Nat) (packed : ByteArray) : Except IoError ByteArray :=
  let unpacked : Except IoError ByteArray :=
    match method with
    | .deflated =>
      match Inflate.inflate packed with
      | .ok bytes => .ok bytes
      | .error .corrupt => .error .corruptStream
      | .error .incomplete => .error .incompleteStream
    | _ => .ok packed
  match unpacked with
  | .error e => .error e
  | .ok bytes =>
    if (Digest.crc32 bytes).toNat = checksum then .ok bytes else .error .badChecksum

/-- Opens the entry a directory header describes. Its content begins behind its own header and is as
long as the directory says, or as the file allows. -/
def openEntry (data : ByteArray) (h : Header) : Except ArchiveError Entry := do
  if h.encrypted then .error (.unsupported "Password required to decrypt file")
  else
    let signature ← field data h.position 4
    if signature ≠ localSignature then .error (.invalid "Invalid local file header")
    else
      let nameLength ← field data (h.position + 26) 2
      let extraLength ← field data (h.position + 28) 2
      match h.method with
      | .other _ => .error (.unsupported "Compression method not supported")
      | method =>
        let start := h.position + 30 + nameLength + extraLength
        let packed := data.extract start (start + h.packedSize)
        .ok ⟨h.name, unpack method h.checksum packed⟩

/-- The entries of an archive in the order of its directory, each opened or refused. -/
def entries (data : ByteArray) : Except ArchiveError (List (Except ArchiveError Entry)) :=
  (readDirectory data).map fun hs => hs.map (openEntry data)

end ClassViewer.Archive
