import ClassViewer.ClassId
import ClassViewer.Path

/-!
# Locations and the names derived from them

A class file lies on its own on disk or inside an archive. `Location.parse` reads how a user writes
that down and `Location.display` writes it; `Location.className` is the internal name of the class
found there: the path of an archive member, else what follows the first build-output directory,
else the bare file name.
-/

namespace ClassViewer

/-- Where a class file lies. -/
inductive Location where
  /-- A plain file. -/
  | file (path : Path)
  /-- A member of an archive; the archive's own file may be unknown. -/
  | archived (archive : Option Path) (entry : String)
  deriving DecidableEq, Repr, Inhabited

namespace Location

/-- What introduces a location written as an archive address. -/
def addressHead : String := "jar:file:"

/-- A member of the archive at a path. -/
def inArchive (archive : Path) (entry : String) : Location :=
  .archived (some archive) (Text.dropLeading '/' entry)

/-- Reads `path/to/B.class`, `lib.jar!/a/B.class` or `jar:file:/lib.jar!/a/B.class`. The last `!/`
separates, so that an archive inside an archive stays with the archive path. -/
def parse (raw : String) : Location :=
  let raw := (Text.dropHead? addressHead raw).getD raw
  match Text.splitAtLastPair? '!' '/' raw with
  | some (archive, entry) =>
    .archived (if archive = "" then none else some ⟨archive⟩) (Text.dropLeading '/' entry)
  | none => .file ⟨raw⟩

/-- The location as text. -/
def display : Location → String
  | file path => path.text
  | archived (some archive) entry => archive.text ++ "!/" ++ entry
  | archived none entry => "<unknown archive>!/" ++ entry

def isArchived : Location → Bool
  | file _ => false
  | archived _ _ => true

/-- The path used for naming: that of the file with slashes only, or that of the member. -/
def logicalPath : Location → String
  | file path => Text.replaceChar '\\' '/' path.text
  | archived _ entry => entry

/-- The path of the member inside its archive. -/
def entry? : Location → Option String
  | file _ => none
  | archived _ entry => some entry

/-- The name of the class file without directories. -/
def fileName (l : Location) : String := Text.afterLast '/' l.logicalPath

/-- The directory names that build tools put compiled classes under. -/
def outputMarkers : List String := ["classes", "bin", "target", "build"]

/-- The non-empty segments after the first marker that has any. -/
def segmentsAfterMarker : List String → Option (List String)
  | [] => none
  | part :: rest =>
    if part ∈ outputMarkers ∧ rest.any (· != "") then some (rest.filter (· != ""))
    else segmentsAfterMarker rest

/-- The name of a class by the path of its file, without the suffix. -/
def nameOfPath (path : String) : ClassId :=
  let parts := Text.split '/' path
  match if parts.length ≤ 1 then none else segmentsAfterMarker parts with
  | some rest => ClassId.ofName (Text.join "/" rest)
  | none => ClassId.ofName (Text.afterLast '/' path)

/-- The internal name of the class at a location. -/
def className (l : Location) : ClassId :=
  match (l.entry?.bind (Text.dropTail? classSuffix)).filter (· != "") with
  | some name => ClassId.ofName name
  | none => nameOfPath (Text.dropTail classSuffix l.logicalPath)

end Location

end ClassViewer
