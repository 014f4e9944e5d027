import ClassViewer.Error
import ClassViewer.Host

/-!
# Scopes

A scope answers which classes can be loaded and with what bytes. `Scope.siblings` serves the class
files of one directory, `ArchiveIndex.scope` those of one archive, and `Scope.primaryFirst` puts the
class being decompiled in front of any other scope.
-/

namespace ClassViewer

/-- The bytes of a class with the name they were loaded for. -/
structure Blob where
  id : ClassId
  bytes : ByteArray
  deriving DecidableEq

/-- Presence and content of classes by name, on a given machine. -/
structure Scope where
  canLoad : Host → String → Bool
  load : Host → String → Except DecompileError Blob
  /-- The classes the scope can list. -/
  classNames : Host → List ClassId
  /-- The archive file behind the scope, if there is one. -/
  archivePath : Option Path

namespace Scope

/-- The scope that loads nothing. -/
def nothing : Scope where
  canLoad _ _ := false
  load _ name := .error (.notFound (ClassId.ofName name))
  classNames _ := []
  archivePath := none

/-! ## The primary class first -/

/-- The scope with the class `id` always answered from `bytes`. -/
def primaryFirst (id : ClassId) (bytes : ByteArray) (scope : Scope) : Scope where
  canLoad h name := name == id.text || scope.canLoad h name
  load h name := if name = id.text then .ok ⟨id, bytes⟩ else scope.load h name
  classNames h :=
    let names := scope.classNames h
    if id ∈ names then names else names ++ [id]
  archivePath := scope.archivePath

/-! ## Siblings -/

/-- The class file of that simple name in a directory. -/
def siblingPath (directory : Path) (name : String) : Path :=
  directory.join ⟨simpleName name ++ classSuffix⟩

/-- The names of the class files in a directory, each in the package of the primary class. -/
def siblingNames (primary : ClassId) (files : List String) : List ClassId :=
  files.filterMap fun file =>
    (Text.dropTail? classSuffix file).map fun stem =>
      match primary.package? with
      | some package => ClassId.ofName (package ++ "/" ++ stem)
      | none => ClassId.ofName stem

/-- The primary class from its bytes, and every other class from the file of its simple name in the
same directory, whatever its package. -/
def siblings (directory : Path) (primary : Blob) : Scope where
  canLoad h name := name == primary.id.text || h.isFile (siblingPath directory name)
  load h name :=
    if name = primary.id.text then .ok primary
    else if !h.isFile (siblingPath directory name) then .error (.notFound (ClassId.ofName name))
    else match h.read (siblingPath directory name) with
      | .ok bytes => .ok ⟨ClassId.ofName name, bytes⟩
      | .error e => .error (.io e)
  classNames h :=
    match h.list directory with
    | .error _ => [primary.id]
    | .ok files =>
      let names := siblingNames primary.id files
      ClassId.sort (if primary.id ∈ names then names else names ++ [primary.id])
  archivePath := none

end Scope

/-! ## Archives -/

/-- The classes of an archive by entry name without the suffix. -/
structure ArchiveIndex where
  classes : List (String × ByteArray)
  archive : Option Path

namespace ArchiveIndex

/-- The index of no archive. -/
def empty : ArchiveIndex := ⟨[], none⟩

/-- Adds the class files among the entries to those in `acc`; a later entry of a name replaces an
earlier one. An entry that cannot be opened, or a class file that cannot be read, fails the whole.
-/
def collect (acc : List (String × ByteArray)) :
    List (Except Archive.ArchiveError Archive.Entry) →
      Except DecompileError (List (String × ByteArray))
  | [] => .ok acc
  | .error e :: _ => .error (.archive e)
  | .ok entry :: rest =>
    if entry.isDirectory || !entry.isEnclosed then collect acc rest
    else match Text.dropTail? classSuffix entry.name with
      | none => collect acc rest
      | some name =>
        match entry.content with
        | .error e => .error (.io e)
        | .ok bytes => collect ((name, bytes) :: acc.filter (·.1 != name)) rest

/-- The index of the archive in some bytes. -/
def ofBytes (data : ByteArray) : Except DecompileError ArchiveIndex :=
  match Archive.entries data with
  | .error e => .error (.archive e)
  | .ok entries => (collect [] entries).map fun classes => ⟨classes, none⟩

/-- The index of the archive in a file. -/
def ofFile (h : Host) (p : Path) : Except DecompileError ArchiveIndex :=
  match h.readMapped p with
  | .error e => .error (.io e)
  | .ok data => (ofBytes data).map fun index => { index with archive := some p }

/-- The number of classes. -/
def size (index : ArchiveIndex) : Nat := index.classes.length

/-- The bytes of a class. -/
def get? (index : ArchiveIndex) (name : String) : Option ByteArray := index.classes.lookup name

/-- The scope of the classes in the archive. -/
def scope (index : ArchiveIndex) : Scope where
  canLoad _ name := (index.get? name).isSome
  load _ name :=
    match index.get? name with
    | some bytes => .ok ⟨ClassId.ofName name, bytes⟩
    | none => .error (.notFound (ClassId.ofName name))
  classNames _ := ClassId.sort (index.classes.map fun c => ClassId.ofName c.1)
  archivePath := index.archive

end ArchiveIndex

end ClassViewer
