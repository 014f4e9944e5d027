import ClassViewer.Archive.Zip
import ClassViewer.ClassId

/-!
# Errors of a decompilation

`DecompileError` is every way a request can fail. A `Failure` is what a back end or a command
reports: a message with the contexts it was given on its way up, outermost first.
-/

namespace ClassViewer

/-- Why a class could not be decompiled, or a preference not be stored. -/
inductive DecompileError where
  /-- The scope has no bytes for the class. -/
  | notFound (id : ClassId)
  /-- The class file, or the archive that holds it, is not a plain file. -/
  | containerUnresolvable (detail : String)
  /-- A decompiler failed. -/
  | engine (engine : String) (text : String)
  /-- Decompiled text cannot be written back. -/
  | readOnly (text : String)
  /-- A file could not be read or written. -/
  | io (e : IoError)
  /-- An archive could not be read. -/
  | archive (e : Archive.ArchiveError)
  /-- The preferences could not be read or written. -/
  | store (text : String)
  deriving DecidableEq, Repr

namespace DecompileError

/-- The category of the error. -/
def kind : DecompileError → String
  | notFound _ => "NotFound"
  | containerUnresolvable _ => "ContainerUnresolvable"
  | engine _ _ => "DecompilationError"
  | readOnly _ => "ReadOnlyViolation"
  | io _ => "IoError"
  | archive _ => "ArchiveError"
  | store _ => "StoreError"

/-- The text of the error. -/
def message : DecompileError → String
  | notFound id => "Cannot load: " ++ id.text
  | containerUnresolvable detail => "Container unresolvable: " ++ detail
  | engine name text => name ++ " failed: " ++ text
  | readOnly text => text
  | io e => "IO error: " ++ e.message
  | archive e => "Archive error: " ++ e.message
  | store text => "Preference store error: " ++ text

/-- The texts of the errors behind the error, nearest first. -/
def causes : DecompileError → List String
  | io e => [e.message]
  | archive (.io e) => [e.message, e.message]
  | archive e => [e.message]
  | _ => []

end DecompileError

/-- A reported failure: the texts from the outermost context to the innermost cause. -/
structure Failure where
  outermost : String
  causes : List String
  deriving DecidableEq, Repr

namespace Failure

/-- A failure with a message and nothing behind it. -/
def ofMessage (text : String) : Failure := ⟨text, []⟩

/-- A failure from an input or output error. -/
def ofIo (e : IoError) : Failure := ⟨e.message, []⟩

/-- A failure from a decompilation error, with what is behind it. -/
def ofError (e : DecompileError) : Failure := ⟨e.message, e.causes⟩

/-- The failure inside a further context. -/
def inContext (f : Failure) (context : String) : Failure := ⟨context, f.outermost :: f.causes⟩

/-- All texts on one line, joined by colons. -/
def message (f : Failure) : String := Text.join ": " (f.outermost :: f.causes)

end Failure

end ClassViewer
