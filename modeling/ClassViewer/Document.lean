import ClassViewer.Error
import ClassViewer.Naming
import ClassViewer.Text.Json

/-!
# Decompiled documents

A read-only view of decompiled text under the name of its class file.
-/

namespace ClassViewer

/-- Decompiled text as it is shown. -/
structure Document where
  displayName : String
  text : String
  deriving DecidableEq, Repr

namespace Document

/-- The media type of all documents. -/
def mediaType : String := "text/x-java"

/-- The document of the class at a location. -/
def ofLocation (location : Location) (text : String) : Document := ⟨location.fileName, text⟩

/-- A document has no source behind it, so it never counts as edited. -/
def isModified (_ : Document) : Bool := false

/-- Decompiled text cannot be written back. -/
def writeBack (_ : Document) : Except DecompileError Unit :=
  .error (.readOnly "Decompiled source is read-only")

/-- The document as JSON. -/
def toJson (d : Document) : Json :=
  .obj [("display_name", .str d.displayName), ("mime_type", .str mediaType), ("text", .str d.text)]

end Document

end ClassViewer
