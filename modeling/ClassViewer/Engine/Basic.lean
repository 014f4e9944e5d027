import ClassViewer.Lines.Realign
import ClassViewer.Scope
import ClassViewer.Text.Blank

/-!
# Decompiler engines

An engine turns the bytes of a class into source text that ends in an attribution footer. Each
engine is an adapter over a back end: it hands the back end what it asks for, folds the calls the
back end makes into a text, and realigns the text by the line information among them.
-/

namespace ClassViewer

/-- Who an engine is. -/
structure Descriptor where
  id : String
  displayName : String
  description : String
  deriving DecidableEq, Repr, Inhabited

/-- The line that names an engine. -/
def attribution (d : Descriptor) : String := "// Decompiled with " ++ d.displayName

/-- The text with the footer of an engine. -/
def withFooter (text : String) (d : Descriptor) : String :=
  text ++ "\n\n" ++ attribution d ++ "\n"

/-- Whether a text ends in the footer of an engine, white space at its end aside. -/
def hasFooter (text : String) (d : Descriptor) : Bool :=
  Text.endsWith (attribution d) (Text.trimEnd text)

/-- An engine: it decompiles a class from its bytes, with a scope for every other class. -/
structure Engine where
  descriptor : Descriptor
  decompile : ClassId → ByteArray → Scope → Bool → HostM (Except DecompileError String)

/-- What a back end did: the calls it made in order, and whether it succeeded. -/
structure Report (Call : Type) where
  calls : List Call
  outcome : Except Failure Unit

/-- The error of an engine whose back end failed. -/
def Descriptor.failure (d : Descriptor) (f : Failure) : DecompileError :=
  .engine d.displayName f.message

end ClassViewer
