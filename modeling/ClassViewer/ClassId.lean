import ClassViewer.Text.Basic

/-!
# Class identifiers

The slash-separated internal name of a class, such as `com/example/Widget`.
-/

namespace ClassViewer

/-- The suffix of class files. -/
def classSuffix : String := ".class"

/-- The internal name of a class. -/
structure ClassId where
  text : String
  deriving DecidableEq, Repr, Inhabited

/-- The last slash-separated segment of a name. -/
def simpleName (name : String) : String := Text.afterLast '/' name

namespace ClassId

/-- The identifier for a written name: backslashes become slashes, one class suffix and all leading
slashes go. -/
def ofName (name : String) : ClassId :=
  ⟨Text.dropLeading '/' (Text.dropTail classSuffix (Text.replaceChar '\\' '/' name))⟩

/-- The last segment. -/
def simpleName (id : ClassId) : String := ClassViewer.simpleName id.text

/-- Everything before the last segment, without the slash between them. -/
def package? (id : ClassId) : Option String :=
  let parts := Text.split '/' id.text
  if parts.length ≤ 1 then none else some (Text.join "/" parts.dropLast)

/-- The path of the class file below a class-path root. -/
def classPath (id : ClassId) : String := id.text ++ classSuffix

/-- The name with dots for slashes. -/
def dotted (id : ClassId) : String := Text.replaceChar '/' '.' id.text

/-- Identifiers in the order of their text. -/
def sort (ids : List ClassId) : List ClassId := ids.mergeSort fun a b => decide (a.text ≤ b.text)

end ClassId

end ClassViewer
