import ClassViewer.Text.Basic

/-!
# Paths

A path is text. Its components are what the text means: the root, names, `..`, and a `.` only where
it leads a relative path; empty segments and any other `.` are passed over. Two paths are the same
when their components are, and paths are ordered by component.
-/

namespace ClassViewer

/-- A path as it was written. -/
structure Path where
  text : String
  deriving DecidableEq, Repr, Inhabited

namespace Path

/-- One component of a path. -/
inductive Component where
  | root
  | current
  | parent
  | name (n : String)
  deriving DecidableEq, Repr

/-- Whether the path starts at the root. -/
def isAbsolute (p : Path) : Bool := p.text.toList.head? == some '/'

/-- The segments between slashes with their positions. -/
def segments (p : Path) : List (String × Nat) := (Text.split '/' p.text).zipIdx

/-- Whether a segment counts as a component: it is not empty, and not a `.` unless it leads. -/
def isSignificant (seg : String × Nat) : Bool := seg.1 != "" && (seg.1 != "." || seg.2 == 0)

/-- The component of a significant segment. -/
def Component.ofSegment (s : String) : Component :=
  if s = "." then .current else if s = ".." then .parent else .name s

/-- The components in order. -/
def components (p : Path) : List Component :=
  (if p.isAbsolute then [Component.root] else []) ++
    (p.segments.filter isSignificant).map fun seg => Component.ofSegment seg.1

/-- Whether two spellings name the same path. -/
def same (p q : Path) : Bool := p.components == q.components

/-- The text of the path up to and including the segment at position `i`. -/
def upTo (p : Path) (i : Nat) : Path := ⟨Text.join "/" ((Text.split '/' p.text).take (i + 1))⟩

/-- The path without its last component; the root and the empty path have none. -/
def parent? (p : Path) : Option Path :=
  match (p.segments.filter isSignificant).reverse with
  | [] => none
  | [_] => some ⟨if p.isAbsolute then "/" else ""⟩
  | _ :: before :: _ => some (p.upTo before.2)

/-- The last component, if it is a name. -/
def fileName? (p : Path) : Option String :=
  match p.components.getLast? with
  | some (.name n) => some n
  | _ => none

/-- What follows the last dot of a file name; a name whose only dot leads it has none. -/
def extensionOf? (name : String) : Option String :=
  match Text.split '.' name with
  | [] | [_] => none
  | [first, last] => if first = "" then none else some last
  | parts => parts.getLast?

/-- The extension of the last component. -/
def extension? (p : Path) : Option String := p.fileName?.bind extensionOf?

/-- The path `q` as seen from `p`. -/
def join (p q : Path) : Path :=
  if q.isAbsolute ∨ p.text = "" then q
  else if Text.endsWith "/" p.text then ⟨p.text ++ q.text⟩
  else ⟨p.text ++ "/" ++ q.text⟩

/-- The path with a text appended to its last segment. -/
def append (p : Path) (s : String) : Path := ⟨p.text ++ s⟩

/-- The rank of the kinds of components, names last. -/
def Component.rank : Component → Nat
  | root => 0
  | current => 1
  | parent => 2
  | name _ => 3

/-- The order of components: by kind, then by the characters of the name. -/
def Component.before : Component → Component → Bool
  | name a, name b => decide (a < b)
  | a, b => decide (a.rank < b.rank)

/-- The order of lists of components: the first difference decides, and a beginning comes first. -/
def componentsBefore : List Component → List Component → Bool
  | [], [] => false
  | [], _ :: _ => true
  | _ :: _, [] => false
  | a :: as, b :: bs => if a = b then componentsBefore as bs else a.before b

/-- Whether `p` comes strictly before `q` in path order. -/
def before (p q : Path) : Bool := componentsBefore p.components q.components

/-- Paths in path order. -/
def sort (ps : List Path) : List Path := ps.mergeSort fun p q => !(q.before p)

end Path

end ClassViewer
