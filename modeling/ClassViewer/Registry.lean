import ClassViewer.Engine.Basic
import ClassViewer.Preferences.Store

/-!
# The registry of engines

The engines in the order they are presented in, and the selection among them. What is selected is
read from the preference store on every question, so registries that share a store agree.
-/

namespace ClassViewer

/-- The preference that holds the selected engine. -/
def selectedKey : String := "selectedDecompiler"

/-- The preference that says whether lines are preserved. -/
def preserveLinesKey : String := "preserveLineNumbers"

/-- The engine selected when nothing is stored. -/
def defaultEngine : String := "cfr"

/-- Lines are preserved when nothing is stored. -/
def defaultPreserveLines : Bool := true

/-- The engine with an id in a list of engines. -/
def findEngine (engines : List Engine) (id : String) : Option Engine :=
  engines.find? fun e => e.descriptor.id == id

/-- The list with an engine added at its end, or in place of the engine with the same id. -/
def addEngine (engines : List Engine) (e : Engine) : List Engine :=
  match findEngine engines e.descriptor.id with
  | some _ => engines.map fun old => if old.descriptor.id = e.descriptor.id then e else old
  | none => engines ++ [e]

/-- Registered engines, at least one, with the store of the preferences. -/
structure Registry where
  first : Engine
  others : List Engine
  store : Store

namespace Registry

/-- A registry with its first engine. -/
def new (store : Store) (first : Engine) : Registry := ⟨first, [], store⟩

/-- All engines in order. -/
def engines (r : Registry) : List Engine := r.first :: r.others

/-- Adds an engine; one with the same id is replaced in its place. -/
def register (r : Registry) (e : Engine) : Registry :=
  if r.first.descriptor.id = e.descriptor.id then { r with first := e }
  else { r with others := addEngine r.others e }

/-- Who the engines are. -/
def descriptors (r : Registry) : List Descriptor := r.engines.map (·.descriptor)

/-- The engine with an id. -/
def engine? (r : Registry) (id : String) : Option Engine := findEngine r.engines id

/-- The stored id, registered or not. -/
def selectedId (r : Registry) : HostM String := r.store.getOr selectedKey defaultEngine

/-- The engine for a stored id: the one with that id, else the default engine, else the first. -/
def engineFor (r : Registry) (id : String) : Engine :=
  ((r.engine? id).or (r.engine? defaultEngine)).getD r.first

/-- The selected engine. -/
def selected (r : Registry) : HostM Engine := do return r.engineFor (← r.selectedId)

/-- Stores the selection; an id that is not registered is ignored. -/
def select (r : Registry) (id : String) : HostM (Except DecompileError Unit) :=
  match r.engine? id with
  | none => pure (.ok ())
  | some _ => r.store.put selectedKey id

/-- Whether lines are to be preserved. -/
def preservesLines (r : Registry) : HostM Bool :=
  r.store.getBool preserveLinesKey defaultPreserveLines

/-- Stores whether lines are to be preserved. -/
def setPreservesLines (r : Registry) (b : Bool) : HostM (Except DecompileError Unit) :=
  r.store.putBool preserveLinesKey b

/-- The ids of the engines, for messages. -/
def idList (r : Registry) : String := Text.join ", " (r.descriptors.map (·.id))

end Registry

end ClassViewer
