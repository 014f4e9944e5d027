import ClassViewer.Error
import ClassViewer.Host

/-!
# Preference stores

A store keeps a text under a key. Reads and writes may fail; a read with a default takes the default
then.
-/

namespace ClassViewer

/-- Where preferences are kept. A write is done before it is answered. -/
structure Store where
  get : String → HostM (Except DecompileError (Option String))
  put : String → String → HostM (Except DecompileError Unit)

namespace Store

/-- The value of a key, or the default if it is unset or cannot be read. -/
def getOr (s : Store) (key default : String) : HostM String := do
  match ← s.get key with
  | .ok (some value) => return value
  | _ => return default

/-- The truth value of a key, or the default if it is anything but `true` or `false`. -/
def getBool (s : Store) (key : String) (default : Bool) : HostM Bool := do
  match ← s.get key with
  | .ok (some value) =>
    return if value = "true" then true else if value = "false" then false else default
  | _ => return default

/-- How a truth value is stored. -/
def boolText (b : Bool) : String := if b then "true" else "false"

/-- Stores a truth value. -/
def putBool (s : Store) (key : String) (value : Bool) : HostM (Except DecompileError Unit) :=
  s.put key (boolText value)

/-! ## Stores in memory -/

/-- The store in the table of that number. -/
def inMemory (i : Nat) : Store where
  get key := do return .ok (((← MonadState.get).tables.getD i []).lookup key)
  put key value := do
    modify fun h => { h with tables := h.tables.modify i (·.put key value) }
    return .ok ()

/-- A new store in memory, without any value. -/
def newInMemory : HostM Store := do
  let h ← MonadState.get
  set { h with tables := h.tables ++ [[]] }
  return inMemory h.tables.length

end Store

end ClassViewer
