import ClassViewer.Engine.Basic

/-!
# Procyon

Procyon asks for types by name with a buffer to fill and gives its text back in one piece. It has no
line information that would keep the text compilable, so there is nothing to realign.
-/

namespace ClassViewer.Procyon

def descriptor : Descriptor where
  id := "procyon"
  displayName := "Procyon"
  description := "Procyon by Mike Strobel - Excellent generics support"

/-- What Procyon can be told. -/
structure Settings where
  showSynthetic : Bool
  explicitImports : Bool
  keepPointlessSwitches : Bool
  deriving DecidableEq, Repr

/-- The settings Procyon is run with, whether lines are preserved or not. -/
def settings : Settings := ⟨false, true, false⟩

/-- Fills a buffer with the bytes of a type: whether it could, and the buffer after it. -/
structure Loader where
  tryLoad : String → ByteArray → HostM (Bool × ByteArray)

/-- A Procyon back end: given the name of the class, a loader and settings. -/
abbrev Backend := String → Loader → Settings → HostM (Except Failure String)

/-- What a scope makes of a buffer: its bytes for the name, or the buffer as it was. -/
def fill (scope : Scope) (h : Host) (name : String) (buffer : ByteArray) : Bool × ByteArray :=
  if !scope.canLoad h name then (false, buffer)
  else match scope.load h name with
    | .ok blob => (true, blob.bytes)
    | .error _ => (false, buffer)

/-- The loader over a scope. -/
def Loader.ofScope (scope : Scope) : Loader where
  tryLoad name buffer := do return fill scope (← get) name buffer

/-- What the engine makes of a result. -/
def finish (r : Except Failure String) : Except DecompileError String :=
  match r with
  | .ok text => .ok (withFooter text descriptor)
  | .error f => .error (descriptor.failure f)

/-- The engine over a back end. -/
def engine (backend : Backend) : Engine where
  descriptor := descriptor
  decompile id bytes scope _ := do
    return finish (← backend id.text (Loader.ofScope (scope.primaryFirst id bytes)) settings)

end ClassViewer.Procyon
