import ClassViewer.Engine.Basic

/-!
# CFR

CFR asks for classes by the path of their file and sends its text in pieces, with line numbers in
batches beside it.
-/

namespace ClassViewer.Cfr

def descriptor : Descriptor where
  id := "cfr"
  displayName := "CFR"
  description := "CFR by Lee Benfield - Excellent Java 8-21+ support"

/-- Options by name, in the order of their names. -/
abbrev Options := List (String × String)

/-- The options CFR is run with. -/
def options : Options :=
  [("comments", "false"), ("hideutf", "false"), ("innerclasses", "true"), ("showversion", "false")]

/-- Class bytes by file path, as CFR asks for them. -/
structure Source where
  content : String → HostM (Option ByteArray)
  /-- The paths the source can list. -/
  knownPaths : HostM (List String)
  /-- The archive behind the source, if there is one. -/
  archivePath : Option Path

/-- What CFR sends. -/
inductive Call where
  | text (t : String)
  | lineNumbers (pairs : List (LineNumber × LineNumber))
  deriving DecidableEq, Repr

/-- A CFR back end: given the path of the class file, a source, whether line numbers are wanted, and
options. -/
abbrev Backend := String → Source → Bool → Options → HostM (Report Call)

/-- The bytes a scope has for a file path. -/
def contentIn (scope : Scope) (h : Host) (path : String) : Option ByteArray :=
  let name := Text.dropTail classSuffix path
  if !scope.canLoad h name then none
  else match scope.load h name with
    | .ok blob => some blob.bytes
    | .error _ => none

/-- The source over a scope. -/
def Source.ofScope (scope : Scope) : Source where
  content path := do return contentIn scope (← get) path
  knownPaths := do return (scope.classNames (← get)).map ClassId.classPath
  archivePath := scope.archivePath

/-- What was received so far. -/
structure Sink where
  text : String
  mapping : LineMapping

/-- Receives a call; line numbers count only if they are preserved. -/
def Sink.receive (preserve : Bool) (s : Sink) : Call → Sink
  | .text t => { s with text := s.text ++ t }
  | .lineNumbers pairs => if preserve then { s with mapping := s.mapping.extend pairs } else s

/-- What a list of calls leaves. -/
def collect (preserve : Bool) (calls : List Call) : Sink :=
  calls.foldl (Sink.receive preserve) ⟨"", LineMapping.empty⟩

/-- The text of the calls, realigned if lines are preserved. -/
def render (preserve : Bool) (calls : List Call) : String :=
  let s := collect preserve calls
  if preserve && !s.mapping.isEmpty then realign s.text s.mapping else s.text

/-- What the engine makes of a report. -/
def finish (preserve : Bool) (r : Report Call) : Except DecompileError String :=
  match r.outcome with
  | .ok () => .ok (withFooter (render preserve r.calls) descriptor)
  | .error f => .error (descriptor.failure f)

/-- The engine over a back end. -/
def engine (backend : Backend) : Engine where
  descriptor := descriptor
  decompile id bytes scope preserve := do
    let source := Source.ofScope (scope.primaryFirst id bytes)
    return finish preserve (← backend id.classPath source preserve options)

end ClassViewer.Cfr
