import ClassViewer.Engine.Basic

/-!
# Vineflower

Vineflower asks for bytes by the path of a file outside, saves each class it has decompiled with a
flat list of line numbers, and logs messages. When it saves no text, the engine shows the problems
logged.
-/

namespace ClassViewer.Vineflower

def descriptor : Descriptor where
  id := "vineflower"
  displayName := "Fernflower (Vineflower)"
  description := "Fernflower/Vineflower - IntelliJ IDEA style decompilation"

/-- Options by name, in the order of their names. -/
abbrev Options := List (String × String)

/-- The options Vineflower is run with; preserving lines asks for the source mapping. -/
def options (preserve : Bool) : Options :=
  [("asc", "1")] ++ (if preserve then [("bsm", "1")] else []) ++
    [("dgs", "1"), ("ind", "    "), ("rbr", "1"), ("rsy", "1"), ("udv", "1")]

/-- How grave a message is. -/
inductive Severity where
  | trace
  | info
  | warn
  | error
  deriving DecidableEq, Repr

/-- The name of a severity. -/
def Severity.label : Severity → String
  | trace => "TRACE"
  | info => "INFO"
  | warn => "WARN"
  | error => "ERROR"

/-- Whether a message of this severity is a problem. -/
def Severity.isProblem : Severity → Bool
  | trace | info => false
  | warn | error => true

/-- A decompiled class: where it was saved, and its text with flat line pairs. -/
structure Saved where
  path : String
  qualifiedName : String
  entryName : String
  content : String
  lines : Option (List Int)
  deriving DecidableEq, Repr

/-- What Vineflower sends. -/
inductive Call where
  | save (s : Saved)
  | log (severity : Severity) (message : String)
  deriving DecidableEq, Repr

/-- Bytes by the path of a class file. -/
structure Provider where
  bytecode : String → HostM (Except Failure (Option ByteArray))

/-- A Vineflower back end: given the path of the class file, a provider and options. -/
abbrev Backend := Path → Provider → Options → HostM (Report Call)

/-! ## Classes by path -/

/-- The runs of segments at the end of a path, longest first. -/
def trailingRuns : List String → List (List String)
  | [] => []
  | seg :: rest => (seg :: rest) :: trailingRuns rest

/-- Whether a path with slashes only is taken for that of the primary class. -/
def namesPrimary (primary : ClassId) (path : String) : Bool :=
  Text.endsWith primary.classPath path || simpleName path == primary.simpleName ++ classSuffix

/-- The class a path outside stands for: the primary class if the path ends in its class path or in
its file name, else the longest run of segments at the end that can be loaded. -/
def classForPath (scope : Scope) (primary : ClassId) (h : Host) (path : String) : Option String :=
  let path := Text.replaceChar '\\' '/' path
  if namesPrimary primary path then some primary.text
  else
    let segs := (Text.split '/' (Text.dropTail classSuffix path)).filter (· != "")
    ((trailingRuns segs).map (Text.join "/")).find? (scope.canLoad h)

/-- The bytes for a path outside. -/
def bytecodeIn (scope : Scope) (primary : ClassId) (h : Host) (path : String) :
    Except DecompileError (Option ByteArray) :=
  match classForPath scope primary h path with
  | none => .ok none
  | some name => (scope.load h name).map fun blob => some blob.bytes

/-- The provider over a scope. -/
def Provider.ofScope (scope : Scope) (primary : ClassId) : Provider where
  bytecode path := do
    match bytecodeIn scope primary (← get) path with
    | .ok bytes => return .ok bytes
    | .error e => return .error (Failure.ofError e)

/-! ## Text -/

/-- The text of a saved class, realigned if lines are preserved and known. -/
def savedText (preserve : Bool) (s : Saved) : String :=
  if s.content = "" then ""
  else match s.lines with
    | some flat =>
      if preserve && !flat.isEmpty then realign s.content (LineMapping.ofFlat flat) else s.content
    | none => s.content

/-- What a call adds to the text. -/
def Call.text (preserve : Bool) : Call → String
  | save s => savedText preserve s
  | log _ _ => ""

/-- What a call adds to the problems shown when there is no text. -/
def Call.problem : Call → String
  | save _ => ""
  | log severity message =>
    if severity.isProblem then "// " ++ severity.label ++ ": " ++ message ++ "\n" else ""

/-- The texts of all saved classes, one after the other. -/
def savedTexts (preserve : Bool) (calls : List Call) : String :=
  Text.join "" (calls.map (Call.text preserve))

/-- What stands in place of text: a comment with the problems. -/
def noOutput (calls : List Call) : String :=
  "// Decompilation produced no output\n" ++ Text.join "" (calls.map Call.problem)

/-- The text of the calls. -/
def render (preserve : Bool) (calls : List Call) : String :=
  let text := savedTexts preserve calls
  if text = "" then noOutput calls else text

/-- What the engine makes of a report. -/
def finish (preserve : Bool) (r : Report Call) : Except DecompileError String :=
  match r.outcome with
  | .ok () => .ok (withFooter (render preserve r.calls) descriptor)
  | .error f => .error (descriptor.failure f)

/-- The path outside that stands for a class. -/
def sourcePath (h : Host) (id : ClassId) : Path := h.temporary.join ⟨id.classPath⟩

/-- The engine over a back end. -/
def engine (backend : Backend) : Engine where
  descriptor := descriptor
  decompile id bytes scope preserve := do
    let provider := Provider.ofScope (scope.primaryFirst id bytes) id
    return finish preserve (← backend (sourcePath (← get) id) provider (options preserve))

end ClassViewer.Vineflower
