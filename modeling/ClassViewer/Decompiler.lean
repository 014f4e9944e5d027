import ClassViewer.Document
import ClassViewer.Registry

/-!
# Decompiling a location

A location is resolved to the bytes of its class and to the scope around it, an engine is picked,
and its text or the reason for its absence is the answer. `diagnostic` puts an error into comment
lines that can be shown in place of source.
-/

namespace ClassViewer

/-- What a request may set for itself, in place of the stored preferences. -/
structure Overrides where
  engine : Option String
  preserveLines : Option Bool
  deriving DecidableEq, Repr, Inhabited

/-- The overrides that override nothing. -/
def Overrides.none : Overrides := ⟨.none, .none⟩

/-- A decompiled class. -/
structure Decompiled where
  id : ClassId
  engine : Descriptor
  text : String
  deriving DecidableEq, Repr

/-- The archive of a location as a plain file. -/
def Location.archiveFile (l : Location) (h : Host) : Except DecompileError Path :=
  match l with
  | .file path => .error (.containerUnresolvable (path.text ++ " is not inside an archive"))
  | .archived none entry =>
    .error (.containerUnresolvable ("Cannot determine archive for: " ++ entry))
  | .archived (some archive) _ =>
    if h.isFile archive then .ok archive
    else .error (.containerUnresolvable ("Cannot get file for archive: " ++ archive.text))

/-- The class at a location with its bytes and the scope around it. -/
structure Subject where
  id : ClassId
  bytes : ByteArray
  scope : Scope

/-- The directory a class file lies in. -/
def directoryOf (p : Path) : Path :=
  match p.parent? with
  | some above => if above.text = "" then ⟨"."⟩ else above
  | none => ⟨"."⟩

/-- Finds the class at a location. -/
def Location.subject (l : Location) (h : Host) : Except DecompileError Subject :=
  match l with
  | .file path =>
    if !h.isFile path then
      .error (.containerUnresolvable ("Cannot get file for: " ++ path.text))
    else match h.read path with
      | .error e => .error (.io e)
      | .ok bytes =>
        .ok ⟨l.className, bytes, Scope.siblings (directoryOf path) ⟨l.className, bytes⟩⟩
  | .archived _ _ => do
    let archive ← l.archiveFile h
    let index ← ArchiveIndex.ofFile h archive
    match index.get? l.className.text with
    | some bytes => .ok ⟨l.className, bytes, index.scope⟩
    | none => .error (.notFound l.className)

namespace Registry

/-- The engine for a request: the one asked for if it is registered, else the selected one. -/
def pick (r : Registry) (o : Overrides) : HostM Engine :=
  match o.engine.bind r.engine? with
  | some e => pure e
  | none => r.selected

/-- Decompiles a class that was found. -/
def run (r : Registry) (o : Overrides) (s : Subject) :
    HostM (Except DecompileError Decompiled) := do
  let engine ← r.pick o
  let preserve ← match o.preserveLines with
    | some b => pure b
    | none => r.preservesLines
  match ← engine.decompile s.id s.bytes s.scope preserve with
  | .ok text => return .ok ⟨s.id, engine.descriptor, text⟩
  | .error e => return .error e

/-- Decompiles the class at a location. -/
def tryDecompile (r : Registry) (l : Location) (o : Overrides) :
    HostM (Except DecompileError Decompiled) := do
  match l.subject (← get) with
  | .error e => return .error e
  | .ok s => r.run o s

/-! ## Diagnostics -/

/-- A message that stays inside the line comment it is put in. -/
def commentSafe (message : String) : String := Text.expandChar '\n' "\n// " (Text.trim message)

/-- The ids of the engines other than those with a display name, in order. -/
def alternatives (r : Registry) (displayName : String) : List String :=
  (r.descriptors.filter fun d => d.displayName != displayName).map (·.id)

/-- The hint at the end of the diagnostic of a failed engine. -/
def hint (others : List String) : String :=
  match others with
  | [] => "// Try selecting a different decompiler\n"
  | first :: _ =>
    "// Try selecting a different decompiler with `class-lens select " ++ first ++
      "` (available: " ++ Text.join ", " others ++ ")\n"

/-- Comment lines that describe an error. -/
def diagnostic (r : Registry) (e : DecompileError) : String :=
  match e with
  | .engine name message =>
    "// Decompilation failed with " ++ name ++ "\n// Error: " ++ commentSafe message ++ "\n" ++
      hint (r.alternatives name)
  | other =>
    "// Error during decompilation: " ++ commentSafe other.message ++ "\n// " ++ other.kind ++ "\n"

/-- The text to show for a location: its source, or why there is none. -/
def decompile (r : Registry) (l : Location) (o : Overrides) : HostM String := do
  match ← r.tryDecompile l o with
  | .ok d => return d.text
  | .error e => return r.diagnostic e

end Registry

end ClassViewer
