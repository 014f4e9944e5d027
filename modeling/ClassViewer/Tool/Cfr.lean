import ClassViewer.Engine.Cfr
import ClassViewer.Tool.Jar
import ClassViewer.Tool.Scratch

/-!
# CFR as a tool

The class is written to a scratch directory. The classes around it are found in the archive they
come from, or are written beside it.
-/

namespace ClassViewer.Cfr

/-- The directory for classes in the scratch directory. -/
def classpathName : String := "classpath"

/-- Writes the classes of a source beside the one at `classPath`; one without bytes is passed over.
-/
def writeOthers (scratch : Scratch) (source : Source) (classPath : String) :
    List String → HostM (Except Failure Unit)
  | [] => return .ok ()
  | path :: rest => do
    if path = classPath then writeOthers scratch source classPath rest
    else match ← source.content path with
      | none => writeOthers scratch source classPath rest
      | some bytes =>
        match ← scratch.write (classpathName ++ "/" ++ path) bytes with
        | .error f => return .error f
        | .ok _ => writeOthers scratch source classPath rest

/-- Where the tool finds the classes around: the archive, or the scratch directory they are written
to. -/
def extraClasspath (scratch : Scratch) (source : Source) (classPath : String) :
    HostM (Except Failure Path) := do
  match source.archivePath with
  | some archive => return .ok archive
  | none =>
    match ← writeOthers scratch source classPath (← source.knownPaths) with
    | .error f => return .error f
    | .ok () => return .ok (scratch.root.join ⟨classpathName⟩)

/-- The arguments of the tool. -/
def arguments (target extra : Path) (options : Options) : List String :=
  [target.text, "--extraclasspath", extra.text, "--silent", "true"] ++
    options.flatMap fun o => ["--" ++ o.1, o.2]

/-- What the tool prints for the class at a path. -/
def toolText (tool : JarTool) (classPath : String) (source : Source) (options : Options)
    (scratch : Scratch) : HostM (Except Failure String) := do
  match ← source.content classPath with
  | none => return .error (.ofMessage ("Could not load class: " ++ classPath))
  | some bytes =>
    match ← scratch.write (classpathName ++ "/" ++ classPath) bytes with
    | .error f => return .error f
    | .ok target =>
      match ← extraClasspath scratch source classPath with
      | .error f => return .error f
      | .ok extra => tool.runForText "CFR" (arguments target extra options)

/-- The back end that runs the tool. It knows of no line numbers. -/
def ofTool (tool : JarTool) : Backend := fun classPath source _ options => do
  match ← Scratch.within "cfr" (toolText tool classPath source options) with
  | .ok text => return ⟨[.text text], .ok ()⟩
  | .error f => return ⟨[], .error f⟩

end ClassViewer.Cfr
