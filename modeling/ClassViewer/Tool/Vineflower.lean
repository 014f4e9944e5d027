import ClassViewer.Disk.Walk
import ClassViewer.Engine.Vineflower
import ClassViewer.Tool.Jar
import ClassViewer.Tool.Scratch

/-!
# Vineflower as a tool

The tool reads the class from one directory and writes source files to another; every source file it
leaves there is saved, in path order. Its complaints are logged as warnings.
-/

namespace ClassViewer.Vineflower

/-- The extension of source files. -/
def sourceExtension : String := "java"

/-- The arguments of the tool. -/
def arguments (options : Options) (target out : Path) : List String :=
  options.map (fun o => "-" ++ o.1 ++ "=" ++ o.2) ++ [target.text, out.text]

/-- The warnings among what the tool wrote to its standard error. -/
def warnings (stderr : ByteArray) : List Call :=
  ((Text.outputLines (Text.Utf8.decodeLossy stderr)).map Text.trim).filterMap fun line =>
    if line = "" then none else some (.log .warn line)

/-- The failure of a walk through the output. -/
def walkFailure (out : Path) (text : String) : Failure :=
  (Failure.ofMessage text).inContext ("Failed to walk output dir: " ++ out.text)

/-- The words for an error at the output directory itself. -/
def rootErrorText (out : Path) (e : IoError) : String :=
  out.text ++ ": IO error for operation on " ++ out.text ++ ": " ++ e.message

/-- The path of an output file inside the output directory. -/
def entryName (out p : Path) : String :=
  Text.replaceChar '\\' '/' ((Text.dropHead? (out.text ++ "/") p.text).getD p.text)

/-- The name of the class in an output file. -/
def qualifiedName (entry : String) : String :=
  (ClassId.ofName (Text.dropTails ("." ++ sourceExtension) entry.toList.length entry)).dotted

/-- Saves output files in order, up to the first that cannot be read. -/
def readOutput (h : Host) (out : Path) : List Path → Report Call
  | [] => ⟨[], .ok ()⟩
  | p :: rest =>
    match h.readText p with
    | .error e => ⟨[], .error ((Failure.ofIo e).inContext ("Failed to read output: " ++ p.text))⟩
    | .ok content =>
      let entry := entryName out p
      let later := readOutput h out rest
      ⟨.save ⟨p.text, qualifiedName entry, entry, content, none⟩ :: later.calls, later.outcome⟩

/-- Saves the source files the tool has left. Faulty ignore files above the output directory make
the walk through it fail. -/
def collectOutput (h : Host) (out : Path) : Report Call :=
  match h.disk.walkProblems h.here out with
  | [] =>
    match h.disk.filesOfKind h.here sourceExtension out with
    | .error e => ⟨[], .error (walkFailure out (rootErrorText out e))⟩
    | .ok files => readOutput h out files
  | problems => ⟨[], .error (walkFailure out (Text.join "\n" problems))⟩

/-- What the back end makes of a finished run. -/
def reportOf (h : Host) (out : Path) (finished : Finished) : Report Call :=
  let logged := warnings finished.stderr
  if finished.status.isSuccess then
    let saved := collectOutput h out
    ⟨logged ++ saved.calls, saved.outcome⟩
  else
    ⟨logged, .error (.ofMessage ("Vineflower exited with status " ++ finished.status.message))⟩

/-- The name of the class file the tool reads. -/
def fileNameOf (source : Path) : String := source.fileName?.getD ("Main" ++ classSuffix)

/-- Runs the tool on a class with those bytes. -/
def runTool (tool : JarTool) (source : Path) (bytes : ByteArray) (options : Options)
    (scratch : Scratch) : HostM (Except Failure (Report Call)) := do
  match ← scratch.write ("in/" ++ fileNameOf source) bytes with
  | .error f => return .error f
  | .ok target =>
    let out := scratch.root.join ⟨"out"⟩
    match ← Host.makeDirectories out with
    | .error e => return .error (.ofIo e)
    | .ok () =>
      match ← tool.run (arguments options target out) with
      | .error f => return .error f
      | .ok finished => return .ok (reportOf (← get) out finished)

/-- The back end that runs the tool. -/
def ofTool (tool : JarTool) : Backend := fun source provider options => do
  match ← provider.bytecode source.text with
  | .error f => return ⟨[], .error f⟩
  | .ok none => return ⟨[], .error (.ofMessage ("Could not load class: " ++ source.text))⟩
  | .ok (some bytes) =>
    match ← Scratch.within "vineflower" (runTool tool source bytes options) with
    | .ok report => return report
    | .error f => return ⟨[], .error f⟩

end ClassViewer.Vineflower
