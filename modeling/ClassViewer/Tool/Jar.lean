import ClassViewer.Error
import ClassViewer.Text.Blank
import ClassViewer.Tool.Execute

/-!
# Tool jars

A decompiler that comes as a jar is run by `java`. A jar that is missing is downloaded when it is
first needed, if it is known where from.
-/

namespace ClassViewer

/-- A jar and how it is run. -/
structure JarTool where
  java : Path
  jar : Path
  download : Option String
  deriving DecidableEq, Repr

namespace JarTool

/-- The arguments a jar is downloaded with. -/
def downloadArguments (target : Path) (url : String) : List String :=
  ["-L", "--fail", "--silent", "--show-error", "-o", target.text, url]

/-- Makes the directory a jar is to lie in. -/
def makeRoom (target : Path) : HostM (Except Failure Unit) := do
  match target.parent? with
  | none => return .ok ()
  | some above =>
    match ← Host.makeDirectories above with
    | .ok () => return .ok ()
    | .error e =>
      return .error ((Failure.ofIo e).inContext ("Failed to create directory: " ++ above.text))

/-- The failure if the program that downloads cannot be started. -/
def unstartedFailure (e : IoError) : Failure :=
  (Failure.ofIo e).inContext
    "Failed to execute curl (ensure curl is installed, or pass the jar path)"

/-- The failure if a download fails. -/
def downloadFailure (url : String) (status : ExitStatus) : Failure :=
  .ofMessage ("Failed to download " ++ url ++ " (exit status: " ++ status.message ++
    "). Pass a local jar path instead")

/-- Downloads a jar; what a failed download has left is removed. -/
def install (target : Path) (url : String) : HostM (Except Failure Unit) := do
  match ← makeRoom target with
  | .error f => return .error f
  | .ok () =>
    match ← Host.executeInPlace ⟨"curl"⟩ (downloadArguments target url) with
    | .error e => return .error (unstartedFailure e)
    | .ok status =>
      if status.isSuccess then return .ok ()
      else
        let _ ← Host.removeFile target
        return .error (downloadFailure url status)

/-- The failure if a jar is missing and it is not known where it comes from. -/
def missingFailure (jar : Path) : Failure :=
  .ofMessage ("Tool jar not found: " ++ jar.text ++
    " (configure its path on the command line or via environment)")

/-- Sees to it that the jar is there. -/
def ensure (t : JarTool) : HostM (Except Failure Unit) := do
  if (← get).leads t.jar then return .ok ()
  else match t.download with
    | some url => install t.jar url
    | none => return .error (missingFailure t.jar)

/-- Runs the jar. -/
def run (t : JarTool) (args : List String) : HostM (Except Failure Finished) := do
  match ← t.ensure with
  | .error f => return .error f
  | .ok () =>
    match ← Host.execute t.java ("-jar" :: t.jar.text :: args) with
    | .ok finished => return .ok finished
    | .error e =>
      return .error ((Failure.ofIo e).inContext
        "Failed to execute java (ensure JRE/JDK is installed)")

/-- What a finished run printed, or what it complained of if it failed. -/
def printedText (tool : String) (finished : Finished) : Except Failure String :=
  if finished.status.isSuccess then .ok (Text.Utf8.decodeLossy finished.stdout)
  else
    .error (.ofMessage (tool ++ " decompilation failed: " ++
      Text.trim (Text.Utf8.decodeLossy finished.stderr)))

/-- Runs the jar for what it prints. -/
def runForText (t : JarTool) (tool : String) (args : List String) :
    HostM (Except Failure String) := do
  return (← t.run args).bind (printedText tool)

end JarTool

end ClassViewer
