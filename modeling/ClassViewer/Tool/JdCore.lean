import ClassViewer.Engine.JdCore
import ClassViewer.Tool.Jar
import ClassViewer.Tool.Scratch

/-!
# JD-Core as a tool

The tool prints to the console, and its lines are replayed into the printer without line numbers.
-/

namespace ClassViewer.JdCore

/-- What the tool prints for a class. -/
def toolText (tool : JarTool) (loader : Scope) (name : String) (scratch : Scratch) :
    HostM (Except Failure String) := do
  match loader.load (← get) name with
  | .error e => return .error (.ofError e)
  | .ok blob =>
    match ← scratch.write blob.id.classPath blob.bytes with
    | .error f => return .error f
    | .ok target => tool.runForText "JD-Core" ["--outputConsole", target.text]

/-- The calls that print one line of unknown origin. -/
def lineCalls (line : String) : List Call := [.startLine 0, .text line, .endLine]

/-- The calls that print a text line by line. -/
def replay (text : String) : List Call :=
  .start 0 0 0 :: (Text.outputLines text).flatMap lineCalls ++ [.finish]

/-- The back end that runs the tool. -/
def ofTool (tool : JarTool) : Backend := fun loader name => do
  match ← Scratch.within "jd" (toolText tool loader name) with
  | .ok text => return ⟨replay text, .ok ()⟩
  | .error f => return ⟨[], .error f⟩

end ClassViewer.JdCore
