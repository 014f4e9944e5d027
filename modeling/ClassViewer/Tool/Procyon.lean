import ClassViewer.Engine.Procyon
import ClassViewer.Tool.Jar
import ClassViewer.Tool.Scratch

/-!
# Procyon as a tool
-/

namespace ClassViewer.Procyon

/-- The flags of settings. -/
def flags (s : Settings) : List String :=
  (if s.showSynthetic then ["-ss"] else []) ++ (if s.explicitImports then ["-ei"] else []) ++
    (if s.keepPointlessSwitches then ["-ps"] else [])

/-- What the tool prints for a class with those bytes. -/
def toolText (tool : JarTool) (name : String) (bytes : ByteArray) (settings : Settings)
    (scratch : Scratch) : HostM (Except Failure String) := do
  match ← scratch.write (name ++ classSuffix) bytes with
  | .error f => return .error f
  | .ok target => tool.runForText "Procyon" (flags settings ++ [target.text])

/-- The back end that runs the tool. -/
def ofTool (tool : JarTool) : Backend := fun name loader settings => do
  let (found, bytes) ← loader.tryLoad name ByteArray.empty
  if found then Scratch.within "procyon" (toolText tool name bytes settings)
  else return .error (.ofMessage ("Could not load type: " ++ name))

end ClassViewer.Procyon
