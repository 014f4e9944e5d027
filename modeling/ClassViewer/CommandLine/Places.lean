import ClassViewer.CommandLine.Invocation
import ClassViewer.Engine.Cfr
import ClassViewer.Preferences.Database
import ClassViewer.Tool.Cfr
import ClassViewer.Tool.JdCore
import ClassViewer.Tool.Procyon
import ClassViewer.Tool.Vineflower

/-!
# Places

Where the program keeps its preferences and finds its tools: by option, else by environment
variable, else in the user's data directory.
-/

namespace ClassViewer.CommandLine

/-- Where the tools are. -/
structure ToolPaths where
  java : Path
  cfr : Path
  procyon : Path
  vineflower : Path
  jd : Path
  deriving DecidableEq, Repr

/-- The value of an environment variable that is not empty. -/
def filledValue (h : Host) (name : String) : Option String := (h.envValue name).filter (· != "")

/-- The user's home directory: by variable, else that of the account. -/
def homeDirectory (h : Host) : Option Path :=
  ((filledValue h "HOME").map fun s => ⟨s⟩).or h.accountHome

/-- The user's data directory. -/
def dataDirectory (h : Host) : Option Path :=
  match (h.envValue "XDG_DATA_HOME").filter fun s => Path.isAbsolute ⟨s⟩ with
  | some s => some ⟨s⟩
  | none => (homeDirectory h).map fun home => home.join ⟨".local/share"⟩

/-- The program's own directory. -/
def ownDirectory (h : Host) : Except Failure Path :=
  match dataDirectory h with
  | some p => .ok (p.join ⟨"class-lens"⟩)
  | none => .error (.ofMessage "Failed to resolve data directory")

/-- The first of an option, a variable and a place in the program's own directory. -/
def choosePath (h : Host) (option : Option Path) (name : String) (default : Path → Path) :
    Except Failure Path :=
  match option, filledValue h name with
  | some p, _ => .ok p
  | none, some s => .ok ⟨s⟩
  | none, none => (ownDirectory h).map default

/-- The database of preferences. -/
def databasePath (h : Host) (g : Globals) : Except Failure Path :=
  choosePath h g.db "CLASS_LENS_DB" fun own => own.join ⟨"prefs.lmdb"⟩

/-- The jar of a tool. -/
def jarPath (h : Host) (option : Option Path) (name fileName : String) : Except Failure Path :=
  choosePath h option name fun own => (own.join ⟨"tools"⟩).join ⟨fileName⟩

/-- The program that runs jars. -/
def javaPath (h : Host) : Path := ⟨(h.envValue "CLASS_LENS_JAVA").getD "java"⟩

/-- The tools. -/
def toolPaths (h : Host) (g : Globals) : Except Failure ToolPaths := do
  let cfr ← jarPath h g.cfr "CFR_JAR" "cfr.jar"
  let procyon ← jarPath h g.procyon "PROCYON_JAR" "procyon.jar"
  let vineflower ← jarPath h g.vineflower "VINEFLOWER_JAR" "vineflower.jar"
  let jd ← jarPath h g.jd "JD_CLI_JAR" "jd-cli.jar"
  return ⟨javaPath h, cfr, procyon, vineflower, jd⟩

/-! ## Where tools come from -/

def cfrUrl : String :=
  "https://github.com/leibnitz27/cfr/releases/download/0.152/cfr-0.152.jar"

def procyonUrl : String :=
  "https://github.com/mstrobel/procyon/releases/download/v0.6.0/procyon-decompiler-0.6.0.jar"

def vineflowerUrl : String :=
  "https://github.com/Vineflower/vineflower/releases/download/1.10.1/vineflower-1.10.1.jar"

/-- The four engines over their tools, in the order they are presented in. -/
def standardRegistry (store : Store) (t : ToolPaths) : Registry :=
  Registry.new store (Cfr.engine (Cfr.ofTool ⟨t.java, t.cfr, some cfrUrl⟩))
    |>.register (JdCore.engine (JdCore.ofTool ⟨t.java, t.jd, none⟩))
    |>.register (Procyon.engine (Procyon.ofTool ⟨t.java, t.procyon, some procyonUrl⟩))
    |>.register (Vineflower.engine (Vineflower.ofTool ⟨t.java, t.vineflower, some vineflowerUrl⟩))

/-! ## The database -/

/-- Opens the database of preferences with a library. -/
def openStoreWith (library : Database.Library) (p : Path) :
    HostM (Except Failure library.Handle) := do
  match ← library.openPath p with
  | .ok handle => return .ok handle
  | .error e =>
    return .error ((Failure.ofError e).inContext ("Failed to open preference db: " ++ p.text))

/-- Opens the database of preferences, which is one of pages. -/
def openStore (p : Path) : HostM (Except Failure Route) := openStoreWith Database.pages p

/-- Removes a file that is there. -/
def removeIfThere (p : Path) (what : String) : HostM (Except Failure Unit) := do
  if (← get).leads p then
    match ← Host.removeFile p with
    | .ok () => return .ok ()
    | .error e =>
      return .error ((Failure.ofIo e).inContext
        ("Failed to remove " ++ what ++ " file: " ++ p.text))
  else return .ok ()

/-- Removes a database and its lock file. -/
def clearDatabase (p : Path) : HostM (Except Failure Unit) := do
  match ← removeIfThere p "db" with
  | .error f => return .error f
  | .ok () => removeIfThere (Database.lockPath p) "db lock"

end ClassViewer.CommandLine
