import ClassViewer.CommandLine.Program

/-!
# The executable

The files below the current directory are taken onto a disk, the program is run on it, and what it
has changed there is written back. Everything the program decides is decided in
`CommandLine.runProgram`.
-/

namespace ClassViewer.Outside

/-- The environment variables that are looked at. -/
def variableNames : List String :=
  ["TMPDIR", "HOME", "PATH", "XDG_DATA_HOME", "CLASS_LENS_DB", "CLASS_LENS_JAVA", "CFR_JAR",
    "PROCYON_JAR", "VINEFLOWER_JAR", "JD_CLI_JAR"]

/-- The names on a path from the root. -/
def routeOf (path : String) : Route := (Text.split '/' path).filter (· != "")

/-- The directories on the way to a route, and the route itself. -/
def directoriesTo (r : Route) : List (Route × Item) :=
  (List.range r.length).map fun i => (r.take (i + 1), .directory)

/-- The items at and below an entry of the directory at a route. -/
partial def itemsOf (above : Route) (e : IO.FS.DirEntry) : IO (List (Route × Item)) := do
  let place := above ++ [e.fileName]
  if ← e.path.isDir then
    let below ← (← e.path.readDir).toList.mapM (itemsOf place)
    return (place, .directory) :: below.flatten
  else return [(place, .file (← IO.FS.readBinFile e.path) .everybody)]

/-- The machine as the program finds it. -/
def load : IO Host := do
  let current ← IO.currentDir
  let here := routeOf current.toString
  let items ← (← current.readDir).toList.mapM (itemsOf here)
  let environment ← variableNames.filterMapM fun name => do
    return (← IO.getEnv name).map fun value => (name, value)
  let temporary := routeOf ((environment.lookup "TMPDIR").getD "/tmp")
  let ways := (directoriesTo here ++ directoriesTo temporary).foldl
    (fun (d : Disk) e => d.put e.1 e.2) (Disk.ofSystem Shell.programNames)
  return {
    disk := { ways with items := items.flatten ++ ways.items }, meanwhile := none, here := here
    environment := environment, accountHome := none, process := 1
    clock := ← IO.monoNanosNow, scratchCount := 0, tables := [], databases := [], journal := []
    stdout := ByteArray.empty, stderr := ByteArray.empty }

/-- Writes what has changed from one disk to the other. -/
def store (before after : Disk) : IO Unit := do
  for (r, item) in after.items.reverse do
    if before.item? r != some item then
      match item with
      | .directory => IO.FS.createDirAll r.toPath.text
      | .file bytes _ => IO.FS.writeBinFile r.toPath.text bytes
      | _ => pure ()
  for (r, item) in before.items do
    match item, after.item? r with
    | .file _ _, none => IO.FS.removeFile r.toPath.text
    | _, _ => pure ()

end ClassViewer.Outside

open ClassViewer in
/-- Runs the program on the files below the current directory. -/
def main (args : List String) : IO UInt32 := do
  let before ← Outside.load
  let (code, after) := (CommandLine.runProgram args).run before
  Outside.store before.disk after.disk
  (← IO.getStdout).write after.stdout
  (← IO.getStderr).write after.stderr
  return code.toUInt32
