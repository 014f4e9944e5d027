import ClassViewer.CommandLine.Places

/-!
# The program

A run of the program on a machine: arguments are read, the request is carried out, and what is to be
seen of it is printed. A failure is reported with its causes and ends the run with code 1; arguments
that cannot be understood end it with code 2. The preferences are kept by a library for databases.
-/

namespace ClassViewer.CommandLine

/-! ## Reports -/

/-- A text whose lines after the first are indented. -/
def indented (blanks : Nat) (s : String) : String :=
  Text.expandChar '\n' ("\n" ++ String.ofList (List.replicate blanks ' ')) s

/-- A number at the right of a field of five characters. -/
def fieldNumber (n : Nat) : String :=
  let s := toString n
  String.ofList (List.replicate (5 - s.length) ' ') ++ s

/-- The causes of a failure: one alone is indented, several are numbered. -/
def causeLines (causes : List String) : String :=
  match causes with
  | [] => ""
  | [cause] => "\n\nCaused by:\n    " ++ indented 4 cause
  | causes =>
    "\n\nCaused by:" ++ Text.join "" (causes.zipIdx.map fun c =>
      "\n" ++ fieldNumber c.2 ++ ": " ++ indented 7 c.1)

/-- How a failure is reported. -/
def failureReport (f : Failure) : String := "Error: " ++ f.outermost ++ causeLines f.causes ++ "\n"

/-! ## What is shown -/

/-- An engine and whether it is selected. -/
def engineRow (selected : String) (d : Descriptor) : Json :=
  .obj [("id", .str d.id), ("display_name", .str d.displayName),
    ("description", .str d.description), ("selected", .bool (d.id == selected))]

/-- The settings of a registry. -/
def settingsJson (r : Registry) (db : Path) : HostM Json := do
  return .obj [("selected", .str (← r.selected).descriptor.id),
    ("preserve_line_numbers", .bool (← r.preservesLines)), ("db_path", .str db.text)]

/-- Prints the settings. -/
def printSettings (r : Registry) (db : Path) : HostM Unit := do
  Host.print ((← settingsJson r db).pretty ++ "\n")

/-! ## Requests -/

/-- The class files below a directory, in path order; none if the directory cannot be walked. -/
def classFiles (h : Host) (directory : Path) : List Path :=
  match h.disk.filesOfKind h.here "class" directory with
  | .ok files => files
  | .error _ => []

/-- Decompiles locations and shows them or writes them to a file. -/
def runDecompile (r : Registry) (locations : List Location) (engine : Option String)
    (noRealign : Bool) (format : Format) (output : Option Path) : HostM (Except Failure Unit) := do
  match r.overrides engine noRealign with
  | .error f => return .error f
  | .ok o =>
    let content := renderRows format (← r.decompileAll o locations)
    match output with
    | some p => writeOutput p content
    | none =>
      Host.print (printed content)
      return .ok ()

/-- Decompiles the class files below a directory, a line of JSON for each. -/
def runDirectory (r : Registry) (directory : Path) (engine : Option String) (noRealign : Bool) :
    HostM (Except Failure Unit) := do
  match r.overrides engine noRealign with
  | .error f => return .error f
  | .ok o =>
    let files := classFiles (← get) directory
    let rows ← r.decompileAll o (files.map .file)
    rows.forM fun row => Host.print (row.toJson.compact ++ "\n")
    return .ok ()

/-- Selects an engine that is registered. -/
def runSelect (r : Registry) (id : String) : HostM (Except Failure Unit) := do
  match r.engine? id with
  | none =>
    Host.printError ("Unknown engine: " ++ id ++ " (available: " ++ r.idList ++
      "); selection unchanged\n")
    return .ok ()
  | some _ =>
    match ← r.select id with
    | .ok () => return .ok ()
    | .error e => return .error (.ofError e)

/-- Carries out a request that needs the registry. -/
def runWith (r : Registry) (db : Path) : Request → HostM (Except Failure Unit)
  | .decompile locations engine noRealign format output =>
    runDecompile r (locations.map Location.parse) engine noRealign format output
  | .directory path engine noRealign => runDirectory r path engine noRealign
  | .engines => do
    let selected := (← r.selected).descriptor.id
    Host.print ((Json.arr (r.descriptors.map (engineRow selected))).pretty ++ "\n")
    return .ok ()
  | .select id => do
    match ← runSelect r id with
    | .error f => return .error f
    | .ok () =>
      printSettings r db
      return .ok ()
  | .realign enabled => do
    match ← r.setPreservesLines enabled with
    | .error e => return .error (.ofError e)
    | .ok () =>
      printSettings r db
      return .ok ()
  | .showSettings => do
    printSettings r db
    return .ok ()
  | .reset => return .ok ()

/-- Carries out a request with the registry over the preferences that a library keeps. -/
def runOpened (library : Database.Library) (g : Globals) (request : Request) :
    HostM (Except Failure Unit) := do
  let h ← get
  match databasePath h g, toolPaths h g with
  | .error f, _ => return .error f
  | .ok _, .error f => return .error f
  | .ok db, .ok tools =>
    match ← openStoreWith library db with
    | .error f => return .error f
    | .ok handle =>
      let r ← runWith (standardRegistry (library.store handle) tools) db request
      library.close handle
      return r

/-- What has to hold before a request is carried out: output must not replace a class file. -/
def checkRequest (h : Host) : Request → Except Failure Unit
  | .decompile locations _ _ _ (some output) =>
    guardOutput h output (locations.map Location.parse)
  | _ => .ok ()

/-- Carries out an invocation. -/
def runInvocation (library : Database.Library) (i : Invocation) :
    HostM (Except Failure Unit) := do
  let h ← get
  match i.request with
  | .reset =>
    match databasePath h i.globals with
    | .error f => return .error f
    | .ok db => clearDatabase db
  | request =>
    match checkRequest h request with
    | .error f => return .error f
    | .ok () => runOpened library i.globals request

/-- The code arguments that cannot be understood end a run with; asking for help is no fault. -/
def ArgumentError.exitCode : ArgumentError → Nat
  | .helpWanted => 0
  | _ => 2

/-- Runs the program with the arguments behind its name, and a library that keeps the preferences;
gives its exit code. -/
def runProgramWith (library : Database.Library) (args : List String) : HostM Nat := do
  match parse (withSubcommand args) with
  | .error e => return e.exitCode
  | .ok i =>
    match ← runInvocation library i with
    | .ok () => return 0
    | .error f =>
      Host.printError (failureReport f)
      return 1

/-- Runs the program with preferences in databases of pages. -/
def runProgram (args : List String) : HostM Nat := runProgramWith Database.pages args

end ClassViewer.CommandLine
