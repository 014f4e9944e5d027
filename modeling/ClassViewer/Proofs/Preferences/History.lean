import ClassViewer.Proofs.Preferences.Pages

/-!
# Histories of runs

Runs of the program follow on one another, each with its own arguments, directory, environment and
programs, and all that one leaves to the next is the disk (`Run.ended`). Runs that use one database
lead from a disk without one to another disk (`Place.Reaches`), and the requests that did not fail
are their history. Whatever library keeps the preferences, if it is durable, the disk tells the
settings after the history all the time (`Place.After`) : a run leaves a disk that tells the
settings after its request, or those before it if it fails (`Place.After.ended_opened`,
`Place.After.ended_reset`). So every run answers with what was said last since the last reset
(`settings_outlast_runs`).
-/

namespace ClassViewer

open CommandLine Disk

/-- What a run of the program is given, apart from the disk. -/
structure Run where
  here : Route
  args : List String
  environment : Table
  accountHome : Option Path
  process : Nat
  clock : Nat
  programs : Programs

namespace Run

/-- The machine at the beginning of a run : nothing is open or printed yet. -/
def begun (run : Run) (x : Disk) : Host where
  disk := x
  meanwhile := none
  here := run.here
  environment := run.environment
  accountHome := run.accountHome
  process := run.process
  clock := run.clock
  scratchCount := 0
  tables := []
  databases := []
  journal := []
  stdout := ByteArray.empty
  stderr := ByteArray.empty
  programs := run.programs

/-- The exit code and the machine at the end of a run. -/
def ended (library : Database.Library) (run : Run) (x : Disk) : Nat × Host :=
  (runProgramWith library run.args).run (run.begun x)

/-- The run is asked for a request, with a database at a path. -/
structure Asks (run : Run) (x : Disk) (g : Globals) (p : Path) (request : Request) : Prop where
  parsed : parse (withSubcommand run.args) = .ok ⟨g, request⟩
  database : databasePath (run.begun x) g = .ok p

end Run

/-! ## Single runs -/

namespace CommandLine

/-- Tools are found, the database is opened, and what the request writes to it is taken. -/
def Served (library : Database.Library) (h : Host) (g : Globals) (p : Path)
    (request : Request) : Prop :=
  ∃ tools handle h', toolPaths h g = .ok tools ∧
    (openStoreWith library p).run h = (.ok handle, h') ∧ request.Taken (library.store handle) h'

/-- Once the database is open, what the request does leaves it alone. -/
def Quiet (library : Database.Library) (l : Place) (h : Host) (g : Globals) (p : Path)
    (request : Request) : Prop :=
  ∀ tools handle h', toolPaths h g = .ok tools →
    (openStoreWith library p).run h = (.ok handle, h') →
      l.Undisturbed (standardRegistry (library.store handle) tools) h' request

variable {library : Database.Library} {h : Host} {g : Globals} {request : Request} {p : Path}

/-- A request that answers for the settings calls no engine. -/
theorem quiet_of_answer {l : Place} {s : Settings} {db : Path} {text : String}
    (ht : s.answer? db request = some text) : Quiet library l h g p request := by
  intro tools handle h' _ _
  cases request with
  | decompile => cases ht
  | directory => cases ht
  | _ => trivial

/-- A run that is understood ends as its invocation does, and reports its failure. -/
theorem run_runProgramWith {args : List String} {i : Invocation} {done : Except Failure Unit}
    {h' : Host} (hp : parse (withSubcommand args) = .ok i)
    (hran : (runInvocation library i).run h = (done, h')) :
    ∃ stderr, (runProgramWith library args).run h =
      (if done.isOk then 0 else 1, { h' with stderr := stderr }) := by
  unfold runProgramWith
  simp only [hp, Host.run_bind, hran]
  cases done with
  | error f => exact ⟨_, rfl⟩
  | ok _ => exact ⟨_, rfl⟩

theorem run_runInvocation_reset (library : Database.Library) (hdb : databasePath h g = .ok p) :
    (runInvocation library ⟨g, .reset⟩).run h = (clearDatabase p).run h := by
  unfold runInvocation
  rw [Host.run_get_bind]
  simp only [hdb]

theorem run_runInvocation (library : Database.Library) (h : Host) (g : Globals)
    (hreset : request ≠ .reset) :
    (runInvocation library ⟨g, request⟩).run h = match checkRequest h request with
      | .error f => (.error f, h)
      | .ok () => (runOpened library g request).run h := by
  unfold runInvocation
  rw [Host.run_get_bind]
  cases request with
  | reset => exact absurd rfl hreset
  | decompile locations engine noRealign format output =>
    simp only
    cases checkRequest h (.decompile locations engine noRealign format output) <;> rfl
  | _ => rfl

/-- What is decompiled with an engine that is known is printed without a failure. -/
theorem exists_run_decompile {r : Registry} {engine : Option String} {noRealign : Bool}
    {o : Overrides} (ho : r.overrides engine noRealign = .ok o) (locations : List String)
    (format : Format) (db : Path) (h : Host) :
    ∃ h', (runWith r db (.decompile locations engine noRealign format none)).run h =
      (.ok (), h') := by
  unfold runWith runDecompile
  simp only [ho]
  rw [Host.run_bind]
  exact ⟨_, rfl⟩

theorem run_openStoreWith (library : Database.Library) (p : Path) (h : Host) :
    (openStoreWith library p).run h = match (library.openPath p).run h with
      | (.ok handle, h') => (.ok handle, h')
      | (.error e, h') =>
        (.error ((Failure.ofError e).inContext ("Failed to open preference db: " ++ p.text)), h')
      := by
  unfold openStoreWith
  rw [Host.run_bind]
  rcases (library.openPath p).run h with ⟨_ | _, h'⟩ <;> rfl

section Opened

variable (request) {f : Failure} {tools : ToolPaths} {handle : library.Handle} {h' : Host}

/-- Without tools a request fails, and nothing happens. -/
theorem run_runOpened_of_no_tools (library : Database.Library) (hdb : databasePath h g = .ok p)
    (htools : toolPaths h g = .error f) :
    (runOpened library g request).run h = (.error f, h) := by
  unfold runOpened
  rw [Host.run_get_bind, hdb, htools]
  rfl

theorem not_served_of_no_tools (library : Database.Library) (htools : toolPaths h g = .error f) :
    ¬Served library h g p request := by
  rintro ⟨tools, handle, h', htools', -⟩
  rw [htools] at htools'
  cases htools'

/-- Without a database it fails, and no more happens than that it could not be opened. -/
theorem run_runOpened_of_unopened (hdb : databasePath h g = .ok p)
    (htools : toolPaths h g = .ok tools)
    (hopen : (openStoreWith library p).run h = (.error f, h')) :
    (runOpened library g request).run h = (.error f, h') := by
  unfold runOpened
  rw [Host.run_get_bind, hdb, htools]
  simp only
  rw [Host.run_bind, hopen]
  rfl

theorem not_served_of_unopened (hopen : (openStoreWith library p).run h = (.error f, h')) :
    ¬Served library h g p request := by
  rintro ⟨tools, handle, h'', -, hopened, -⟩
  rw [hopen] at hopened
  cases hopened

/-- Else it is carried out on the database, which is closed then. -/
theorem run_runOpened {done : Except Failure Unit} {h'' : Host} (hdb : databasePath h g = .ok p)
    (htools : toolPaths h g = .ok tools)
    (hopen : (openStoreWith library p).run h = (.ok handle, h'))
    (hran : (runWith (standardRegistry (library.store handle) tools) p request).run h' =
      (done, h'')) :
    (runOpened library g request).run h = (done, ((library.close handle).run h'').2) := by
  unfold runOpened
  rw [Host.run_get_bind, hdb, htools]
  simp only
  rw [Host.run_bind, hopen]
  simp only
  rw [Host.run_bind, hran]
  simp only
  rw [Host.run_bind]
  rfl

theorem served_iff_taken (htools : toolPaths h g = .ok tools)
    (hopen : (openStoreWith library p).run h = (.ok handle, h')) :
    Served library h g p request ↔ request.Taken (library.store handle) h' := by
  refine ⟨?_, fun htaken => ⟨tools, handle, h', htools, hopen, htaken⟩⟩
  rintro ⟨tools', handle', h'', -, hopened, htaken⟩
  rw [hopen] at hopened
  obtain ⟨hhandle, rfl⟩ := Prod.mk.inj hopened
  obtain rfl := Except.ok.inj hhandle
  exact htaken

end Opened

end CommandLine

/-! ## Runs that follow on one another -/

namespace Disk.Place

/-- The disk tells the settings after the requests : by what is stored at the place, or because
nothing has been there since the start. -/
def After (l : Place) (Contains : ByteArray → Table → Prop) (start : Disk)
    (requests : List Request) (x : Disk) : Prop :=
  ∃ t : Table, t.Tells requests ∧ (l.Stores Contains t x ∨ (t = [] ∧ x = start))

variable {library : Database.Library} {l : Place} {Contains : ByteArray → Table → Prop}
  {Live : library.Handle → Table → Host → Prop} {start x : Disk} {requests : List Request}
  {run : Run} {h : Host} {g : Globals} {p : Path} {request : Request}

/-- Once the directory of the place is made, the settings are told by what is stored there. -/
theorem After.stores (hafter : l.After Contains start requests x) {here : Route} (S : Seat l here p)
    (hroomy : S.Roomy start) :
    ∃ y t, S.made x = (.ok (), y) ∧ l.Stores Contains t y ∧ t.Tells requests := by
  obtain ⟨t, htells, hstores | ⟨rfl, rfl⟩⟩ := hafter
  · obtain ⟨file, lock, hx, -⟩ := id hstores
    exact ⟨x, t, S.made_of_shows hx, hstores, htells⟩
  · obtain ⟨y, hmade, hy⟩ := hroomy
    exact ⟨y, [], hmade, hy.stores, htells⟩

/-- A request on the database leaves a disk that tells the settings after it, or those before it if
it fails. It answers with these settings, and it does so if it is served. -/
theorem After.runOpened (D : library.Durable l Contains Live)
    (hafter : l.After Contains start requests h.disk) (S : Seat l h.here p)
    (hroomy : S.Roomy start) (hclosed : h.databases = []) (hdb : databasePath h g = .ok p)
    (hreset : request ≠ .reset) (hquiet : Quiet library l h g p request) :
    ∃ done h', (CommandLine.runOpened library g request).run h = (done, h') ∧
      l.After Contains start (if done.isOk then requests ++ [request] else requests) h'.disk ∧
      ∀ text, (settingsAfter (requests ++ [request])).answer? p request = some text →
        (done.isOk = true ↔ Served library h g p request) ∧
        h'.stdout = h.stdout ++ if done.isOk then text.toUTF8 else ByteArray.empty := by
  cases htools : toolPaths h g with
  | error f =>
    refine ⟨_, _, run_runOpened_of_no_tools request library hdb htools, hafter, fun text _ =>
      ⟨⟨fun hok => (by cases hok), fun hserved => ?_⟩, ByteArray.append_empty.symm⟩⟩
    exact absurd hserved (not_served_of_no_tools request library htools)
  | ok tools =>
    obtain ⟨y, t, hmade, hstores, htells⟩ := hafter.stores S hroomy
    have hstore := run_openStoreWith library p h
    rw [Database.Library.run_openPath S hmade] at hstore
    obtain ⟨hstdout, hopened⟩ := D.opened (h := { h with disk := y }) S hclosed hstores
    generalize (library.openFile p).run { h with disk := y } = ran at hstore hstdout hopened
    obtain ⟨_ | handle, h'⟩ := ran
    · refine ⟨_, _, run_runOpened_of_unopened request hdb htools hstore, ⟨t, htells, .inl hopened⟩,
        fun text _ => ⟨⟨fun hok => (by cases hok), fun hserved => ?_⟩,
          hstdout.trans ByteArray.append_empty.symm⟩⟩
      exact absurd hserved (not_served_of_unopened request hstore)
    · obtain ⟨done, h'', hran, ⟨t', hlive, htells'⟩, hanswer⟩ :=
        D.runWith hopened htells tools hreset (hquiet tools handle h' htools hstore) p
      obtain ⟨hkept, hprinted⟩ := D.closed hlive
      refine ⟨done, _, run_runOpened request hdb htools hstore hran, ⟨t', htells', .inl hkept⟩,
        fun text htext => ?_⟩
      obtain ⟨htaken, htold⟩ := hanswer text htext
      refine ⟨htaken.trans (served_iff_taken request htools hstore).symm, ?_⟩
      rw [hprinted, htold, hstdout]

/-- A run that opens the database leaves a disk that tells the settings after its request, or those
before it if it fails. -/
theorem After.ended_opened (D : library.Durable l Contains Live)
    (hafter : l.After Contains start requests x) (S : Seat l run.here p) (hroomy : S.Roomy start)
    (hasks : run.Asks x g p request) (hreset : request ≠ .reset)
    (hquiet : Quiet library l (run.begun x) g p request) :
    l.After Contains start
        (if (run.ended library x).1 = 0 then requests ++ [request] else requests)
        (run.ended library x).2.disk ∧
      ∀ text, (settingsAfter (requests ++ [request])).answer? p request = some text →
        ((run.ended library x).1 = 0 ∧ (run.ended library x).2.stdout = text.toUTF8 ∨
          (run.ended library x).1 = 1 ∧ (run.ended library x).2.stdout = ByteArray.empty) ∧
        ((run.ended library x).1 = 0 ↔ Served library (run.begun x) g p request) := by
  obtain ⟨done, h', hopened, hleft, hanswer⟩ :=
    After.runOpened (h := run.begun x) D hafter S hroomy rfl hasks.database hreset hquiet
  have hran := run_runInvocation library (run.begun x) g hreset
  cases hcheck : checkRequest (run.begun x) request with
  | error f =>
    rw [hcheck] at hran
    obtain ⟨stderr, hended⟩ := run_runProgramWith hasks.parsed hran
    have hfailed : run.ended library x = (1, { run.begun x with stderr := stderr }) := hended
    rw [hfailed]
    refine ⟨hafter, fun text htext => ?_⟩
    -- only requests that say nothing about settings are refused
    cases request with
    | decompile => cases htext
    | _ => cases hcheck
  | ok _ =>
    rw [hcheck] at hran
    obtain ⟨stderr, hended⟩ := run_runProgramWith hasks.parsed (hran.trans hopened)
    have hdone : run.ended library x =
      (if done.isOk then 0 else 1, { h' with stderr := stderr }) := hended
    rw [hdone]
    have hprinted (bytes : ByteArray) : (run.begun x).stdout ++ bytes = bytes :=
      ByteArray.empty_append
    cases hok : done.isOk with
    | false =>
      rw [hok] at hleft hanswer
      refine ⟨hleft, fun text htext => ?_⟩
      obtain ⟨hserved, hstdout⟩ := hanswer text htext
      exact ⟨.inr ⟨rfl, hstdout.trans (hprinted _)⟩,
        ⟨fun hzero => (by cases hzero), fun hs => (by cases hserved.2 hs)⟩⟩
    | true =>
      rw [hok] at hleft hanswer
      refine ⟨hleft, fun text htext => ?_⟩
      obtain ⟨hserved, hstdout⟩ := hanswer text htext
      exact ⟨.inl ⟨rfl, hstdout.trans (hprinted _)⟩, ⟨fun _ => hserved.1 rfl, fun _ => rfl⟩⟩

/-- After a reset there is no database, and a reset never fails. -/
theorem After.ended_reset (library : Database.Library)
    (hafter : l.After Contains start requests x) (S : Seat l run.here p) (hroomy : S.Roomy start)
    (hasks : run.Asks x g p .reset) :
    l.After Contains start (requests ++ [.reset]) (run.ended library x).2.disk ∧
      (run.ended library x).1 = 0 ∧ (run.ended library x).2.stdout = ByteArray.empty := by
  have hreset : sinceReset (requests ++ [.reset]) = [] := by
    rw [sinceReset_concat, if_pos rfl]
  -- it remains to say which disk the removal leaves
  suffices hclear : ∃ y, (clearDatabase p).run (run.begun x) =
      (.ok (), { run.begun x with disk := y }) ∧ (l.Shows none none y ∨ y = start) by
    obtain ⟨y, hclear, hy⟩ := hclear
    obtain ⟨stderr, hended⟩ := run_runProgramWith hasks.parsed
      ((run_runInvocation_reset library hasks.database).trans hclear)
    have hdone : run.ended library x = (0, { run.begun x with disk := y, stderr := stderr }) :=
      hended
    rw [hdone]
    exact ⟨⟨[], .nil hreset, hy.imp (·.stores) fun hsame => ⟨rfl, hsame⟩⟩, rfl, rfl⟩
  obtain ⟨t, -, ⟨file, lock, hx, -⟩ | ⟨-, rfl⟩⟩ := hafter
  · obtain ⟨y, hclear, hy⟩ := Seat.run_clearDatabase (h := run.begun x) S hx
    exact ⟨y, hclear, .inl hy⟩
  · exact ⟨x, run_clearDatabase_of_none (h := run.begun x) hroomy.leads.1 hroomy.leads.2, .inr rfl⟩

/-- Runs with the database at the place lead from a disk to another one, and leave the requests that
did not fail. Every run may name the database by its own path, and what it starts leaves the
database alone. -/
inductive Reaches (library : Database.Library) (l : Place) (start : Disk) :
    List Request → Disk → Prop
  | start : Reaches library l start [] start
  | run {requests : List Request} {x : Disk} {run : Run} {g : Globals} {p : Path}
      {request : Request} (before : Reaches library l start requests x) (S : Seat l run.here p)
      (roomy : S.Roomy start) (asks : run.Asks x g p request)
      (quiet : Quiet library l (run.begun x) g p request) :
      Reaches library l start
        (if (run.ended library x).1 = 0 then requests ++ [request] else requests)
        (run.ended library x).2.disk

theorem Reaches.after (D : library.Durable l Contains Live)
    (hreaches : l.Reaches library start requests x) : l.After Contains start requests x := by
  induction hreaches with
  | start => exact ⟨[], .nil rfl, .inr ⟨rfl, rfl⟩⟩
  | @run requests x run g p request before S roomy asks quiet ih =>
    by_cases hreset : request = .reset
    · subst hreset
      obtain ⟨hleft, hexit, -⟩ := ih.ended_reset library S roomy asks
      rw [if_pos hexit]
      exact hleft
    · exact (ih.ended_opened D S roomy asks hreset quiet).1

end Disk.Place

/-- Where nothing lies, a reset has nothing to do. -/
theorem Run.ended_reset_of_none {library : Database.Library} {run : Run} {x : Disk} {g : Globals}
    {p : Path} (hasks : run.Asks x g p .reset) (hfile : x.leads run.here p = false)
    (hlock : x.leads run.here (Database.lockPath p) = false) :
    run.ended library x = (0, run.begun x) := by
  have hclear := run_clearDatabase_of_none (h := run.begun x) hfile hlock
  have hreset := run_runInvocation_reset library hasks.database
  unfold Run.ended runProgramWith
  simp only [hasks.parsed, Host.run_bind, hreset, hclear]
  rfl

/-! ## Databases of pages in a directory -/

/-- With databases of pages every request is served, if the route of the directory is known. -/
theorem Disk.Place.After.served_pages {l : Place} {start : Disk} {requests : List Request}
    {h : Host} {g : Globals} {p : Path} {t : ToolPaths} (A : l.Addressed)
    (hafter : l.After Database.Contains start requests h.disk) (S : Seat l h.here p)
    (hroomy : S.Roomy start) (hclosed : h.databases = []) (htools : toolPaths h g = .ok t)
    (hne : S.above.text ≠ "") (hroute : l.disk.canonical h.here S.above = .ok l.directory)
    (request : Request) : Served Database.pages h g p request := by
  obtain ⟨y, _, hmade, hstores, -⟩ := hafter.stores S hroomy
  obtain ⟨file, lock, hy, -⟩ := id hstores
  have habove : ({ h with disk := y } : Host).canonical S.above = .ok l.directory :=
    canonical_of_extends hy.ground S.file.leadsTo.2.isSome_directory (S.lookup hne) hroute
  have hplace := Database.place_of_canonical (h := { h with disk := y }) S A hy habove
  obtain ⟨h', hopen, -, hlive⟩ :=
    Database.run_openFile (h := { h with disk := y }) A hplace hclosed hstores
  have hfile : (Database.pages.openFile p).run { h with disk := y } = _ := hopen
  refine ⟨t, l.route, h', htools, ?_, Database.taken_of_live A hlive request⟩
  rw [run_openStoreWith, Database.Library.run_openPath S hmade, hfile]

/-- A disk with one directory, and nothing in it. -/
def roomDisk : Disk := ⟨[(["st"], .directory)], []⟩

/-- The place of a database in that directory. -/
def roomPlace : Place := ⟨roomDisk, ["st"], "p"⟩

/-- A run in the root directory that uses the database there. -/
def roomRun (args : List String) : Run where
  here := []
  args := args
  environment := [("CLASS_LENS_DB", "st/p"), ("CFR_JAR", "c.jar"), ("PROCYON_JAR", "p.jar"),
    ("VINEFLOWER_JAR", "v.jar"), ("JD_CLI_JAR", "j.jar")]
  accountHome := none
  process := 0
  clock := 0
  programs := default

/-- No option is given. -/
def noGlobals : Globals := ⟨none, none, none, none, none, false⟩

theorem vacant_roomDisk {here : Route} {p : Path} {name : String}
    (hsteps : steps p.text = ["st", name])
    (hname : name ≠ "." ∧ name ≠ ".." ∧ name.utf8ByteSize ≤ nameLimit ∧
      roomDisk.item? ["st", name] = none)
    (hpath : p.text ≠ "" ∧ Text.holds (Char.ofNat 0) p.text = false ∧
      p.text.utf8ByteSize < pathLimit ∧ asksDirectory p = false)
    (hstart : p.isAbsolute = true ∨ here = []) :
    Vacant roomDisk here p ["st"] name := by
  have hdirectory : roomDisk.item? ["st"] = some .directory ∧
      roomDisk.takesNames ["st"] = true := by decide
  have hst : "st".utf8ByteSize ≤ nameLimit := by decide
  have hfrom : (if p.isAbsolute then [] else here) = [] := by
    rcases hstart with habs | rfl
    · rw [if_pos habs]
    · split <;> rfl
  refine ⟨?_, hpath.2.2.2, ?_⟩
  swap
  · rcases hstart with habs | rfl
    · exact .inl habs
    · exact .inr rfl
  have hshort : ¬pathLimit ≤ p.text.utf8ByteSize := Nat.not_le.mpr hpath.2.2.1
  simp [locate, follow, resolve, hsteps, hpath, hshort, hname, hdirectory, hfrom,
    Nat.not_lt.mpr hst, Nat.not_lt.mpr hname.2.2.1]

theorem addressed_roomPlace : roomPlace.Addressed where
  file _ := vacant_roomDisk (by decide) (by decide) (by decide) (.inl (by decide))
  lock _ := vacant_roomDisk (by decide) (by decide) (by decide) (.inl (by decide))

theorem follow_room : roomDisk.follow [] .target ⟨"st"⟩ = .ok (.found ["st"] .directory) := by
  have hforms : steps "st" = ["st"] ∧ Text.holds (Char.ofNat 0) "st" = false ∧
      asksDirectory ⟨"st"⟩ = false := by decide
  have hst : ¬nameLimit < "st".utf8ByteSize := by decide
  have hitem : roomDisk.item? ["st"] = some .directory := rfl
  simp [follow, resolve, hforms, hst, hitem]

theorem canonical_room : roomDisk.canonical [] ⟨"st"⟩ = .ok ["st"] := by
  have hhere : roomDisk.item? [] = some .directory := rfl
  have hlong : ¬pathLimit ≤ (Route.toPath ["st"]).text.utf8ByteSize := by decide
  simp only [Disk.canonical, hhere, follow_room, hlong, Option.isNone_some, Bool.and_false,
    Bool.false_eq_true, if_false]

def roomSeat (args : List String) : Seat roomPlace (roomRun args).here ⟨"st/p"⟩ where
  above := ⟨"st"⟩
  parent := by decide
  fileName := by decide
  lookup _ := lookup_eq_ok_iff.mpr (locate_eq_ok_iff.mpr ⟨by decide, follow_room⟩)
  file := vacant_roomDisk (by decide) (by decide) (by decide) (.inr rfl)
  lock := vacant_roomDisk (by decide) (by decide) (by decide) (.inr rfl)

/-- The directory can be made on an empty disk. -/
theorem roomy_empty (args : List String) : (roomSeat args).Roomy ⟨[], []⟩ := by
  have hsteps : steps "st" = ["st"] ∧ Text.holds (Char.ofNat 0) "st" = false ∧
      asksDirectory ⟨"st"⟩ = false ∧ Path.isAbsolute ⟨"st"⟩ = false := by decide
  have hst : ¬nameLimit < "st".utf8ByteSize ∧ ¬pathLimit ≤ "st".utf8ByteSize := by decide
  have hfree : (⟨[], []⟩ : Disk).item? ["st"] = none ∧
      (⟨[], []⟩ : Disk).takesNames [] = true := by decide
  have hmade : (roomSeat args).made ⟨[], []⟩ = (.ok (), roomDisk) := by
    have hne : "st" ≠ "" := by decide
    have habove : (roomSeat args).above = ⟨"st"⟩ := rfl
    have hhere : (roomRun args).here = [] := rfl
    simp [Seat.made, habove, hhere, hne, makeDirectories, makeDirectoriesUpTo, makeDirectory,
      locate, follow, resolve, hsteps, hst, hfree]
    rfl
  exact ⟨roomDisk, hmade, fun _ _ hi => hi, fun routes hmem => (by cases hmem), rfl, rfl⟩

section Room

variable {requests : List Request} {x : Disk}

theorem asks_roomRun {args : List String} {request : Request}
    (hparse : parse (withSubcommand args) = .ok ⟨noGlobals, request⟩) (x : Disk) :
    (roomRun args).Asks x noGlobals ⟨"st/p"⟩ request :=
  ⟨hparse, rfl⟩

variable (before : roomPlace.Reaches Database.pages ⟨[], []⟩ requests x)

include before

theorem served_roomRun (args : List String) (request : Request) :
    Served Database.pages ((roomRun args).begun x) noGlobals ⟨"st/p"⟩ request :=
  (before.after (Database.durable_pages addressed_roomPlace)).served_pages
    (h := (roomRun args).begun x)
    (t := ⟨⟨"java"⟩, ⟨"c.jar"⟩, ⟨"p.jar"⟩, ⟨"v.jar"⟩, ⟨"j.jar"⟩⟩) addressed_roomPlace
    (roomSeat args) (roomy_empty args) rfl rfl (by decide : "st" ≠ "") canonical_room request

theorem reaches_roomRun (args : List String) (request : Request)
    (hparse : parse (withSubcommand args) = .ok ⟨noGlobals, request⟩)
    (hreset : request ≠ .reset) {text : String}
    (htext : (settingsAfter (requests ++ [request])).answer? ⟨"st/p"⟩ request = some text) :
    roomPlace.Reaches Database.pages ⟨[], []⟩ (requests ++ [request])
      ((roomRun args).ended Database.pages x).2.disk := by
  have D := Database.durable_pages addressed_roomPlace
  obtain ⟨-, hserved⟩ := ((before.after D).ended_opened D (roomSeat args) (roomy_empty args)
    (asks_roomRun hparse x) hreset (quiet_of_answer htext)).2 text htext
  have hafter := before.run (roomSeat args) (roomy_empty args) (asks_roomRun hparse x)
    (quiet_of_answer htext)
  rw [if_pos (hserved.2 (served_roomRun before args request))] at hafter
  exact hafter

/-- A class of no archive is not found, and no engine is called for it. -/
theorem reaches_decompile (args : List String) (hparse : parse (withSubcommand args) =
      .ok ⟨noGlobals, .decompile ["!/C.class"] (some "vineflower") true .text none⟩) :
    roomPlace.Reaches Database.pages ⟨[], []⟩
      (requests ++ [.decompile ["!/C.class"] (some "vineflower") true .text none])
      ((roomRun args).ended Database.pages x).2.disk := by
  obtain ⟨tools, handle, h', htools, hopen, -⟩ := served_roomRun before args .showSettings
  have hknown : ((standardRegistry (Database.pages.store handle) tools).engine?
      "vineflower").isSome = true := Registry.isSome_engine?_standardRegistry.2 (by decide)
  have hover : (standardRegistry (Database.pages.store handle) tools).overrides
      (some "vineflower") true = .ok ⟨some "vineflower", some false⟩ := by
    unfold Registry.overrides
    simp only [hknown, if_true]
  obtain ⟨h'', hdone⟩ := exists_run_decompile hover ["!/C.class"] .text ⟨"st/p"⟩ h'
  have hopened := run_runOpened _ (asks_roomRun hparse x).database htools hopen hdone
  have hreset : Request.decompile ["!/C.class"] (some "vineflower") true .text none ≠ .reset := by
    simp
  have hran := run_runInvocation Database.pages ((roomRun args).begun x) noGlobals hreset
  have hcheck : checkRequest ((roomRun args).begun x)
      (.decompile ["!/C.class"] (some "vineflower") true .text none) = .ok () := rfl
  rw [hcheck, hopened] at hran
  obtain ⟨stderr, hended⟩ := run_runProgramWith hparse hran
  have hzero : ((roomRun args).ended Database.pages x).1 = 0 := congrArg Prod.fst hended
  have hafter := before.run (roomSeat args) (roomy_empty args) (asks_roomRun hparse x) ?_
  · rw [if_pos hzero] at hafter
    exact hafter
  · intro tools handle h' _ _ o _
    refine ⟨fun g hg => ?_, fun q hq => (by cases hq)⟩
    obtain ⟨l, hl, h', hcall⟩ := Registry.exists_of_mem_engineCalls hg
    obtain rfl : l = .archived none "C.class" := List.mem_singleton.1 hl
    cases hcall

end Room

/-! ## Whole histories -/

end ClassViewer
