import ClassViewer.Proofs.Apart
import ClassViewer.Proofs.OutputGuard
import ClassViewer.Proofs.Preferences.Seat
import ClassViewer.Proofs.Preferences.Settings
import ClassViewer.Proofs.SharedStore

/-!
# What is relied on of a library for databases

A library is durable at a place (`Library.Durable`) if what was committed there is found again : a
database that is opened has the table its file contains, reads answer from the table, a write that
is acknowledged is in the table and one that fails is not, and the table is in the file all the
time. Nothing is said of when a database can be opened or a write is taken.

The registry over a database that is open answers with the settings its table tells. A request on
it leaves a table that tells the settings after it, or one that tells those before it if the library
does not take what is written (`Durable.runWith`). Decompiling and showing change nothing.
-/

namespace ClassViewer

open CommandLine Disk

/-! ## Libraries -/

namespace Database.Library

/-- What a library promises for the databases at a place : `Contains` is what its files contain, and
`Live` holds while a database is open, with its table. -/
structure Durable (library : Library) (l : Place) (Contains : ByteArray → Table → Prop)
    (Live : library.Handle → Table → Host → Prop) : Prop where
  /-- A database that is opened has the table that was stored, a new one none. One that cannot be
  opened is still stored. -/
  opened : ∀ {h : Host} {p : Path} {t : Table}, Seat l h.here p → h.databases = [] →
    l.Stores Contains t h.disk →
      ((library.openFile p).run h).2.stdout = h.stdout ∧
        match ((library.openFile p).run h).1 with
        | .ok handle => Live handle t ((library.openFile p).run h).2
        | .error _ => l.Stores Contains t ((library.openFile p).run h).2.disk
  /-- What is in an open database is in its file. -/
  kept : ∀ {handle t h}, Live handle t h → l.Keeps Contains t h.disk
  reads : ∀ handle, (library.store handle).ReadsOnly
  /-- Reads answer from the table. -/
  read : ∀ {handle t h key}, Live handle t h → key ∈ preferenceKeys →
    (((library.store handle).get key).run h).1 = .ok (t.lookup key)
  /-- A write that is acknowledged is in the table, and one that fails is not. -/
  written : ∀ {handle t h} {request : Request} {key value}, Live handle t h →
    request.written? = some (key, value) →
      (((library.store handle).put key value).run h).2.stdout = h.stdout ∧
        match (((library.store handle).put key value).run h).1 with
        | .ok () => Live handle (t.put key value) (((library.store handle).put key value).run h).2
        | .error _ => Live handle t (((library.store handle).put key value).run h).2
  /-- What others do elsewhere makes no difference. -/
  untouched : ∀ {handle t h} {h' : Host}, Live handle t h → h'.databases = h.databases →
    h.disk.Still l.Watched h'.disk → Live handle t h'
  /-- What was in the database is found in its file when it is closed. -/
  closed : ∀ {handle t h}, Live handle t h →
    l.Stores Contains t ((library.close handle).run h).2.disk ∧
      ((library.close handle).run h).2.stdout = h.stdout

variable {library : Library}

/-- The library is asked for the database once the directory is made. -/
theorem run_openPath {l : Place} {p : Path} {h : Host} (S : Seat l h.here p) {y : Disk}
    (hmade : S.made h.disk = (.ok (), y)) :
    (library.openPath p).run h = (library.openFile p).run { h with disk := y } := by
  unfold Seat.made at hmade
  unfold openPath
  simp only [S.parent]
  split at hmade
  · rename_i hbare
    obtain ⟨-, rfl⟩ := Prod.mk.inj hmade
    rw [if_pos hbare, pure_bind]
  · rename_i hbare
    rw [if_neg hbare, Host.run_bind, Host.run_makeDirectories, hmade]

end Database.Library

open Database

/-! ## Other computations -/

/-- An output that is not written over a place leaves it as it is. -/
theorem Host.still_writeOutput {P : Route → Prop} {d : Disk} {h : Host} {q : Path}
    (hx : d.Still P h.disk) (hthere : ∀ s, P s → (d.item? s).isSome = true)
    (hout : ∀ s, P s → ¬h.Overwrites q s) (content : String) :
    d.Still P ((writeOutput q content).run h).2.disk := by
  have hshares : Disk.SharesLess h.disk (h.prepared q).2 := by
    unfold prepared
    split
    · split
      · exact .refl _
      · exact Disk.SharesLess.makeDirectoriesUpTo _ _ _ _
    · exact .refl _
  have hmade : d.Still P (h.prepared q).2 :=
    hx.of_kept hthere (fun s _ i => h.extends_prepared q s i) hshares
  rcases hp : h.prepared q with ⟨e | _, x⟩
  · rw [hp] at hmade
    rw [run_writeOutput_of_error hp]
    exact hmade
  · rw [run_writeOutput_of_ok hp, disk_write]
    rw [hp] at hmade
    cases hw : x.write h.here q content.toUTF8 with
    | error e => exact hmade
    | ok y =>
      refine hmade.of_kept hthere (fun s hs i hi => ?_) (.write hw)
      refine Disk.item?_write_of_not_mem hw (fun hmem => hout s hs ?_) hi
      rw [Overwrites, hp]
      exact ⟨rfl, hmem⟩

theorem apart_writeOutput (q : Path) (content : String) : Host.Apart (writeOutput q content) := by
  unfold writeOutput
  cases q.parent? with
  | none => exact .writeBelow q _ () _ (.ok ())
  | some above =>
    exact .ite (.writeBelow q _ () _ (.ok ())) (.bind .makeDirectories (.writeBelow q _ () _))

/-- Neither an engine that a request calls nor the file that it writes touches the database, its
lock file or the way to them. -/
def Disk.Place.Undisturbed (l : Place) (r : Registry) (h : Host) : Request → Prop
  | .decompile locations engine noRealign _ output =>
    ∀ o, r.overrides engine noRealign = .ok o →
      (∀ g ∈ r.engineCalls o (locations.map Location.parse) h, g.Still l.Watched h.disk) ∧
      ∀ q, output = some q → ∀ s, l.Watched s →
        ¬((r.decompileAll o (locations.map Location.parse)).run h).2.Overwrites q s
  | .directory path engine noRealign =>
    ∀ o, r.overrides engine noRealign = .ok o →
      ∀ g ∈ r.engineCalls o ((classFiles h path).map .file) h, g.Still l.Watched h.disk
  | _ => True

/-! ## The registry -/

namespace Registry

variable {s : Store} {t : ToolPaths}

theorem store_standardRegistry (s : Store) (t : ToolPaths) : (standardRegistry s t).store = s := by
  simp only [standardRegistry, store_register]
  rfl

theorem descriptors_standardRegistry (s : Store) (t : ToolPaths) :
    (standardRegistry s t).descriptors = presented := by
  rw [descriptors, engines_standardRegistry]
  rfl

theorem isSome_engine?_standardRegistry {id : String} :
    ((standardRegistry s t).engine? id).isSome = true ↔ id ∈ presented.map (·.id) := by
  have hids : engineIds (standardRegistry s t).engines = presented.map (·.id) := by
    rw [← descriptors_standardRegistry s t, descriptors, List.map_map]
    rfl
  rw [← hids, Option.isSome_iff_ne_none]
  exact (not_congr findEngine_eq_none_iff).trans Decidable.not_not

/-- The settings are written first, and then they are shown. -/
theorem run_runWith_of_written {request : Request} {key value : String}
    (hwritten : request.written? = some (key, value)) (db : Path) (h : Host) :
    (runWith (standardRegistry s t) db request).run h =
      match (s.put key value).run h with
      | (.ok (), h') => (printSettings (standardRegistry s t) db >>= fun _ => pure (.ok ())).run h'
      | (.error e, h') => (.error (.ofError e), h') := by
  cases request with
  | select id =>
    by_cases hid : id ∈ presented.map (·.id)
    · simp only [Request.written?, Request.chosen?, if_pos hid, Option.map_some,
        Option.some_or] at hwritten
      obtain ⟨rfl, rfl⟩ := Prod.mk.inj (Option.some.inj hwritten)
      have hknown := isSome_engine?_standardRegistry (s := s) (t := t).2 hid
      obtain ⟨e, he⟩ := Option.isSome_iff_exists.1 hknown
      unfold runWith runSelect
      simp only [he]
      rw [Host.run_bind, Host.run_bind, ClassViewer.run_select, if_pos hknown,
        store_standardRegistry]
      rcases (s.put selectedKey id).run h with ⟨_ | _, h'⟩ <;> rfl
    · simp only [Request.written?, Request.chosen?, if_neg hid, Request.realigned?] at hwritten
      cases hwritten
  | realign enabled =>
    obtain ⟨rfl, rfl⟩ := Prod.mk.inj (Option.some.inj hwritten)
    unfold runWith Registry.setPreservesLines Store.putBool
    rw [Host.run_bind, store_standardRegistry]
    rcases (s.put preserveLinesKey (Store.boolText enabled)).run h with ⟨_ | _, h'⟩ <;> rfl
  | _ => cases hwritten

end Registry

/-! ## Requests on an open database -/

/-- The store takes what a request writes, if it writes anything. -/
def CommandLine.Request.Taken (r : Request) (s : Store) (h : Host) : Prop :=
  ∀ key value, r.written? = some (key, value) → ((s.put key value).run h).1 = .ok ()

namespace Database.Library.Durable

variable {library : Library} {l : Place} {Contains : ByteArray → Table → Prop}
  {Live : library.Handle → Table → Host → Prop} (D : library.Durable l Contains Live)
  {handle : library.Handle} {t t' : Table} {h : Host} {requests : List Request}
  {request : Request}

include D

theorem run_get (hlive : Live handle t h) (key : String) (hkey : key ∈ preferenceKeys) :
    ((library.store handle).get key).run h = (.ok (t.lookup key), h) :=
  Prod.ext (D.read hlive hkey) ((D.reads handle key).keeps h)

/-- What is printed or computed elsewhere leaves the database open. -/
theorem live_of_same {h' : Host} (hlive : Live handle t h) (hdatabases : h'.databases = h.databases)
    (hdisk : h'.disk = h.disk) : Live handle t h' := by
  obtain ⟨file, lock, -, hx⟩ := D.kept hlive
  exact D.untouched hlive hdatabases (hdisk ▸ hx.still)

variable (hlive : Live handle t h) (htells : t.Tells requests) (tools : ToolPaths)

section Answers

include hlive htells

theorem run_selected :
    ∃ e, ((standardRegistry (library.store handle) tools).selected).run h = (e, h) ∧
      e.descriptor.id = (settingsAfter requests).selected := by
  have hget := D.run_get hlive selectedKey List.mem_cons_self
  have hid : Registry.storedId (.ok (t.lookup selectedKey)) =
      (settingsAfter requests).selected := by
    rw [htells.chosen, settingsAfter]
    cases (sinceReset requests).findSome? (·.chosen?) <;> rfl
  rw [Registry.run_selected, Registry.store_standardRegistry, hget]
  refine ⟨_, rfl, ?_⟩
  rw [(Registry.selects_engineFor _ _).descriptor_id, hid]
  rw [Registry.isSome_engine?_standardRegistry, hid]
  exact selected_settingsAfter_mem requests

theorem run_preservesLines :
    ((standardRegistry (library.store handle) tools).preservesLines).run h =
      ((settingsAfter requests).preserveLines, h) := by
  have hget := D.run_get hlive preserveLinesKey (List.mem_cons_of_mem _ List.mem_cons_self)
  unfold Registry.preservesLines Store.getBool
  rw [Host.run_bind, Registry.store_standardRegistry, hget, htells.realigned, settingsAfter]
  generalize (sinceReset requests).findSome? (·.realigned?) = last
  rcases last with _ | _ | _ <;> rfl

/-- The settings are shown as the table tells them. -/
theorem run_printSettings (db : Path) :
    (printSettings (standardRegistry (library.store handle) tools) db).run h =
      ((), { h with stdout := h.stdout ++ ((settingsAfter requests).shown db).toUTF8 }) := by
  obtain ⟨e, hselected, hid⟩ := D.run_selected hlive htells tools
  unfold printSettings settingsJson
  simp only [Host.run_bind, hselected, D.run_preservesLines hlive htells tools, hid]
  rfl

theorem run_show (db : Path) :
    (runWith (standardRegistry (library.store handle) tools) db .showSettings).run h =
      (.ok (), { h with stdout := h.stdout ++ ((settingsAfter requests).shown db).toUTF8 }) := by
  unfold runWith
  rw [Host.run_bind, D.run_printSettings hlive htells tools]
  rfl

theorem run_engines (db : Path) :
    (runWith (standardRegistry (library.store handle) tools) db .engines).run h =
      (.ok (), { h with stdout := h.stdout ++ (settingsAfter requests).listed.toUTF8 }) := by
  obtain ⟨e, hselected, hid⟩ := D.run_selected hlive htells tools
  unfold runWith
  rw [Host.run_bind, hselected, Registry.descriptors_standardRegistry, hid]
  rfl

/-- An engine that is not known is not selected; that is a warning, and no failure. -/
theorem run_select_of_unknown {id : String} (hid : id ∉ presented.map (·.id)) (db : Path) :
    (runWith (standardRegistry (library.store handle) tools) db (.select id)).run h =
      (.ok (), { h with
        stdout := h.stdout ++ ((settingsAfter requests).shown db).toUTF8
        stderr := h.stderr ++ ("Unknown engine: " ++ id ++ " (available: " ++
          (standardRegistry (library.store handle) tools).idList ++
          "); selection unchanged\n").toUTF8 }) := by
  have hunknown : (standardRegistry (library.store handle) tools).engine? id = none := by
    rw [← Option.not_isSome_iff_eq_none, Registry.isSome_engine?_standardRegistry]
    exact hid
  have hprint (warned : ByteArray) :=
    D.run_printSettings (h := { h with stderr := warned }) (D.live_of_same hlive rfl rfl) htells
      tools db
  unfold runWith runSelect
  simp only [hunknown]
  rw [Host.run_bind]
  exact congrArg (fun ran => (Except.ok (), ran.2)) (hprint _)

end Answers

section Decompiling

include hlive

/-- Engines that leave the database alone are called, and nothing else happens to it. -/
theorem decompileAll {o : Overrides} {locations : List Location}
    (hcalls : ∀ g ∈ (standardRegistry (library.store handle) tools).engineCalls o locations h,
      g.Still l.Watched h.disk) :
    Live handle t (((standardRegistry (library.store handle) tools).decompileAll o
      locations).run h).2 := by
  have hstore : (standardRegistry (library.store handle) tools).store.ReadsOnly := by
    rw [Registry.store_standardRegistry]
    exact D.reads handle
  have hengines : ∀ e ∈ (standardRegistry (library.store handle) tools).engines, e.IsApart :=
    isApart_standardRegistry _ tools
  obtain ⟨file, lock, -, hx⟩ := D.kept hlive
  exact D.untouched hlive (Registry.apart_decompileAll hstore hengines o locations h).1
    (Registry.still_decompileAll hstore locations hx.still hcalls)

theorem writeOutput {q : Path} (hout : ∀ s, l.Watched s → ¬h.Overwrites q s) (content : String) :
    Live handle t ((ClassViewer.writeOutput q content).run h).2 := by
  obtain ⟨file, lock, -, hx⟩ := D.kept hlive
  exact D.untouched hlive (apart_writeOutput q content h).1
    (Host.still_writeOutput hx.still (fun s => hx.isSome) hout content)

theorem forM_print {α : Type} (rows : List α) (text : α → String) :
    Live handle t ((rows.forM fun row => Host.print (text row)).run h).2 := by
  induction rows generalizing h with
  | nil => exact hlive
  | cons row rows ih =>
    rw [List.forM, Host.run_bind]
    exact ih (D.live_of_same hlive rfl rfl)

/-- Decompiling with other settings for once leaves those in the database as they are. -/
theorem runDecompile {locations : List String} {engine : Option String} {noRealign : Bool}
    {format : Format} {output : Option Path}
    (hquiet : l.Undisturbed (standardRegistry (library.store handle) tools) h
      (.decompile locations engine noRealign format output)) :
    Live handle t ((CommandLine.runDecompile (standardRegistry (library.store handle) tools)
      (locations.map Location.parse) engine noRealign format output).run h).2 := by
  unfold CommandLine.runDecompile
  cases ho : (standardRegistry (library.store handle) tools).overrides engine noRealign with
  | error f => exact hlive
  | ok o =>
    obtain ⟨hcalls, hout⟩ := hquiet o ho
    have hafter := D.decompileAll hlive tools hcalls
    simp only
    rw [Host.run_bind]
    cases output with
    | none => exact D.live_of_same hafter rfl rfl
    | some q => exact D.writeOutput hafter (hout q rfl) _

/-- So does decompiling what lies below a directory. -/
theorem runDirectory {path : Path} {engine : Option String} {noRealign : Bool}
    (hquiet : l.Undisturbed (standardRegistry (library.store handle) tools) h
      (.directory path engine noRealign)) :
    Live handle t ((CommandLine.runDirectory (standardRegistry (library.store handle) tools) path
      engine noRealign).run h).2 := by
  unfold CommandLine.runDirectory
  cases ho : (standardRegistry (library.store handle) tools).overrides engine noRealign with
  | error f => exact hlive
  | ok o =>
    have hafter := D.decompileAll hlive tools (hquiet o ho)
    simp only
    rw [Host.run_get_bind, Host.run_bind]
    generalize ((standardRegistry (library.store handle) tools).decompileAll o
      ((classFiles h path).map .file)).run h = ran at hafter
    exact D.forM_print hafter ran.1 _

end Decompiling

section Whole

include hlive htells

/-- A request that says something has it in the table and shows the settings, if the library takes
what is written; else it fails. -/
theorem run_said {key value : String} (hwritten : request.written? = some (key, value))
    (db : Path) :
    ∃ done h', (runWith (standardRegistry (library.store handle) tools) db request).run h =
        (done, h') ∧
      (∃ t', Live handle t' h' ∧
        t'.Tells (if done.isOk then requests ++ [request] else requests)) ∧
      (done.isOk = true ↔ request.Taken (library.store handle) h) ∧
      h'.stdout = h.stdout ++ if done.isOk then
        ((settingsAfter (requests ++ [request])).shown db).toUTF8 else ByteArray.empty := by
  have htaken : request.Taken (library.store handle) h ↔
      (((library.store handle).put key value).run h).1 = .ok () := by
    unfold Request.Taken
    rw [hwritten]
    refine ⟨fun hput => hput key value rfl, fun hput _ _ hsame => ?_⟩
    obtain ⟨rfl, rfl⟩ := Prod.mk.inj (Option.some.inj hsame)
    exact hput
  rw [Registry.run_runWith_of_written hwritten, htaken]
  obtain ⟨hstdout, hput⟩ := D.written hlive hwritten
  generalize ((library.store handle).put key value).run h = ran at hstdout hput
  obtain ⟨done, h'⟩ := ran
  cases done with
  | error e =>
    refine ⟨_, _, rfl, ⟨t, hput, htells⟩, ?_, hstdout.trans ByteArray.append_empty.symm⟩
    exact ⟨fun hok => (by cases hok), fun hok => (by cases hok)⟩
  | ok done =>
    have hafter := htells.said hwritten
    have hprint := D.run_printSettings hput hafter tools db
    refine ⟨.ok (), { h' with stdout := h'.stdout ++
      ((settingsAfter (requests ++ [request])).shown db).toUTF8 }, ?_,
      ⟨_, D.live_of_same hput rfl rfl, hafter⟩, ⟨fun _ => rfl, fun _ => rfl⟩,
      congrArg (· ++ _) hstdout⟩
    simp only
    rw [Host.run_bind, hprint]
    rfl

/-- A request that says nothing answers for the settings as they are, and leaves the table as it
is. -/
theorem run_unsaid (hreset : request ≠ .reset) (hwritten : request.written? = none)
    (hquiet : l.Undisturbed (standardRegistry (library.store handle) tools) h request)
    (db : Path) :
    ∃ done h', (CommandLine.runWith (standardRegistry (library.store handle) tools) db
        request).run h = (done, h') ∧ Live handle t h' ∧
      ∀ text, (settingsAfter requests).answer? db request = some text →
        done.isOk = true ∧ h'.stdout = h.stdout ++ text.toUTF8 := by
  cases request with
  | reset => exact absurd rfl hreset
  | realign enabled => cases hwritten
  | decompile locations engine noRealign format output =>
    exact ⟨_, _, rfl, D.runDecompile hlive tools hquiet, fun text htext => (by cases htext)⟩
  | directory path engine noRealign =>
    exact ⟨_, _, rfl, D.runDirectory hlive tools hquiet, fun text htext => (by cases htext)⟩
  | engines =>
    refine ⟨_, _, D.run_engines hlive htells tools db, D.live_of_same hlive rfl rfl,
      fun text htext => ⟨rfl, ?_⟩⟩
    rw [← Option.some.inj htext]
  | showSettings =>
    refine ⟨_, _, D.run_show hlive htells tools db, D.live_of_same hlive rfl rfl,
      fun text htext => ⟨rfl, ?_⟩⟩
    rw [← Option.some.inj htext]
  | select id =>
    have hunknown : id ∉ presented.map (·.id) := fun hid => by
      rw [Request.written?, Request.chosen?, if_pos hid] at hwritten
      cases hwritten
    refine ⟨_, _, D.run_select_of_unknown hlive htells tools hunknown db,
      D.live_of_same hlive rfl rfl, fun text htext => ⟨rfl, ?_⟩⟩
    rw [← Option.some.inj htext]

/-- A request on an open database leaves one that tells the settings after it, or those before it
if it fails. What answers for the settings fails only if something that is written is not taken. -/
theorem runWith (hreset : request ≠ .reset)
    (hquiet : l.Undisturbed (standardRegistry (library.store handle) tools) h request)
    (db : Path) :
    ∃ done h', (CommandLine.runWith (standardRegistry (library.store handle) tools) db
        request).run h = (done, h') ∧
      (∃ t', Live handle t' h' ∧
        t'.Tells (if done.isOk then requests ++ [request] else requests)) ∧
      ∀ text, (settingsAfter (requests ++ [request])).answer? db request = some text →
        (done.isOk = true ↔ request.Taken (library.store handle) h) ∧
        h'.stdout = h.stdout ++ if done.isOk then text.toUTF8 else ByteArray.empty := by
  cases hwritten : request.written? with
  | some said =>
    obtain ⟨done, h', hran, hleft, htaken, hstdout⟩ := D.run_said hlive htells tools hwritten db
    refine ⟨done, h', hran, hleft, fun text htext => ⟨htaken, ?_⟩⟩
    rw [hstdout]
    cases request with
    | select id => rw [← Option.some.inj htext]
    | realign enabled => rw [← Option.some.inj htext]
    | _ => cases hwritten
  | none =>
    obtain ⟨hchosen, hrealigned⟩ := Option.or_eq_none_iff.1 hwritten
    have hsame := settingsAfter_concat_of_unsaid hreset (Option.map_eq_none_iff.1 hchosen)
      (Option.map_eq_none_iff.1 hrealigned) requests
    have htaken : request.Taken (library.store handle) h := by
      intro key value hsaid
      rw [hwritten] at hsaid
      cases hsaid
    obtain ⟨done, h', hran, hlive', hanswers⟩ :=
      D.run_unsaid hlive htells tools hreset hwritten hquiet db
    refine ⟨done, h', hran, ⟨t, hlive', ?_⟩, fun text htext => ?_⟩
    · split
      · exact htells.unsaid hreset hwritten
      · exact htells
    · rw [hsame] at htext
      obtain ⟨hok, hstdout⟩ := hanswers text htext
      rw [if_pos hok]
      exact ⟨⟨fun _ => htaken, fun _ => hok⟩, hstdout⟩

end Whole

end Database.Library.Durable

end ClassViewer
