import ClassViewer.Batch
import ClassViewer.Engine.Cfr
import ClassViewer.Engine.Procyon
import ClassViewer.Proofs.Disk.Direct
import ClassViewer.Proofs.Disk.Meanwhile
import ClassViewer.Proofs.Host
import ClassViewer.Proofs.Registry
import ClassViewer.Proofs.Sha256
import ClassViewer.Proofs.Stores

/-!
# The rows of a batch

A batch is decompiled in rounds, and each location sees what the others do to the disk in the
meantime. Where the engines are functions of their inputs there is nothing to see: decompiling one
location only reads (`Host.Reads`), the changes it notes change nothing, and the first round is the
last. `rows_answer_locations` says what the rows are then: each answers its own location,
with the engine asked for or the selected one and the digest of what it says, as if no other
location had been given.
-/

namespace ClassViewer

/-! ## Computations that only read -/

/-- The machine with others at work on its disk. -/
def Host.among (h : Host) (m : Option Disk.Meanwhile) : Host := { h with meanwhile := m }

/-- A computation leaves the machine as it is and does not look at who else works on the disk. -/
structure Host.Reads {α : Type} (x : HostM α) : Prop where
  keeps : ∀ h, (x.run h).2 = h
  steady : ∀ h m, (x.run (h.among m)).1 = (x.run h).1

namespace Host.Reads

variable {α β : Type}

theorem pure (a : α) : Reads (Pure.pure a : HostM α) := ⟨fun _ => rfl, fun _ _ => rfl⟩

theorem bind {x : HostM α} {f : α → HostM β} (hx : Reads x)
    (hf : ∀ h, Reads (f (x.run h).1)) : Reads (x >>= f) where
  keeps h := by rw [run_bind, (hf h).keeps, hx.keeps]
  steady h m := by rw [run_bind, run_bind, hx.keeps, hx.keeps, hx.steady, (hf h).steady]

/-- A computation that begins with a look at the machine. -/
theorem asking {g : Host → α} {f : α → HostM β} (hg : ∀ h m, g (h.among m) = g h)
    (hf : ∀ h, Reads (f (g h))) : Reads (get >>= fun h => f (g h)) where
  keeps h := (hf h).keeps h
  steady h m := by
    rw [run_get_bind, run_get_bind, hg]
    exact (hf h).steady h m

end Host.Reads

/-! ## What is taken for granted -/

/-- What is to be seen through a scope. -/
structure Scope.View where
  canLoad : String → Bool
  load : String → Except DecompileError Blob
  classNames : List ClassId
  archivePath : Option Path

/-- What is to be seen through a scope on a machine. -/
def Scope.view (s : Scope) (h : Host) : Scope.View :=
  ⟨s.canLoad h, s.load h, s.classNames h, s.archivePath⟩

/-- An engine whose answer is a function of the class, its bytes, what is to be seen through the
scope, and whether lines are preserved. -/
def Engine.IsFunction (e : Engine) : Prop :=
  ∃ f : ClassId → ByteArray → Scope.View → Bool → Except DecompileError String,
    ∀ id bytes scope preserve h,
      (e.decompile id bytes scope preserve).run h = (f id bytes (scope.view h) preserve, h)

/-- Reading a preference changes nothing. -/
def Store.ReadsOnly (s : Store) : Prop := ∀ key, Host.Reads (s.get key)

theorem Engine.IsFunction.reads {e : Engine} (he : e.IsFunction) (id : ClassId) (bytes : ByteArray)
    {scope : Scope} (hscope : ∀ h m, scope.view (h.among m) = scope.view h) (preserve : Bool) :
    Host.Reads (e.decompile id bytes scope preserve) := by
  obtain ⟨f, hf⟩ := he
  exact ⟨fun h => by rw [hf], fun h m => by rw [hf, hf, hscope]⟩

theorem Store.readsOnly_inMemory (i : Nat) : (inMemory i).ReadsOnly :=
  fun _ => ⟨fun _ => rfl, fun _ _ => rfl⟩

theorem Store.readsOnly_database (r : Route) : (Database.store r).ReadsOnly := by
  intro key
  simp only [Database.store]
  split
  · exact .pure _
  · exact ⟨fun _ => rfl, fun _ _ => rfl⟩

/-- A store of which some reads fail is read as well. -/
theorem Store.ReadsOnly.failing {s : Store} (hs : s.ReadsOnly)
    {getFault : Host → String → Option DecompileError}
    (hfault : ∀ h m key, getFault (h.among m) key = getFault h key)
    (putFault : Host → String → String → Option DecompileError) :
    (s.failing getFault putFault).ReadsOnly := by
  intro key
  refine ⟨fun h => ?_, fun h m => ?_⟩
  · rw [run_get_failing]
    cases getFault h key with
    | some e => rfl
    | none => exact (hs key).keeps h
  · rw [run_get_failing, run_get_failing, hfault]
    cases getFault h key with
    | some e => rfl
    | none => exact (hs key).steady h m

/-! ## One location -/

theorem exists_of_bind_ok {ε α β : Type} {x : Except ε α} {f : α → Except ε β} {b : β}
    (h : x >>= f = .ok b) : ∃ a, x = .ok a ∧ f a = .ok b := by
  cases x with
  | error e => cases h
  | ok a => exact ⟨a, rfl, h⟩

/-- Neither the class at a location nor the scope around it depends on others at work. -/
theorem Location.subject_among (l : Location) (h : Host) (m : Option Disk.Meanwhile) :
    l.subject (h.among m) = l.subject h := by
  cases l <;> rfl

theorem Scope.view_siblings_among (directory : Path) (primary : Blob) (h : Host)
    (m : Option Disk.Meanwhile) :
    (siblings directory primary).view (h.among m) = (siblings directory primary).view h := by
  have hfile (p : Path) : (h.among m).isFile p = h.isFile p := rfl
  have hread (p : Path) : (h.among m).read p = h.read p := rfl
  have hlist (p : Path) : (h.among m).list p = h.list p := rfl
  simp only [view, siblings, hfile, hread, hlist]

theorem ArchiveIndex.view_scope_among (index : ArchiveIndex) (h : Host)
    (m : Option Disk.Meanwhile) : index.scope.view (h.among m) = index.scope.view h :=
  rfl

/-- What is known of the class that was found at a location. -/
theorem Location.subject_ok {l : Location} {h : Host} {s : Subject} (hs : l.subject h = .ok s) :
    s.id = l.className ∧ ∀ h' m, s.scope.view (h'.among m) = s.scope.view h' := by
  unfold Location.subject at hs
  split at hs
  · split at hs
    · cases hs
    · split at hs
      · cases hs
      · obtain rfl := Except.ok.inj hs
        simp only [Scope.view_siblings_among, implies_true, and_self]
  · obtain ⟨archive, -, hs⟩ := exists_of_bind_ok hs
    obtain ⟨index, -, hs⟩ := exists_of_bind_ok hs
    split at hs
    · obtain rfl := Except.ok.inj hs
      simp only [ArchiveIndex.view_scope_among, implies_true, and_self]
    · cases hs

namespace Registry

variable {r : Registry}

theorem reads_selected (hstore : r.store.ReadsOnly) : Host.Reads r.selected := by
  refine .bind (.bind (hstore _) fun h => ?_) fun _ => .pure _
  rcases ((r.store.get selectedKey).run h).1 with _ | _ | _ <;> exact .pure _

theorem reads_preservesLines (hstore : r.store.ReadsOnly) : Host.Reads r.preservesLines := by
  refine .bind (hstore _) fun h => ?_
  rcases ((r.store.get preserveLinesKey).run h).1 with _ | _ | _ <;> exact .pure _

/-- The engine that was asked for, or the selected one where none was. -/
def Chooses (r : Registry) (requested : Option String) (h : Host) (e : Engine) : Prop :=
  match requested with
  | some id => r.engine? id = some e
  | none => (r.selected.run h).1 = e

/-- Arguments that are accepted ask for nothing but a registered engine. -/
theorem overrides_eq_ok {engine : Option String} {noRealign : Bool} {o : Overrides}
    (ho : r.overrides engine noRealign = .ok o) :
    o = ⟨engine, if noRealign then some false else none⟩ ∧
      ∀ id, engine = some id → ∃ e, r.engine? id = some e := by
  unfold overrides at ho
  cases engine with
  | none => exact ⟨(Except.ok.inj ho).symm, nofun⟩
  | some id =>
    simp only at ho
    split at ho
    · rename_i hsome
      refine ⟨(Except.ok.inj ho).symm, ?_⟩
      rintro _ ⟨⟩
      exact Option.isSome_iff_exists.1 hsome
    · cases ho

theorem selected_mem (h : Host) : (r.selected.run h).1 ∈ r.engines := by
  rw [run_selected]
  exact (selects_engineFor r _).mem

theorem pick_mem (o : Overrides) (h : Host) : ((r.pick o).run h).1 ∈ r.engines := by
  unfold pick
  split
  · rename_i e he
    obtain ⟨id, -, hid⟩ := Option.bind_eq_some_iff.1 he
    exact mem_of_engine? hid
  · exact selected_mem h

theorem Chooses.mem {requested : Option String} {h : Host} {e : Engine}
    (he : r.Chooses requested h e) : e ∈ r.engines := by
  cases requested with
  | some id => exact mem_of_engine? he
  | none => exact he ▸ selected_mem h

/-- The request for an engine is met: there is no falling back to the selected one. -/
theorem chooses_pick {engine : Option String} {noRealign : Bool} {o : Overrides}
    (ho : r.overrides engine noRealign = .ok o) (h : Host) :
    r.Chooses engine h ((r.pick o).run h).1 := by
  obtain ⟨rfl, hengine⟩ := overrides_eq_ok ho
  cases engine with
  | none => rfl
  | some id =>
    obtain ⟨e, he⟩ := hengine id rfl
    have hpick : r.pick ⟨some id, if noRealign then some false else none⟩ = pure e := by
      simp only [pick, Option.bind_some, he]
    rw [hpick]
    exact he

/-- Whether lines are preserved in a request. -/
def preserved (r : Registry) (noRealign : Bool) (h : Host) : Bool :=
  if noRealign then false else (r.preservesLines.run h).1

theorem reads_pick (hstore : r.store.ReadsOnly) (o : Overrides) : Host.Reads (r.pick o) := by
  unfold pick
  split
  · exact .pure _
  · exact reads_selected hstore

/-- What is asked of the store for the flag of a request. -/
def flagFor (r : Registry) (o : Overrides) : HostM Bool :=
  match o.preserveLines with
  | some b => pure b
  | none => r.preservesLines

theorem reads_flagFor (hstore : r.store.ReadsOnly) (o : Overrides) : Host.Reads (r.flagFor o) := by
  unfold flagFor
  split
  · exact .pure _
  · exact reads_preservesLines hstore

theorem run_eq_bind (o : Overrides) (s : Subject) :
    r.run o s = r.pick o >>= fun engine => r.flagFor o >>= fun preserve =>
      engine.decompile s.id s.bytes s.scope preserve >>= fun answer =>
        match answer with
        | .ok text => pure (.ok ⟨s.id, engine.descriptor, text⟩)
        | .error e => pure (.error e) := by
  unfold run flagFor
  cases o.preserveLines <;> rfl

/-- A class that was found goes to the picked engine. -/
theorem run_run (hstore : r.store.ReadsOnly) (o : Overrides) (s : Subject) (h : Host) :
    let answer := (((r.pick o).run h).1.decompile s.id s.bytes s.scope
      ((r.flagFor o).run h).1).run h
    (r.run o s).run h =
      (answer.1.map fun text => ⟨s.id, ((r.pick o).run h).1.descriptor, text⟩, answer.2) := by
  simp only [run_eq_bind, Host.run_bind, (reads_pick hstore o).keeps,
    (reads_flagFor hstore o).keeps]
  generalize (((r.pick o).run h).1.decompile s.id s.bytes s.scope _).run h = answer
  rcases answer with ⟨_ | _, h'⟩ <;> rfl

theorem run_flagFor {engine : Option String} {noRealign : Bool} {o : Overrides}
    (ho : r.overrides engine noRealign = .ok o) (h : Host) :
    ((r.flagFor o).run h).1 = r.preserved noRealign h := by
  obtain ⟨rfl, -⟩ := overrides_eq_ok ho
  cases noRealign <;> rfl

theorem run_tryDecompile (o : Overrides) (l : Location) (h : Host) :
    (r.tryDecompile l o).run h = match l.subject h with
      | .error e => (.error e, h)
      | .ok s => (r.run o s).run h := by
  unfold tryDecompile
  rw [Host.run_get_bind]
  cases l.subject h <;> rfl

variable (hstore : r.store.ReadsOnly) (hengines : ∀ e ∈ r.engines, e.IsFunction)
variable {engine : Option String} {noRealign : Bool} {o : Overrides}

include hstore hengines

/-- Decompiling a class over engines that are functions only reads. -/
theorem reads_run (o : Overrides) {l : Location} {h₀ : Host} {s : Subject}
    (hs : l.subject h₀ = .ok s) : Host.Reads (r.run o s) := by
  have hanswer (h : Host) := (hengines _ (pick_mem o h)).reads s.id s.bytes
    (Location.subject_ok hs).2 ((r.flagFor o).run h).1
  refine ⟨fun h => ?_, fun h m => ?_⟩
  · rw [run_run hstore]
    exact (hanswer h).keeps h
  · rw [run_run hstore, run_run hstore]
    simp only [(reads_pick hstore o).steady, (reads_flagFor hstore o).steady, (hanswer h).steady]

theorem reads_decompileRow (o : Overrides) (l : Location) : Host.Reads (r.decompileRow o l) := by
  have htry : Host.Reads (r.tryDecompile l o) := by
    refine ⟨fun h => ?_, fun h m => ?_⟩
    · rw [run_tryDecompile]
      cases hs : l.subject h with
      | error e => rfl
      | ok s => exact (reads_run hstore hengines o hs).keeps h
    · rw [run_tryDecompile, run_tryDecompile, l.subject_among]
      cases hs : l.subject h with
      | error e => rfl
      | ok s => exact (reads_run hstore hengines o hs).steady h m
  exact .bind htry fun _ => .pure _

end Registry

/-! ## The answer for a location -/

/-- A row tells what an engine has answered. -/
def Row.Tells (row : Row) (r : Registry) (e : Engine) : Except DecompileError String → Prop
  | .ok text => row.engine = some e.descriptor.id ∧ row.error = none ∧ row.content = text
  | .error err => row.engine = none ∧ row.error = some err.kind ∧ row.content = r.diagnostic err

/-- A row answers a location, for an engine asked for or not and lines left alone or not. -/
structure Row.Answers (row : Row) (r : Registry) (requested : Option String) (noRealign : Bool)
    (h : Host) (l : Location) : Prop where
  location : row.location = l.display
  className : row.className = l.className.dotted
  /-- There is an engine or an error. -/
  engine_iff : row.engine = none ↔ row.error ≠ none
  /-- The digest of the bytes of the content. -/
  hash : row.contentHash = Digest.Standard.hex row.content.toUTF8.data.toList
  /-- Where no class is found, the row says why. -/
  unfound : ∀ err, l.subject h = .error err →
    row.engine = none ∧ row.error = some err.kind ∧ row.content = r.diagnostic err
  /-- A class that is found goes to the engine asked for, or else to the selected one. -/
  found : ∀ s, l.subject h = .ok s → ∃ e ∈ r.engines, r.Chooses requested h e ∧
    row.Tells r e
      ((e.decompile s.id s.bytes s.scope (r.preserved noRealign h)).run h).1
  /-- An engine that is named is the one asked for. -/
  as_requested : ∀ id name, requested = some id → row.engine = some name → name = id
  /-- Where none is asked for it is the selected one. -/
  as_selected : ∀ name, requested = none → row.engine = some name →
    name = (r.selected.run h).1.descriptor.id

theorem Row.ofOutcome_error (r : Registry) (l : Location) (err : DecompileError) :
    ofOutcome r l (.error err) = ⟨l.display, l.className.dotted, l.fileName, none, some err.kind,
      Digest.Standard.hex (r.diagnostic err).toUTF8.data.toList, r.diagnostic err⟩ := by
  simp only [ofOutcome, Document.ofLocation, Digest.Standard.hexOfText_eq]

theorem Row.ofOutcome_ok (r : Registry) (l : Location) (d : Decompiled) :
    ofOutcome r l (.ok d) = ⟨l.display, d.id.dotted, l.fileName, some d.engine.id, none,
      Digest.Standard.hex d.text.toUTF8.data.toList, d.text⟩ := by
  simp only [ofOutcome, Document.ofLocation, Digest.Standard.hexOfText_eq]

theorem Row.answers_unfound {r : Registry} {requested : Option String} {noRealign : Bool}
    {h : Host} {l : Location} {err : DecompileError} (hl : l.subject h = .error err) :
    (ofOutcome r l (.error err)).Answers r requested noRealign h l := by
  rw [ofOutcome_error]
  refine ⟨by simp only, by simp only, by simp, by simp only, fun err' hl' => ?_, fun s hs => ?_,
    nofun, nofun⟩
  · obtain rfl := Except.error.inj (hl.symm.trans hl')
    simp only [and_self]
  · cases hl.symm.trans hs

theorem Row.answers_found {r : Registry} {requested : Option String} {noRealign : Bool} {h : Host}
    {l : Location} {s : Subject} (hl : l.subject h = .ok s) {e : Engine}
    (he : r.Chooses requested h e) :
    (ofOutcome r l (((e.decompile s.id s.bytes s.scope (r.preserved noRealign h)).run h).1.map
      fun text => ⟨s.id, e.descriptor, text⟩)).Answers r requested noRealign h l := by
  generalize hanswer : ((e.decompile s.id s.bytes s.scope (r.preserved noRealign h)).run h).1 =
    answer
  have hunfound : ∀ err, l.subject h ≠ .error err := by
    intro err hl'
    cases hl.symm.trans hl'
  have hfound {row : Row} (htells : row.Tells r e answer) : ∀ s', l.subject h = .ok s' →
      ∃ e ∈ r.engines, r.Chooses requested h e ∧ row.Tells r e
        ((e.decompile s'.id s'.bytes s'.scope (r.preserved noRealign h)).run h).1 := by
    intro s' hl'
    obtain rfl := Except.ok.inj (hl.symm.trans hl')
    exact ⟨e, he.mem, he, hanswer ▸ htells⟩
  cases answer with
  | error err =>
    have hmap : (Except.error err : Except DecompileError String).map
        (fun text => (⟨s.id, e.descriptor, text⟩ : Decompiled)) = .error err := rfl
    rw [hmap, ofOutcome_error]
    exact ⟨by simp only, by simp only, by simp, by simp only,
      fun err hl' => absurd hl' (hunfound err), hfound (by simp only [Row.Tells, and_self]),
      nofun, nofun⟩
  | ok text =>
    have hmap : (Except.ok text : Except DecompileError String).map
        (fun text => (⟨s.id, e.descriptor, text⟩ : Decompiled)) =
          .ok ⟨s.id, e.descriptor, text⟩ := rfl
    rw [hmap, ofOutcome_ok]
    refine ⟨by simp only, by simp only [(Location.subject_ok hl).1], by simp, by simp only,
      fun err hl' => absurd hl' (hunfound err), hfound (by simp only [Row.Tells, and_self]), ?_, ?_⟩
    · rintro id name rfl hname
      exact (Option.some.inj hname).symm.trans (Registry.descriptor_id_of_engine? he)
    · rintro name rfl hname
      exact (Option.some.inj hname).symm.trans
        (congrArg (fun e : Engine => e.descriptor.id) he.symm)

theorem Registry.answers_decompileRow {r : Registry} (hstore : r.store.ReadsOnly)
    {engine : Option String} {noRealign : Bool} {o : Overrides}
    (ho : r.overrides engine noRealign = .ok o) (l : Location) (h : Host) :
    ((r.decompileRow o l).run h).1.Answers r engine noRealign h l := by
  have hrow : ((r.decompileRow o l).run h).1 =
      Row.ofOutcome r l ((r.tryDecompile l o).run h).1 := rfl
  rw [hrow, run_tryDecompile]
  cases hs : l.subject h with
  | error err => exact Row.answers_unfound hs
  | ok s =>
    simp only [run_run hstore, run_flagFor ho]
    exact Row.answers_found hs (chooses_pick ho h)

/-! ## Rounds in which nothing is done to the disk -/

/-- The machine with another disk, and others at work on it or not. -/
def Host.onDisk (h : Host) (d : Disk) (m : Option Disk.Meanwhile) : Host :=
  { h with disk := d, meanwhile := m }

@[simp] theorem Host.disk_onDisk (h : Host) (d : Disk) (m : Option Disk.Meanwhile) :
    (h.onDisk d m).disk = d := rfl

@[simp] theorem Host.onDisk_onDisk (h : Host) (d d' : Disk) (m m' : Option Disk.Meanwhile) :
    (h.onDisk d m).onDisk d' m' = h.onDisk d' m' := rfl

/-- Nothing is changed anywhere. -/
def Disk.Change.Idle (c : Disk.Change) : Prop := c.Spares fun _ => True

namespace Registry

/-- Before the beginning nobody has done anything. -/
theorem changesBehind_zero (changes : List (List Disk.Change)) :
    changesBehind changes 0 = List.replicate (changes.length - 1) [] := by
  have hnone (own : List Disk.Change) : own.filter (fun c => c.time < 0) = [] := by simp
  simp only [changesBehind, hnone, List.map_const', List.length_tail]

variable {r : Registry} (hstore : r.store.ReadsOnly) (hengines : ∀ e ∈ r.engines, e.IsFunction)
variable (o : Overrides)

include hstore hengines

/-- A location that is decompiled beside others gives its row, and a change that changes nothing. -/
theorem run_decompileBeside (others : List Disk.Change) (l : Location) (h : Host) :
    (r.decompileBeside o others l).run h =
      ((((r.decompileRow o l).run h).1, [⟨0, h.disk, h.disk⟩]),
        h.onDisk (others.foldl (fun d c => c.apply d) h.disk) none) := by
  have hreads := reads_decompileRow hstore hengines o l
  have hrow := hreads.steady h (some (.start others h.disk))
  have hkept := hreads.keeps (h.among (some (.start others h.disk)))
  have hrun : (r.decompileRow o l).run (h.among (some (.start others h.disk))) =
      (((r.decompileRow o l).run h).1, h.among (some (.start others h.disk))) :=
    Prod.ext hrow hkept
  have hbeside : (r.decompileBeside o others l).run h =
      (((((r.decompileRow o l).run (h.among (some (.start others h.disk)))).1,
        (Host.settle.run ((r.decompileRow o l).run (h.among (some (.start others h.disk)))).2).1),
        (Host.settle.run ((r.decompileRow o l).run
          (h.among (some (.start others h.disk)))).2).2)) := rfl
  rw [hbeside, hrun]
  rfl

/-- A round over locations of whose changes nothing is known gives their rows one by one. -/
theorem run_decompileRound (begun : Disk) {earlier : List Disk.Change}
    (hearlier : ∀ c ∈ earlier, c.Idle) (ls : List Location) (h : Host)
    (hdisk : Disk.Agree (fun _ => True) begun h.disk) :
    ∃ d m, Disk.Agree (fun _ => True) begun d ∧
      (r.decompileRound o begun earlier (ls.map fun l => (l, []))).run h =
        (ls.map fun l => (((r.decompileRow o l).run (h.onDisk begun none)).1, [⟨0, begun, begun⟩]),
          h.onDisk d m) := by
  induction ls generalizing earlier h with
  | nil => exact ⟨h.disk, h.meanwhile, hdisk, rfl⟩
  | cons l ls ih =>
    have hown : (⟨0, begun, begun⟩ : Disk.Change).Idle := fun _ _ => rfl
    have hnext : ∀ c ∈ Disk.Change.insertAll [⟨0, begun, begun⟩] earlier, c.Idle :=
      Disk.Change.forall_insertAll (fun _ _ => .merge) (by simpa using hown) hearlier
    have hbehind : (ls.map fun l => (l, ([] : List Disk.Change))).flatMap
        (fun e => e.2.map Disk.Change.later) = [] := by simp
    have hseen := Disk.Change.agree_foldl_apply hearlier begun
    generalize hd₁ : earlier.foldl (fun d c => c.apply d) begun = d₁ at hseen
    obtain ⟨d, m, hd, hrest⟩ := ih hnext (h.onDisk d₁ none) hseen
    refine ⟨d, m, hd, ?_⟩
    have hstep : (r.decompileRound o begun earlier ((l :: ls).map fun l => (l, []))).run h =
        let first := (r.decompileBeside o (Disk.Change.insertAll ((ls.map fun l =>
          (l, ([] : List Disk.Change))).flatMap (fun e => e.2.map Disk.Change.later)) earlier)
            l).run (h.onDisk begun h.meanwhile)
        let rest := (r.decompileRound o begun (Disk.Change.insertAll first.1.2 earlier)
          (ls.map fun l => (l, []))).run first.2
        ((first.1.1, first.1.2) :: rest.1, rest.2) := rfl
    have hrow : ((r.decompileRow o l).run (h.onDisk begun h.meanwhile)).1 =
        ((r.decompileRow o l).run (h.onDisk begun none)).1 :=
      (reads_decompileRow hstore hengines o l).steady (h.onDisk begun none) h.meanwhile
    rw [hstep, hbehind]
    have hnone : Disk.Change.insertAll [] earlier = earlier := rfl
    simp only [run_decompileBeside hstore hengines, hrow, List.map_cons, Host.disk_onDisk, hnone,
      hd₁, Host.onDisk_onDisk]
    rw [hrest]
    rfl

/-- The first round of a batch is the last : nothing was done that others should have seen. -/
theorem run_decompileAll (ls : List Location) (h : Host) :
    ∃ d m, Disk.Agree (fun _ => True) h.disk d ∧
      (r.decompileAll o ls).run h =
        (ls.map fun l => ((r.decompileRow o l).run h).1, h.onDisk d m) := by
  obtain ⟨d, m, hd, hround⟩ := run_decompileRound hstore hengines o h.disk
    (List.forall_mem_nil _) ls h (.refl _)
  refine ⟨d, m, hd, ?_⟩
  have hrow (l : Location) : ((r.decompileRow o l).run (h.onDisk h.disk none)).1 =
      ((r.decompileRow o l).run h).1 :=
    (reads_decompileRow hstore hengines o l).steady h none
  simp only [hrow] at hround
  unfold decompileAll decompileRounds
  rw [Host.run_get_bind]
  simp only [hround]
  have hlast (ls : List Location) : (((ls.map fun l => (((r.decompileRow o l).run h).1,
      [(⟨0, h.disk, h.disk⟩ : Disk.Change)])).map (·.2)).flatten.map (·.time)).foldl max 0 = 0 := by
    induction ls with
    | nil => rfl
    | cons l ls ih => exact ih
  rw [hlast, if_pos]
  · simp only [List.map_map]
    rfl
  · simp only [changesBehind_zero, List.length_map]

end Registry

/-! ## Batches -/

theorem Store.Stands.table?_onDisk {s : Store} {table? : Host → Option Table} (hs : s.Stands table?)
    (h : Host) (d : Disk) (m : Option Disk.Meanwhile) : table? (h.onDisk d m) = table? h := by
  induction hs with
  | memory i => rfl
  | database r => rfl
  | failing _ _ _ ih => exact ih

/-- For every registry over engines that are functions of their inputs, and every engine and flag
that may be asked for : a batch gives one row for each location in order, the row that the location
gives alone, and the row answers the location. Neither the table of the store nor anything on the
disk is changed, nor anything else on the machine. -/
theorem rows_answer_locations (r : Registry) (hstore : r.store.ReadsOnly)
    (hengines : ∀ e ∈ r.engines, e.IsFunction) {engine : Option String} {noRealign : Bool}
    {o : Overrides} (ho : r.overrides engine noRealign = .ok o) (ls : List Location) (h : Host) :
    let rows := ((r.decompileAll o ls).run h).1
    let after := ((r.decompileAll o ls).run h).2
    rows = ls.map (fun l => ((r.decompileRow o l).run h).1) ∧
      (∀ (i : Nat) (l : Location) (row : Row), ls[i]? = some l → rows[i]? = some row →
        row.Answers r engine noRealign h l) ∧
      (∀ table?, r.store.Stands table? → table? after = table? h) ∧
      (∀ route, after.disk.item? route = h.disk.item? route) ∧
      ∃ m, after = h.onDisk after.disk m := by
  obtain ⟨d, m, hd, hall⟩ := Registry.run_decompileAll hstore hengines o ls h
  rw [hall]
  refine ⟨rfl, ?_, ?_, fun route => hd route trivial, m, rfl⟩
  · intro i l row hl hrow
    simp only [List.getElem?_map, hl, Option.map_some, Option.some.injEq] at hrow
    subst hrow
    exact Registry.answers_decompileRow hstore ho l h
  · exact fun table? hs => hs.table?_onDisk h d m

/-- An engine that tells the path of its class, and whether another class is at hand. -/
def telling : Engine :=
  Cfr.engine fun path source _ _ => do
    return ⟨[.text path, .text (if (← source.content "C.class").isSome then "!" else "?")], .ok ()⟩

/-- An engine that fails. -/
def failing : Engine := Procyon.engine fun _ _ _ => return .error (.ofMessage "unsupported")

/-- A registry of both, over a store from which the flag cannot be read. -/
def tellingOrFailing : Registry :=
  ⟨telling, [failing], (Store.inMemory 0).failing
    (fun _ key => if key = preserveLinesKey then some (.store "unreadable") else none)
    fun _ _ _ => none⟩

/-- A machine with one class file, on which the engine that fails is selected. -/
def oneClass : Host :=
  { (default : Host) with
    disk := .holding "B.class" ByteArray.empty
    tables := [[(selectedKey, "procyon")]] }

theorem isFunction_tellingOrFailing : ∀ e ∈ tellingOrFailing.engines, e.IsFunction := by
  have htelling : telling.IsFunction :=
    ⟨fun id bytes v preserve => ((telling.decompile id bytes
      ⟨fun _ => v.canLoad, fun _ => v.load, fun _ => v.classNames, v.archivePath⟩ preserve).run
        default).1, fun _ _ _ _ _ => rfl⟩
  have hfailing : failing.IsFunction :=
    ⟨fun _ _ _ _ => Procyon.finish (.error (.ofMessage "unsupported")), fun _ _ _ _ _ => rfl⟩
  intro e he
  simp only [Registry.engines, tellingOrFailing, List.mem_cons, List.not_mem_nil, or_false] at he
  rcases he with rfl | rfl
  · exact htelling
  · exact hfailing

theorem subject_oneClass : ∃ s, (Location.file ⟨"B.class"⟩).subject oneClass = .ok s ∧
    Cfr.contentIn (s.scope.primaryFirst s.id s.bytes) oneClass "C.class" = none := by
  have hlookup : oneClass.disk.lookup oneClass.here true ⟨"B.class"⟩ =
      .ok (["B.class"], .file ByteArray.empty .nobody) :=
    Disk.lookup_holding (by decide +kernel) _
  have hfile : oneClass.isFile ⟨"B.class"⟩ = true := by rw [Host.isFile, Disk.isFile, hlookup]
  have hread : oneClass.read ⟨"B.class"⟩ = .ok ByteArray.empty := by
    rw [Host.read, Disk.read, hlookup]
  have hother : oneClass.isFile (Scope.siblingPath (directoryOf ⟨"B.class"⟩) "C") = false := by
    have hvacant : oneClass.disk.locate oneClass.here .target
        (Scope.siblingPath (directoryOf ⟨"B.class"⟩) "C") = .ok (.vacant [] "C.class") :=
      Disk.locate_of_leadsDirectly (by decide +kernel) .target
    simp only [Host.isFile, Disk.isFile, Disk.lookup, if_true, hvacant]
  simp only [Location.subject, hfile, hread, Bool.not_true, Bool.false_eq_true, if_false]
  refine ⟨_, rfl, if_pos ?_⟩
  have hname : Text.dropTail classSuffix "C.class" = "C" := by decide +kernel
  have hid : ("C" == (Location.file ⟨"B.class"⟩).className.text) = false := by decide +kernel
  simp only [hname, Scope.primaryFirst, Scope.siblings, hid, hother, Bool.or_false, Bool.not_false]

/-- An engine that is asked for answers although another one is selected, and where there is no
class the row says why; each with the digest of what it says. -/
theorem telling_row_answered :
    tellingOrFailing.store.ReadsOnly ∧ (∀ e ∈ tellingOrFailing.engines, e.IsFunction) ∧
      tellingOrFailing.overrides (some "cfr") true = .ok ⟨some "cfr", some false⟩ ∧
      (let rows := ((tellingOrFailing.decompileAll ⟨some "cfr", some false⟩
        [.file ⟨"B.class"⟩, .archived none "C.class"]).run oneClass).1
      (∃ row, rows[0]? = some row ∧ row.engine = some "cfr" ∧ row.error = none ∧
        row.content = "B.class?\n\n// Decompiled with CFR\n" ∧
        row.contentHash = "1c8ababb1d654588d47dcd4d9704b647c9af74020aec1814372d59635ae7099d") ∧
        ∃ row, rows[1]? = some row ∧ row.engine = none ∧
          row.error = some "ContainerUnresolvable" ∧
          row.content = "// Error during decompilation: Container unresolvable: Cannot " ++
            "determine archive for: C.class\n// ContainerUnresolvable\n" ∧
          row.contentHash =
            "b392b82d67a14629b98a4f61c7b4b9eb5afea2d41a41c8c086469230eade356e") := by
  have hstore : tellingOrFailing.store.ReadsOnly :=
    (Store.readsOnly_inMemory 0).failing (fun _ _ _ => rfl) fun _ _ _ => none
  have ho : tellingOrFailing.overrides (some "cfr") true = .ok ⟨some "cfr", some false⟩ := rfl
  refine ⟨hstore, isFunction_tellingOrFailing, ho, ?_⟩
  obtain ⟨hrows, hanswers, -⟩ := rows_answer_locations tellingOrFailing hstore
    isFunction_tellingOrFailing ho [.file ⟨"B.class"⟩, .archived none "C.class"] oneClass
  simp only [hrows, List.map_cons, List.map_nil] at hanswers ⊢
  refine ⟨⟨_, rfl, ?_⟩, ⟨_, rfl, ?_⟩⟩
  · have hrow := hanswers 0 _ _ rfl rfl
    obtain ⟨s, hs, hnone⟩ := subject_oneClass
    obtain ⟨e, -, hchosen, htells⟩ := hrow.found s hs
    obtain rfl : e = telling := (Option.some.inj hchosen).symm
    obtain ⟨hengine, herror, hcontent⟩ := htells
    rw [hnone, (Location.subject_ok hs).1] at hcontent
    have htext : _ = "B.class?\n\n// Decompiled with CFR\n" := hcontent.trans (by decide +kernel)
    refine ⟨hengine, herror, htext, ?_⟩
    rw [hrow.hash, htext, ← Digest.Standard.hexOfText_eq]
    decide +kernel
  · have hrow := hanswers 1 _ _ rfl rfl
    obtain ⟨hengine, herror, hcontent⟩ := hrow.unfound _ rfl
    have htext : _ = "// Error during decompilation: Container unresolvable: Cannot determine " ++
        "archive for: C.class\n// ContainerUnresolvable\n" := hcontent.trans (by decide +kernel)
    refine ⟨hengine, herror, htext, ?_⟩
    rw [hrow.hash, htext, ← Digest.Standard.hexOfText_eq]
    decide +kernel

end ClassViewer
