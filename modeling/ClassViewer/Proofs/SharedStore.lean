import ClassViewer.Proofs.Registry
import ClassViewer.Proofs.Stores

/-!
# Registries that share a store

Registries are registered on, cloned and asked to select while others write to the store they share,
and any access to the store may fail. Every operation asks for at most one write (`run_call`), so
one step keeps what registries present and leaves a table that holds the writes that succeeded
(`Sharing.Sound.step`), and so does every run (`Sharing.Sound.run`). What one registry selects the
others then answer, until the key is written again (`registries_agree_through_store`).
-/

namespace ClassViewer

/-- A registry, with the engines registered on it and on those it was cloned from, in order. -/
structure Recorded where
  registry : Registry
  registered : List Engine

/-- Registers an engine. -/
def Recorded.register (r : Recorded) (e : Engine) : Recorded :=
  ⟨r.registry.register e, r.registered ++ [e]⟩

/-- An operation on registries that share a store; a registry is given by its number. -/
inductive Operation
  | register (i : Nat) (e : Engine)
  | clone (i : Nat)
  | select (i : Nat) (id : String)
  | preserveLines (i : Nat) (b : Bool)
  | put (key value : String)

namespace Operation

/-- The registries after the operation. -/
def rearrange : Operation → List Recorded → List Recorded
  | register i e, rs => rs.modify i (·.register e)
  | clone i, rs => rs ++ rs[i]?.toList
  | _, rs => rs

/-- What the operation does to the machine. -/
def call (store : Store) (rs : List Recorded) : Operation → HostM (Except DecompileError Unit)
  | register _ _ => pure (.ok ())
  | clone _ => pure (.ok ())
  | select i id => match rs[i]? with
    | some r => r.registry.select id
    | none => pure (.ok ())
  | preserveLines i b => match rs[i]? with
    | some r => r.registry.setPreservesLines b
    | none => pure (.ok ())
  | put key value => store.put key value

/-- The key and the value that the operation asks the store to write. -/
def asked (rs : List Recorded) : Operation → Option (String × String)
  | register _ _ => none
  | clone _ => none
  | select i id => (rs[i]?.bind fun r => r.registry.engine? id).map fun _ => (selectedKey, id)
  | preserveLines i b => rs[i]?.map fun _ => (preserveLinesKey, Store.boolText b)
  | put key value => some (key, value)

end Operation

/-- Registries that share a store, on a machine, with the writes that the store has done, the last
one first. -/
structure Sharing where
  registries : List Recorded
  host : Host
  written : List (String × String)

/-- The table after writes, the last one first. -/
def Table.after (t : Table) (written : List (String × String)) : Table :=
  written.foldr (fun w t => t.put w.1 w.2) t

namespace Sharing

/-- Registries with one engine each. -/
def start (store : Store) (firsts : List Engine) (h : Host) : Sharing where
  registries := firsts.map fun e => ⟨.new store e, [e]⟩
  host := h
  written := []

/-- An operation at a time. -/
def step (store : Store) (s : Sharing) (op : Nat × Operation) : Sharing :=
  let done := (op.2.call store s.registries).run (s.host.at op.1)
  { registries := op.2.rearrange s.registries
    host := done.2
    written := if done.1.isOk then (op.2.asked s.registries).toList ++ s.written else s.written }

/-- Operations one after another, each at its time. -/
def run (store : Store) (s : Sharing) (ops : List (Nat × Operation)) : Sharing :=
  ops.foldl (step store) s

end Sharing

/-! ## One operation -/

theorem run_select (r : Registry) (id : String) (h : Host) :
    (r.select id).run h = if (r.engine? id).isSome then (r.store.put selectedKey id).run h
      else (.ok (), h) := by
  unfold Registry.select
  cases r.engine? id <;> rfl

/-- An operation does what it asks of the store, and nothing else. -/
theorem run_call {store : Store} {rs : List Recorded}
    (hrs : ∀ r ∈ rs, r.registry.store = store) (op : Operation) (h : Host) :
    (op.call store rs).run h = match op.asked rs with
      | some (key, value) => (store.put key value).run h
      | none => (.ok (), h) := by
  cases op with
  | register i e => rfl
  | clone i => rfl
  | put key value => rfl
  | select i id =>
    simp only [Operation.call, Operation.asked]
    cases hi : rs[i]? with
    | none => rfl
    | some r =>
      simp only [Option.bind_some, run_select, hrs r (List.mem_of_getElem? hi)]
      cases r.registry.engine? id <;> rfl
  | preserveLines i b =>
    simp only [Operation.call, Operation.asked]
    cases hi : rs[i]? with
    | none => rfl
    | some r =>
      simp only [Registry.setPreservesLines, Store.putBool, hrs r (List.mem_of_getElem? hi)]
      rfl

theorem forall_mem_modify {α : Type} {P : α → Prop} {f : α → α} {l : List α}
    (h : ∀ a ∈ l, P a) (hf : ∀ a, P a → P (f a)) (i : Nat) : ∀ a ∈ l.modify i f, P a := by
  intro a ha
  obtain ⟨j, hj⟩ := List.mem_iff_getElem?.1 ha
  rw [List.getElem?_modify] at hj
  obtain ⟨b, hb, rfl⟩ := Option.map_eq_some_iff.1 hj
  have hP := h b (List.mem_of_getElem? hb)
  by_cases hij : i = j
  · rw [if_pos hij]
    exact hf b hP
  · rw [if_neg hij]
    exact hP

/-- What every registry has and every registration keeps, all have after an operation. -/
theorem forall_mem_rearrange {P : Recorded → Prop} (hP : ∀ r e, P r → P (r.register e))
    {rs : List Recorded} (h : ∀ r ∈ rs, P r) (op : Operation) : ∀ r ∈ op.rearrange rs, P r := by
  cases op with
  | register i e => exact forall_mem_modify h (fun r => hP r e) i
  | clone i =>
    intro r hr
    rcases List.mem_append.1 hr with hr | hr
    · exact h r hr
    · exact h r (List.mem_of_getElem? (Option.mem_toList.1 hr))
  | select i id => exact h
  | preserveLines i b => exact h
  | put key value => exact h

/-! ## Runs -/

namespace Sharing

variable {store : Store} {table? : Host → Option Table} {s : Sharing} {t : Table}

/-- What holds of registries that share a store after any operations, if the store's table was `t`
at first. -/
structure Sound (store : Store) (table? : Host → Option Table) (t : Table) (s : Sharing) :
    Prop where
  /-- Every registry presents the engines registered on it. -/
  presents : ∀ r ∈ s.registries, r.registry.Presents r.registered
  /-- Every registry reads and writes the store. -/
  shared : ∀ r ∈ s.registries, r.registry.store = store
  /-- The table holds what was written, and nothing else has changed. -/
  table : table? s.host = some (t.after s.written)

theorem sound_start {h : Host} (ht : table? h = some t) (firsts : List Engine) :
    (start store firsts h).Sound store table? t where
  presents r hr := by
    obtain ⟨e, -, rfl⟩ := List.mem_map.1 hr
    exact Registry.presents_new store e
  shared r hr := by
    obtain ⟨e, -, rfl⟩ := List.mem_map.1 hr
    rfl
  table := ht

theorem Sound.step (hk : store.Keeps table?) (hs : s.Sound store table? t)
    (op : Nat × Operation) : (s.step store op).Sound store table? t where
  presents := forall_mem_rearrange (P := fun r => r.registry.Presents r.registered)
    (fun _ e hr => hr.register e) hs.presents op.2
  shared := forall_mem_rearrange (P := fun r => r.registry.store = store)
    (fun r e hr => (r.registry.store_register e).trans hr) hs.shared op.2
  table := by
    have ht : table? (s.host.at op.1) = some (t.after s.written) :=
      (hk.passes _ _).trans hs.table
    simp only [Sharing.step, run_call hs.shared]
    cases op.2.asked s.registries with
    | none => exact ht
    | some w =>
      simp only
      cases ho : ((store.put w.1 w.2).run (s.host.at op.1)).1 with
      | ok u => exact hk.writes w.1 w.2 ht ho
      | error e => exact hk.fails w.1 w.2 ht ho

theorem Sound.run (hk : store.Keeps table?) (hs : s.Sound store table? t)
    (ops : List (Nat × Operation)) : (s.run store ops).Sound store table? t := by
  induction ops generalizing s with
  | nil => exact hs
  | cons op ops ih => exact ih (hs.step hk op)

end Sharing

/-! ## Agreement -/

theorem Table.lookup_after {key : String} (t : Table) {written : List (String × String)}
    (h : key ∉ written.map Prod.fst) : (t.after written).lookup key = t.lookup key := by
  induction written with
  | nil => rfl
  | cons w written ih =>
    rw [List.map_cons, List.mem_cons, not_or] at h
    exact (Table.lookup_put_of_ne h.1 _ _).trans (ih h.2)

/-- What a registry answers and stores when the table of its store is `t`. -/
structure Registry.Answers (r : Registry) (store : Store) (table? : Host → Option Table) (h : Host)
    (t : Table) : Prop where
  /-- A read of the selection that succeeds answers from the table. -/
  read : ∀ v, ((store.get selectedKey).run h).1 = .ok v → v = t.lookup selectedKey
  /-- The read decides which engine is selected. -/
  selected : r.Selects ((store.get selectedKey).run h).1 (r.selected.run h).1
  /-- The selection of an id that is not registered does nothing. -/
  ignored : ∀ id, r.engine? id = none → (r.select id).run h = (.ok (), h)
  /-- The selection of a registered id is a write, and answers what the write answers. -/
  asked : ∀ id, (r.engine? id).isSome → (r.select id).run h = (store.put selectedKey id).run h
  /-- A write that fails leaves the table. -/
  failed : ∀ id e, ((r.select id).run h).1 = .error e → table? ((r.select id).run h).2 = some t
  /-- A write that succeeds puts the id into the table. -/
  stored : ∀ id, (r.engine? id).isSome → ((r.select id).run h).1 = .ok () →
    table? ((r.select id).run h).2 = some (t.put selectedKey id)
  /-- No selection changes the value of another key. -/
  kept : ∀ id, ∃ t', table? ((r.select id).run h).2 = some t' ∧
    ∀ key, key ≠ selectedKey → t'.lookup key = t.lookup key

theorem Store.Keeps.answers {store : Store} {table? : Host → Option Table}
    (hk : store.Keeps table?) {r : Registry} (hr : r.store = store) {h : Host} {t : Table}
    (ht : table? h = some t) : r.Answers store table? h t := by
  subst hr
  have hignored : ∀ id, r.engine? id = none → (r.select id).run h = (.ok (), h) := by
    intro id hid
    rw [run_select, hid]
    rfl
  have hasked : ∀ id, (r.engine? id).isSome →
      (r.select id).run h = (r.store.put selectedKey id).run h := by
    intro id hid
    rw [run_select, if_pos hid]
  have hfailed : ∀ id e, ((r.select id).run h).1 = .error e →
      table? ((r.select id).run h).2 = some t := by
    intro id e he
    cases hid : r.engine? id with
    | none =>
      rw [hignored id hid] at he
      cases he
    | some e' =>
      rw [hasked id (by rw [hid]; rfl)] at he ⊢
      exact hk.fails _ _ ht he
  have hstored : ∀ id, (r.engine? id).isSome → ((r.select id).run h).1 = .ok () →
      table? ((r.select id).run h).2 = some (t.put selectedKey id) := by
    intro id hid hok
    rw [hasked id hid] at hok ⊢
    exact hk.writes _ _ ht hok
  refine ⟨(hk.reads selectedKey ht).2, ?_, hignored, hasked, hfailed, hstored, ?_⟩
  · rw [Registry.run_selected]
    exact Registry.selects_engineFor r _
  · intro id
    cases hid : r.engine? id with
    | none =>
      rw [hignored id hid]
      exact ⟨t, ht, fun _ _ => rfl⟩
    | some e' =>
      cases ho : ((r.select id).run h).1 with
      | error e => exact ⟨t, hfailed id e ho, fun _ _ => rfl⟩
      | ok u =>
        exact ⟨_, hstored id (by rw [hid]; rfl) ho, fun key hkey =>
          Table.lookup_put_of_ne hkey t id⟩

/-- An id in the table is what every registry that has it selects, until the key is written. -/
theorem Sharing.Sound.selected_id {store : Store} {table? : Host → Option Table}
    (hk : store.Keeps table?) {s : Sharing} {t : Table} {id : String}
    (hs : s.Sound store table? (t.put selectedKey id))
    (hw : selectedKey ∉ s.written.map Prod.fst) {r : Recorded} (hr : r ∈ s.registries)
    (hid : (r.registry.engine? id).isSome) (time : Nat) {v : Option String}
    (hv : ((store.get selectedKey).run (s.host.at time)).1 = .ok v) :
    (r.registry.selected.run (s.host.at time)).1.descriptor.id = id := by
  have hanswers := hk.answers (hs.shared r hr) ((hk.passes _ time).trans hs.table)
  have hlookup : v = some id := by
    rw [hanswers.read v hv, Table.lookup_after _ hw, Table.lookup_put_self]
  have hread : Registry.storedId ((store.get selectedKey).run (s.host.at time)).1 = id := by
    rw [hv, hlookup]
    rfl
  have hselected := hanswers.selected.descriptor_id (by rw [hread]; exact hid)
  rw [hselected, hread]

/-- After any operations on registries that share a store, of which any access may fail, every
registry presents the engines registered on it, answers by the table the store keeps, and a
selection that was stored is what every registry that has the engine answers, as long as reads
succeed, until the key is written again. -/
theorem registries_agree_through_store {store : Store} {table? : Host → Option Table}
    (hstore : store.Stands table?) {h : Host} {t : Table} (ht : table? h = some t)
    (firsts : List Engine) (ops : List (Nat × Operation)) :
    let s := (Sharing.start store firsts h).run store ops
    table? s.host = some (t.after s.written) ∧
      ∀ r ∈ s.registries,
        r.registry.Presents r.registered ∧
        (∀ time, r.registry.Answers store table? (s.host.at time) (t.after s.written)) ∧
        ∀ id time, (r.registry.engine? id).isSome →
          ((r.registry.select id).run (s.host.at time)).1 = .ok () →
          ∀ later : List (Nat × Operation),
            let s' := Sharing.run store
              ⟨s.registries, ((r.registry.select id).run (s.host.at time)).2, []⟩ later
            selectedKey ∉ s'.written.map Prod.fst →
            ∀ r' ∈ s'.registries, (r'.registry.engine? id).isSome →
              ∀ time' v, ((store.get selectedKey).run (s'.host.at time')).1 = .ok v →
                (r'.registry.selected.run (s'.host.at time')).1.descriptor.id = id := by
  intro s
  have hk := hstore.keeps
  have hs : s.Sound store table? t := (Sharing.sound_start ht firsts).run hk ops
  refine ⟨hs.table, fun r hr => ?_⟩
  have hanswers := fun time => hk.answers (hs.shared r hr) ((hk.passes s.host time).trans hs.table)
  refine ⟨hs.presents r hr, hanswers, ?_⟩
  intro id time hid hok later s' hw r' hr' hid' time' v hv
  have hselected : Sharing.Sound store table? ((t.after s.written).put selectedKey id)
      ⟨s.registries, ((r.registry.select id).run (s.host.at time)).2, []⟩ :=
    ⟨hs.presents, hs.shared, (hanswers time).stored id hid hok⟩
  exact (hselected.run hk later).selected_id hk hw hr' hid' time' hv

/-- A store in memory that cannot be reached in the third instant. -/
def interruptedStore : Store :=
  (Store.inMemory 0).failing (fun h _ => if h.clock = 3 then some (.store "offline") else none)
    fun h _ _ => if h.clock = 3 then some (.store "offline") else none

/-- An engine of that id. -/
def plainEngine (id : String) : Engine := ⟨⟨id, id, ""⟩, fun _ _ _ _ => pure (.ok "")⟩

/-- A machine with one table in memory. -/
def plainHost : Host := { (default : Host) with tables := [[]] }

/-- A selection that the store refuses at first is answered by a clone once it is stored. -/
theorem interrupted_selection_agrees :
    let s := (Sharing.start interruptedStore [plainEngine "cfr", plainEngine "only"] plainHost).run
      interruptedStore [(1, .register 0 (plainEngine "jd-core")), (3, .select 0 "jd-core")]
    s.written = [] ∧ ∃ r ∈ s.registries, r.registry.Presents r.registered ∧
      let s' := Sharing.run interruptedStore
        ⟨s.registries, ((r.registry.select "jd-core").run (s.host.at 4)).2, []⟩
        [(5, .clone 0), (6, .preserveLines 1 false)]
      s'.registries.length = 3 ∧ ∃ r' ∈ s'.registries.drop 2,
        (r'.registry.selected.run (s'.host.at 7)).1.descriptor.id = "jd-core" := by
  intro s
  have hstands : interruptedStore.Stands fun h => h.tables[0]? := .failing (.memory 0) _ _
  have hagree := registries_agree_through_store hstands (h := plainHost) rfl
    [plainEngine "cfr", plainEngine "only"]
    [(1, .register 0 (plainEngine "jd-core")), (3, .select 0 "jd-core")]
  refine ⟨rfl, _, List.mem_cons_self, (hagree.2 _ List.mem_cons_self).1, rfl, _,
    List.mem_cons_self, ?_⟩
  exact (hagree.2 _ List.mem_cons_self).2.2 "jd-core" 4 rfl rfl
    [(5, .clone 0), (6, .preserveLines 1 false)] (by decide) _
    (List.mem_of_mem_drop (i := 2) List.mem_cons_self) rfl 7 _ rfl

end ClassViewer
