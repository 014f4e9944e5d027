import ClassViewer.Preferences.Database
import ClassViewer.Proofs.Lookup

/-!
# What a preference store keeps

A store keeps a table on the machine (`Store.Keeps`) : a read that succeeds answers from the table
and changes nothing, a write that succeeds puts one value into it, and an access that fails leaves
it as it is. The stores in memory and the databases do so, and so does any of them of which some
accesses fail before they reach it (`Store.Stands.keeps`).
-/

namespace ClassViewer

theorem Table.lookup_put_self (t : Table) (key value : String) :
    (t.put key value).lookup key = some value :=
  List.lookup_cons_self

theorem Table.lookup_put_of_ne {key other : String} (h : other ≠ key) (t : Table) (value : String) :
    (t.put key value).lookup other = t.lookup other := by
  have hb : (other != key) = true := by simpa using h
  rw [Table.put, lookup_cons_of_ne h, lookup_filter (fun k => k != key), if_pos hb]

/-- The machine at another time. -/
def Host.at (h : Host) (time : Nat) : Host := { h with clock := time }

namespace Store

/-- The table of a store, if the store is on the machine, is what its reads answer from and its
writes change. -/
structure Keeps (s : Store) (table? : Host → Option Table) : Prop where
  /-- Time does not change the table. -/
  passes : ∀ (h : Host) (time : Nat), table? (h.at time) = table? h
  /-- A read leaves the table as it is, and answers from it if it succeeds. -/
  reads : ∀ {h : Host} {t : Table} (key : String), table? h = some t →
    table? ((s.get key).run h).2 = some t ∧
      ∀ v, ((s.get key).run h).1 = .ok v → v = t.lookup key
  /-- A write that succeeds has put the value into the table. -/
  writes : ∀ {h : Host} {t : Table} (key value : String), table? h = some t →
    ((s.put key value).run h).1 = .ok () →
      table? ((s.put key value).run h).2 = some (t.put key value)
  /-- A write that fails has left the table as it was. -/
  fails : ∀ {h : Host} {t : Table} (key value : String) {e : DecompileError}, table? h = some t →
    ((s.put key value).run h).1 = .error e → table? ((s.put key value).run h).2 = some t

/-- The store takes a value for a key, and the read behind that gives it back. -/
structure Remembers (s : Store) (h : Host) (key value : String) : Prop where
  taken : ((s.put key value).run h).1 = .ok ()
  given : ((s.get key).run ((s.put key value).run h).2).1 = .ok (some value)

/-- A store that keeps a table remembers what it takes, as long as it can be read. -/
theorem Keeps.remembers {s : Store} {table? : Host → Option Table} (hs : s.Keeps table?) {h : Host}
    {t : Table} (ht : table? h = some t) {key value : String}
    (hput : ((s.put key value).run h).1 = .ok ()) {v : Option String}
    (hget : ((s.get key).run ((s.put key value).run h).2).1 = .ok v) :
    s.Remembers h key value where
  taken := hput
  given := by
    have hv := (hs.reads key (hs.writes key value ht hput)).2 v hget
    rw [hget, hv, Table.lookup_put_self]

/-- The store with accesses that fail, which ones may depend on the whole machine. -/
def failing (s : Store) (getFault : Host → String → Option DecompileError)
    (putFault : Host → String → String → Option DecompileError) : Store where
  get key := do
    match getFault (← MonadState.get) key with
    | some e => return .error e
    | none => s.get key
  put key value := do
    match putFault (← MonadState.get) key value with
    | some e => return .error e
    | none => s.put key value

/-- The stores there are, with the tables they keep : those in memory, the open databases, and any
of them with accesses that fail. -/
inductive Stands : Store → (Host → Option Table) → Prop
  | memory (i : Nat) : Stands (inMemory i) fun h => h.tables[i]?
  | database (r : Route) :
      Stands (Database.store r) fun h => (h.databases.lookup r).map Stored.table
  | failing {s : Store} {table? : Host → Option Table} (h : Stands s table?)
      (getFault : Host → String → Option DecompileError)
      (putFault : Host → String → String → Option DecompileError) :
      Stands (s.failing getFault putFault) table?

/-! ## Stores in memory -/

theorem keeps_inMemory (i : Nat) : (inMemory i).Keeps fun h => h.tables[i]? where
  passes _ _ := rfl
  reads {h t} key ht := by
    refine ⟨ht, fun v hv => ?_⟩
    have hread : ((inMemory i).get key).run h = (.ok ((h.tables.getD i []).lookup key), h) := rfl
    rw [hread] at hv
    rw [← Except.ok.inj hv, List.getD_eq_getElem?_getD, ht]
    rfl
  writes {h t} key value ht _ := by
    have hput : (((inMemory i).put key value).run h).2.tables =
        h.tables.modify i (·.put key value) := rfl
    rw [hput, List.getElem?_modify_eq, ht]
    rfl
  fails _ _ _ _ he := by cases he

/-! ## Databases -/

theorem databases_write (h : Host) (p : Path) (bytes : ByteArray) :
    ((Host.write p bytes).run h).2.databases = h.databases := by
  unfold Host.write
  simp only [StateT.run_bind, StateT.run_get, pure_bind]
  split
  · rfl
  · unfold Host.change
    simp only [StateT.run_bind, StateT.run_get, pure_bind]
    cases h.disk.write h.here p bytes with
    | ok d => rfl
    | error e => rfl

/-- A write to a database is refused, or has put the value into what the database contains. -/
theorem run_put_database (r : Route) (key value : String) (h : Host) :
    (∃ e, ((Database.store r).put key value).run h = (.error e, h)) ∨
      ∃ c, Database.write? (Database.contents h r) key value = some c ∧
        (((Database.store r).put key value).run h).1 = .ok () ∧
        (((Database.store r).put key value).run h).2.databases =
          (r, c) :: h.databases.filter (·.1 != r) := by
  simp only [Database.store]
  split
  · exact .inl ⟨_, rfl⟩
  · simp only [StateT.run_bind, StateT.run_get, pure_bind]
    cases hw : Database.write? (Database.contents h r) key value with
    | none => exact .inl ⟨_, rfl⟩
    | some c =>
      refine .inr ⟨c, rfl, ?_⟩
      simp only [StateT.run_bind, StateT.run_modify, StateT.run_get, pure_bind]
      split
      · refine ⟨rfl, ?_⟩
        exact databases_write _ _ _
      · exact ⟨rfl, rfl⟩

theorem keeps_database (r : Route) :
    (Database.store r).Keeps fun h => (h.databases.lookup r).map Stored.table where
  passes _ _ := rfl
  reads {h t} key ht := by
    have hread : ((Database.store r).get key).run h =
        (if key = "" then .error Database.badSize
          else .ok ((Database.contents h r).table.lookup key), h) := by
      simp only [Database.store]
      split <;> rfl
    rw [hread]
    refine ⟨ht, fun v hv => ?_⟩
    obtain ⟨c, hc, rfl⟩ := Option.map_eq_some_iff.1 ht
    split at hv
    · cases hv
    · rw [← Except.ok.inj hv, Database.contents, hc]
      rfl
  writes {h t} key value ht hok := by
    obtain ⟨c₀, hc₀, rfl⟩ := Option.map_eq_some_iff.1 ht
    rcases run_put_database r key value h with ⟨e, he⟩ | ⟨c, hw, -, hdb⟩
    · rw [he] at hok
      cases hok
    · obtain ⟨space, -, rfl⟩ := Option.map_eq_some_iff.1 hw
      rw [hdb, List.lookup_cons_self, Database.contents, hc₀]
      rfl
  fails {h t} key value e ht he := by
    rcases run_put_database r key value h with ⟨e', he'⟩ | ⟨c, -, hok, -⟩
    · rw [he']
      exact ht
    · rw [hok] at he
      cases he

/-! ## Stores with faults -/

theorem run_get_failing (s : Store) (getFault : Host → String → Option DecompileError)
    (putFault : Host → String → String → Option DecompileError) (key : String) (h : Host) :
    ((s.failing getFault putFault).get key).run h = match getFault h key with
      | some e => (.error e, h)
      | none => (s.get key).run h := by
  simp only [failing, StateT.run_bind, StateT.run_get, pure_bind]
  cases getFault h key <;> rfl

theorem run_put_failing (s : Store) (getFault : Host → String → Option DecompileError)
    (putFault : Host → String → String → Option DecompileError) (key value : String) (h : Host) :
    ((s.failing getFault putFault).put key value).run h = match putFault h key value with
      | some e => (.error e, h)
      | none => (s.put key value).run h := by
  simp only [failing, StateT.run_bind, StateT.run_get, pure_bind]
  cases putFault h key value <;> rfl

theorem Keeps.failing {s : Store} {table? : Host → Option Table} (hs : s.Keeps table?)
    (getFault : Host → String → Option DecompileError)
    (putFault : Host → String → String → Option DecompileError) :
    (s.failing getFault putFault).Keeps table? where
  passes := hs.passes
  reads {h t} key ht := by
    rw [run_get_failing]
    cases getFault h key with
    | none => exact hs.reads key ht
    | some e => exact ⟨ht, fun v hv => by cases hv⟩
  writes {h t} key value ht hok := by
    rw [run_put_failing] at hok ⊢
    cases hf : putFault h key value with
    | none =>
      rw [hf] at hok
      exact hs.writes key value ht hok
    | some e =>
      rw [hf] at hok
      cases hok
  fails {h t} key value e ht he := by
    rw [run_put_failing] at he ⊢
    cases hf : putFault h key value with
    | none =>
      rw [hf] at he
      exact hs.fails key value ht he
    | some e' => exact ht

/-- Every store keeps its table. -/
theorem Stands.keeps {s : Store} {table? : Host → Option Table} (h : s.Stands table?) :
    s.Keeps table? := by
  induction h with
  | memory i => exact keeps_inMemory i
  | database r => exact keeps_database r
  | failing _ getFault putFault ih => exact ih.failing getFault putFault

end Store

end ClassViewer
