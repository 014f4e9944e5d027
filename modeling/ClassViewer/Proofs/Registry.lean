import ClassViewer.Registry

/-!
# What a registry presents and selects

A registry presents the engines registered on it (`Registry.Presents`) : their ids once each, in the
order of their first registration, and under each id the engine registered last. A first engine does
so (`presents_new`) and every registration keeps it (`Presents.register`). The engine selected is
always one of those presented, and what the store answers decides which (`selects_engineFor`).
-/

namespace ClassViewer

/-- The ids of engines, in order. -/
def engineIds (engines : List Engine) : List String := engines.map fun e => e.descriptor.id

/-! ## Finding and adding engines -/

theorem findEngine_cons (e : Engine) (engines : List Engine) (id : String) :
    findEngine (e :: engines) id =
      if id = e.descriptor.id then some e else findEngine engines id := by
  unfold findEngine
  rw [List.find?_cons]
  by_cases h : id = e.descriptor.id
  · rw [if_pos h, beq_iff_eq.2 h.symm]
  · rw [if_neg h, beq_eq_false_iff_ne.2 (Ne.symm h)]

theorem findEngine_eq_none_iff {engines : List Engine} {id : String} :
    findEngine engines id = none ↔ id ∉ engineIds engines := by
  simp only [findEngine, List.find?_eq_none, beq_iff_eq, engineIds, List.mem_map, not_exists,
    not_and]

theorem findEngine_replace (engines : List Engine) (e : Engine) (id : String) :
    findEngine (engines.map fun old => if old.descriptor.id = e.descriptor.id then e else old) id =
      if id = e.descriptor.id then (findEngine engines id).map fun _ => e
      else findEngine engines id := by
  induction engines with
  | nil => simp [findEngine]
  | cons old engines ih =>
    simp only [List.map_cons, findEngine_cons, ih]
    by_cases hid : id = e.descriptor.id
    · subst hid
      by_cases hold : old.descriptor.id = e.descriptor.id
      · simp only [hold, if_true, Option.map_some]
      · simp only [hold, Ne.symm hold, if_true, if_false]
    · by_cases hold : old.descriptor.id = e.descriptor.id
      · simp only [hold, hid, if_true, if_false]
      · simp only [hold, hid, if_false]

/-- The engine added is found under its id, and every other id finds what it found before. -/
theorem findEngine_addEngine (engines : List Engine) (e : Engine) (id : String) :
    findEngine (addEngine engines e) id =
      if id = e.descriptor.id then some e else findEngine engines id := by
  unfold addEngine
  by_cases hid : id = e.descriptor.id
  · subst hid
    rw [if_pos rfl]
    cases h : findEngine engines e.descriptor.id with
    | some old => simp only [findEngine_replace, h, if_true, Option.map_some]
    | none =>
      have happend : findEngine (engines ++ [e]) e.descriptor.id = _ := List.find?_append
      rw [happend, show engines.find? _ = none from h, Option.none_or]
      exact (findEngine_cons e [] _).trans (if_pos rfl)
  · rw [if_neg hid]
    cases findEngine engines e.descriptor.id with
    | some old => simp only [findEngine_replace, if_neg hid]
    | none =>
      have happend : findEngine (engines ++ [e]) id = _ := List.find?_append
      have hnone : findEngine [e] id = none := (findEngine_cons e [] id).trans (if_neg hid)
      rw [happend, show [e].find? _ = none from hnone, Option.or_none]
      rfl

theorem engineIds_replace (engines : List Engine) (e : Engine) :
    engineIds (engines.map fun old => if old.descriptor.id = e.descriptor.id then e else old) =
      engineIds engines := by
  unfold engineIds
  rw [List.map_map]
  refine List.map_congr_left fun old _ => ?_
  by_cases h : old.descriptor.id = e.descriptor.id
  · rw [Function.comp_apply, if_pos h, h]
  · rw [Function.comp_apply, if_neg h]

/-- A new id goes to the end, and a known one stays where it is. -/
theorem engineIds_addEngine (engines : List Engine) (e : Engine) :
    engineIds (addEngine engines e) =
      if e.descriptor.id ∈ engineIds engines then engineIds engines
      else engineIds engines ++ [e.descriptor.id] := by
  unfold addEngine
  cases h : findEngine engines e.descriptor.id with
  | none =>
    rw [if_neg (findEngine_eq_none_iff.1 h)]
    exact List.map_append
  | some old =>
    have hmem : e.descriptor.id ∈ engineIds engines := by
      refine Decidable.of_not_not fun hnot => ?_
      rw [findEngine_eq_none_iff.2 hnot] at h
      cases h
    rw [if_pos hmem]
    exact engineIds_replace engines e

theorem eraseDups_concat {α : Type} [BEq α] [LawfulBEq α] [DecidableEq α] (as : List α) (b : α) :
    (as ++ [b]).eraseDups = if b ∈ as then as.eraseDups else as.eraseDups ++ [b] := by
  rw [List.eraseDups_append, List.cons_removeAll]
  by_cases h : b ∈ as
  · rw [if_pos h, if_neg (by simpa using h)]
    exact List.append_nil _
  · rw [if_neg h, if_pos (by simpa using h)]
    rfl

namespace Registry

variable {r : Registry} {registered : List Engine}

/-! ## Presentation -/

/-- What a registry presents of the engines registered on it, given in order. -/
structure Presents (r : Registry) (registered : List Engine) : Prop where
  /-- There is an engine. -/
  nonempty : r.engines ≠ []
  /-- No two engines have the same id. -/
  distinct : (engineIds r.engines).Nodup
  /-- The ids stand in the order of their first registration. -/
  ordered : engineIds r.engines = (engineIds registered).eraseDups
  /-- An id stands for the engine registered last under it. -/
  latest : ∀ id, r.engine? id = (registered.filter fun e => e.descriptor.id == id).getLast?

theorem engine?_register (r : Registry) (e : Engine) (id : String) :
    (r.register e).engine? id = if id = e.descriptor.id then some e else r.engine? id := by
  unfold engine? register
  by_cases hfirst : r.first.descriptor.id = e.descriptor.id
  · rw [if_pos hfirst]
    simp only [engines, findEngine_cons, hfirst]
    by_cases hid : id = e.descriptor.id
    · simp only [if_pos hid]
    · simp only [if_neg hid]
  · rw [if_neg hfirst]
    simp only [engines, findEngine_cons, findEngine_addEngine]
    by_cases hid : id = e.descriptor.id
    · subst hid
      simp only [Ne.symm hfirst, if_true, if_false]
    · simp only [if_neg hid]

theorem engineIds_register (r : Registry) (e : Engine) :
    engineIds (r.register e).engines =
      if e.descriptor.id ∈ engineIds r.engines then engineIds r.engines
      else engineIds r.engines ++ [e.descriptor.id] := by
  have hcons (first : Engine) (others : List Engine) :
      engineIds (first :: others) = first.descriptor.id :: engineIds others := rfl
  unfold register
  by_cases hfirst : r.first.descriptor.id = e.descriptor.id
  · rw [if_pos hfirst]
    simp only [engines, hcons, hfirst, List.mem_cons_self, if_true]
  · rw [if_neg hfirst]
    simp only [engines, hcons, engineIds_addEngine, List.mem_cons, Ne.symm hfirst, false_or]
    by_cases hmem : e.descriptor.id ∈ engineIds r.others
    · simp only [if_pos hmem]
    · simp only [if_neg hmem, List.cons_append]

@[simp]
theorem store_register (r : Registry) (e : Engine) : (r.register e).store = r.store := by
  unfold register
  split <;> rfl

theorem presents_new (store : Store) (first : Engine) : (new store first).Presents [first] where
  nonempty := List.cons_ne_nil _ _
  distinct := List.nodup_cons.2 ⟨List.not_mem_nil, List.nodup_nil⟩
  ordered := rfl
  latest id := by
    have hfind : (new store first).engine? id = findEngine [first] id := rfl
    rw [hfind, findEngine_cons, List.filter_cons]
    by_cases hid : id = first.descriptor.id
    · rw [if_pos hid, if_pos (beq_iff_eq.2 hid.symm)]
      rfl
    · rw [if_neg hid, if_neg fun h => hid (beq_iff_eq.1 h).symm]
      rfl

/-- A registration keeps the presentation, with the engine after those registered before. -/
theorem Presents.register (h : r.Presents registered) (e : Engine) :
    (r.register e).Presents (registered ++ [e]) where
  nonempty := List.cons_ne_nil _ _
  distinct := by
    rw [engineIds_register]
    split
    · exact h.distinct
    · rename_i hnew
      refine List.nodup_append.2 ⟨h.distinct, by simp, ?_⟩
      rintro a ha b hb rfl
      rw [List.mem_singleton.1 hb] at ha
      exact hnew ha
  ordered := by
    have hids : engineIds (registered ++ [e]) = engineIds registered ++ [e.descriptor.id] :=
      List.map_append
    have hmem : e.descriptor.id ∈ engineIds r.engines ↔ e.descriptor.id ∈ engineIds registered := by
      rw [h.ordered]
      exact List.mem_eraseDups
    rw [engineIds_register, hids, eraseDups_concat, ← h.ordered]
    simp only [hmem]
  latest id := by
    rw [engine?_register, List.filter_append, List.getLast?_append, ← h.latest, List.filter_cons]
    by_cases hid : id = e.descriptor.id
    · rw [if_pos hid, if_pos (beq_iff_eq.2 hid.symm)]
      rfl
    · rw [if_neg hid, if_neg fun h => hid (beq_iff_eq.1 h).symm]
      rfl

/-! ## Selection -/

theorem mem_of_engine? {id : String} {e : Engine} (h : r.engine? id = some e) : e ∈ r.engines := by
  unfold engine? findEngine at h
  exact List.mem_of_find?_eq_some h

theorem descriptor_id_of_engine? {id : String} {e : Engine} (h : r.engine? id = some e) :
    e.descriptor.id = id := by
  simpa using List.find?_some h

/-- The id that a read of the selection stands for. -/
def storedId : Except DecompileError (Option String) → String
  | .ok (some id) => id
  | _ => defaultEngine

/-- The engine that is selected when the store answers `read`. -/
structure Selects (r : Registry) (read : Except DecompileError (Option String)) (e : Engine) :
    Prop where
  /-- The engine is registered. -/
  mem : e ∈ r.engines
  /-- It is the engine with the stored id, if there is one. -/
  stored : ∀ e', r.engine? (storedId read) = some e' → e = e'
  /-- Otherwise it is the default engine, if there is one. -/
  default : r.engine? (storedId read) = none → ∀ e', r.engine? defaultEngine = some e' → e = e'
  /-- Otherwise it is the first engine. -/
  first : r.engine? (storedId read) = none → r.engine? defaultEngine = none →
    r.engines.head? = some e

theorem selects_engineFor (r : Registry) (read : Except DecompileError (Option String)) :
    r.Selects read (r.engineFor (storedId read)) where
  mem := by
    unfold engineFor
    cases hs : r.engine? (storedId read) with
    | some e => exact mem_of_engine? hs
    | none =>
      cases hd : r.engine? defaultEngine with
      | some e => exact mem_of_engine? hd
      | none => exact List.mem_cons_self
  stored e hs := by
    rw [engineFor, hs]
    rfl
  default hs e hd := by
    rw [engineFor, hs, hd]
    rfl
  first hs hd := by
    rw [engineFor, hs, hd]
    rfl

theorem run_selected (r : Registry) (h : Host) :
    r.selected.run h =
      (r.engineFor (storedId ((r.store.get selectedKey).run h).1),
        ((r.store.get selectedKey).run h).2) := by
  unfold selected selectedId Store.getOr
  rw [StateT.run_bind, StateT.run_bind]
  rcases (r.store.get selectedKey).run h with ⟨_ | _ | _, h'⟩ <;> rfl

/-- Where the stored id is registered, the engine selected has it. -/
theorem Selects.descriptor_id {read : Except DecompileError (Option String)} {e : Engine}
    (h : r.Selects read e) (hr : (r.engine? (storedId read)).isSome) :
    e.descriptor.id = storedId read := by
  obtain ⟨e', he'⟩ := Option.isSome_iff_exists.1 hr
  rw [h.stored e' he']
  exact descriptor_id_of_engine? he'

end Registry

end ClassViewer
