import ClassViewer.Text.Basic

/-!
# Association lists and last elements

What is found in a list of keys and values after something was put in front of it or taken out, or
after its entries were given new keys, and the last element of a list with one more in front.
-/

namespace ClassViewer

theorem getLast?_cons_or {α : Type} (a : α) (l : List α) :
    (a :: l).getLast? = l.getLast?.or (some a) := by
  rw [List.getLast?_cons]
  cases l.getLast? <;> rfl

variable {α β : Type} [BEq α] [LawfulBEq α]

theorem lookup_cons_of_ne {k d : α} (h : d ≠ k) (v : β) (l : List (α × β)) :
    ((k, v) :: l).lookup d = l.lookup d := by
  have hb : (d == k) = false := by simpa using h
  simp [List.lookup_cons, hb]

/-- Entries that are taken out by their keys are missed only under these keys. -/
theorem lookup_filter (p : α → Bool) (d : α) (l : List (α × β)) :
    (l.filter fun e => p e.1).lookup d = if p d then l.lookup d else none := by
  induction l with
  | nil => simp
  | cons e l ih =>
    obtain ⟨k, v⟩ := e
    rw [List.filter_cons]
    by_cases hd : d = k
    · subst hd
      by_cases hk : p d
      · rw [if_pos hk, List.lookup_cons_self, List.lookup_cons_self, if_pos hk]
      · rw [if_neg hk, ih, if_neg hk, if_neg hk]
    · rw [lookup_cons_of_ne hd, ← ih]
      split
      · exact lookup_cons_of_ne hd v _
      · rfl

/-- Under a new key that only one key is given, an entry is found as it was under that key. -/
theorem lookup_filterMap_of_unique {γ : Type} [BEq γ] [LawfulBEq γ] {f : α → Option γ} {k : α}
    {d : γ} (hk : f k = some d) (hunique : ∀ k', f k' = some d → k' = k) (l : List (α × β)) :
    (l.filterMap fun e => (f e.1).map (·, e.2)).lookup d = l.lookup k := by
  induction l with
  | nil => rfl
  | cons e l ih =>
    obtain ⟨k', v⟩ := e
    by_cases hkk : k = k'
    · subst hkk
      rw [List.filterMap_cons_some (by rw [hk]; rfl), List.lookup_cons_self, List.lookup_cons_self]
    · rw [lookup_cons_of_ne hkk, ← ih]
      cases hf : f k' with
      | none => rw [List.filterMap_cons_none (by rw [hf]; rfl)]
      | some d' =>
        have hd : d ≠ d' := fun hd => hkk (hunique k' (hd ▸ hf)).symm
        rw [List.filterMap_cons_some (by rw [hf]; rfl), lookup_cons_of_ne hd]

/-- Under a new key that no key is given, nothing is found. -/
theorem lookup_filterMap_of_forall_ne {κ : Type} {f : κ → Option α} {d : α}
    (h : ∀ k, f k ≠ some d) (l : List (κ × β)) :
    (l.filterMap fun e => (f e.1).map (·, e.2)).lookup d = none := by
  rw [List.lookup_eq_none_iff]
  intro e he
  obtain ⟨e', -, hnew⟩ := List.mem_filterMap.1 he
  obtain ⟨d', hd', rfl⟩ := Option.map_eq_some_iff.1 hnew
  have hne : d ≠ d' := fun hd => h e'.1 (hd ▸ hd')
  simpa using hne

end ClassViewer
