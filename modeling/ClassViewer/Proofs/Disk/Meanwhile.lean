import ClassViewer.Disk.Meanwhile
import ClassViewer.Proofs.Disk.Changes

/-!
# What the changes of others leave alone

A change spares the places at which it leaves everything as it was (`Change.Spares`). The disk that
sees a change keeps what lies at these places (`Change.Spares.apply`), and changes that spare them
still do so when they are put in the order of their times.
-/

namespace ClassViewer.Disk

/-- The disks have the same items at the places of which `P` holds. -/
def Agree (P : Route → Prop) (d d' : Disk) : Prop := ∀ s, P s → d'.item? s = d.item? s

namespace Agree

variable {P : Route → Prop} {d d' d'' : Disk}

theorem refl (d : Disk) : Agree P d d := fun _ _ => rfl

theorem symm (h : Agree P d d') : Agree P d' d := fun s hs => (h s hs).symm

theorem trans (h : Agree P d d') (h' : Agree P d' d'') : Agree P d d'' :=
  fun s hs => (h' s hs).trans (h s hs)

end Agree

theorem isSome_lookup_of_mem {α β : Type} [BEq α] [LawfulBEq α] {l : List (α × β)} {e : α × β}
    (h : e ∈ l) : (l.lookup e.1).isSome = true := by
  induction l with
  | nil => cases h
  | cons f l ih =>
    obtain ⟨k, v⟩ := f
    by_cases hk : e.1 = k
    · rw [hk, List.lookup_cons_self]
      rfl
    · rw [lookup_cons_of_ne hk]
      refine ih ((List.mem_cons.1 h).resolve_left ?_)
      rintro rfl
      exact hk rfl

/-- Where nothing was changed, everything is as it was. -/
theorem item?_withChanges {before after : Disk} {s : Route}
    (h : after.item? s = before.item? s) (d : Disk) :
    (d.withChanges before after).item? s = d.item? s := by
  by_cases hs : s = []
  · subst hs
    rfl
  have hchanged : (before.item? s != after.item? s) = false := by simp [h]
  have huntouched : s ∉ ((after.items.filter fun e => before.item? e.1 != after.item? e.1) ++
      before.items.filter fun e => (after.item? e.1).isNone).map (·.1) := by
    rw [List.map_append, List.mem_append, not_or]
    constructor
    · rintro hmem
      obtain ⟨e, he, rfl⟩ := List.mem_map.1 hmem
      rw [(List.mem_filter.1 he).2] at hchanged
      cases hchanged
    · rintro hmem
      obtain ⟨e, he, rfl⟩ := List.mem_map.1 hmem
      obtain ⟨hin, hgone⟩ := List.mem_filter.1 he
      have hthere := isSome_lookup_of_mem hin
      rw [← item?_of_ne_nil hs, ← h] at hthere
      simp_all
  rw [item?_of_ne_nil hs, item?_of_ne_nil hs]
  refine List.lookup_append.trans ?_
  rw [lookup_filter (fun r => before.item? r != after.item? r), hchanged,
    if_neg Bool.false_ne_true, lookup_filter (fun r => !List.contains _ r),
    if_pos (by simpa using huntouched)]
  rfl

namespace Change

/-- The change leaves what lies at the places of which `P` holds. -/
def Spares (P : Route → Prop) (c : Change) : Prop := Agree P c.before c.after

variable {P : Route → Prop} {c : Change}

theorem Spares.apply (h : c.Spares P) (d : Disk) : Agree P d (c.apply d) :=
  fun s hs => item?_withChanges (h s hs) d

theorem Spares.merge {e : Change} (hc : c.Spares P) (he : e.Spares P) :
    Spares P { e with after := c.apply e.after } :=
  Agree.trans he (hc.apply e.after)

/-- What holds of changes and of those they are merged to holds of them in order. -/
theorem forall_insertInto {Q : Change → Prop}
    (hmerge : ∀ c e, Q c → Q e → Q { e with after := c.apply e.after }) (hc : Q c)
    {others : List Change} (ho : ∀ e ∈ others, Q e) : ∀ e ∈ c.insertInto others, Q e := by
  induction others with
  | nil => simpa [insertInto] using hc
  | cons f others ih =>
    obtain ⟨hf, hothers⟩ := List.forall_mem_cons.1 ho
    unfold insertInto
    split
    · exact List.forall_mem_cons.2 ⟨hc, ho⟩
    · split
      · exact List.forall_mem_cons.2 ⟨hmerge c f hc hf, hothers⟩
      · exact List.forall_mem_cons.2 ⟨hf, ih hothers⟩

theorem forall_insertAll {Q : Change → Prop}
    (hmerge : ∀ c e, Q c → Q e → Q { e with after := c.apply e.after })
    {changes others : List Change} (hc : ∀ c ∈ changes, Q c) (ho : ∀ e ∈ others, Q e) :
    ∀ e ∈ insertAll changes others, Q e := by
  induction changes generalizing others with
  | nil => exact ho
  | cons c changes ih =>
    obtain ⟨hfirst, hrest⟩ := List.forall_mem_cons.1 hc
    exact ih hrest (forall_insertInto hmerge hfirst ho)

/-- A disk that sees changes keeps what they spare. -/
theorem agree_foldl_apply {others : List Change} (ho : ∀ e ∈ others, e.Spares P) (d : Disk) :
    Agree P d (others.foldl (fun d c => c.apply d) d) := by
  induction others generalizing d with
  | nil => exact Agree.refl d
  | cons c others ih =>
    obtain ⟨hc, hothers⟩ := List.forall_mem_cons.1 ho
    exact (hc.apply d).trans (ih hothers _)

end Change

end ClassViewer.Disk
