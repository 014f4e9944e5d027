import ClassViewer.Proofs.Disk.Meanwhile

/-!
# Places at which nothing happens

On a disk some places are still if everything there is where another disk has it, and nothing there
has several routes (`Still`). Then they stay so when directories are made
(`Still.makeDirectories`), when a file is written elsewhere (`Still.write`), and when changes are
seen that were made between disks on which they are still (`still_foldl_apply`).
-/

namespace ClassViewer.Disk

variable {P : Route → Prop} {d x y z : Disk} {here r : Route} {p : Path} {i : Item}

/-- No place of which `P` holds is one of several routes of a file. -/
def Unshared (P : Route → Prop) (x : Disk) : Prop := ∀ routes ∈ x.shared, ∀ s ∈ routes, ¬P s

theorem Unshared.routesOf (h : Unshared P x) (hr : P r) : x.routesOf r = [r] := by
  have hnone : x.shared.find? (·.contains r) = none := by
    refine List.find?_eq_none.2 fun routes hmem hc => h routes hmem r ?_ hr
    simpa using hc
  rw [Disk.routesOf, hnone]
  rfl

/-! ## Routes of a file -/

/-- Nothing has got another route. -/
def SharesLess (x y : Disk) : Prop := ∀ routes ∈ y.shared, ∃ routes' ∈ x.shared, routes ⊆ routes'

namespace SharesLess

theorem refl (x : Disk) : SharesLess x x := fun routes h => ⟨routes, h, List.Subset.refl _⟩

theorem trans (h : SharesLess x y) (h' : SharesLess y z) : SharesLess x z := by
  intro routes hroutes
  obtain ⟨routes', hroutes', hsub⟩ := h' routes hroutes
  obtain ⟨routes'', hroutes'', hsub'⟩ := h routes' hroutes'
  exact ⟨routes'', hroutes'', List.Subset.trans hsub hsub'⟩

theorem erase (x : Disk) (r : Route) : SharesLess x (x.erase r) := by
  intro routes hmem
  obtain ⟨routes', hmem', rfl⟩ := List.mem_map.1 hmem
  exact ⟨routes', hmem', List.filter_sublist.subset⟩

theorem put (x : Disk) (r : Route) (i : Item) : SharesLess x (x.put r i) := erase x r

theorem alter (x : Disk) (r : Route) (i : Item) : SharesLess x (x.alter r i) := refl x

theorem unshared (h : SharesLess x y) (hx : Unshared P x) : Unshared P y := by
  intro routes hroutes s hs
  obtain ⟨routes', hmem, hsub⟩ := h routes hroutes
  exact hx routes' hmem s (hsub hs)

theorem makeDirectory (h : x.makeDirectory here p = .ok y) : SharesLess x y := by
  unfold Disk.makeDirectory at h
  split at h
  · cases h
  · cases h
  · obtain rfl := Except.ok.inj h
    exact put x _ _

theorem makeDirectoriesUpTo (x : Disk) (here : Route) (fuel : Nat) (p : Path) :
    SharesLess x (x.makeDirectoriesUpTo here fuel p).2 := by
  induction fuel generalizing p with
  | zero => exact refl x
  | succ fuel ih =>
    unfold Disk.makeDirectoriesUpTo
    split
    · exact refl x
    · split
      · rename_i hm
        exact makeDirectory hm
      · split
        · split
          · exact refl x
          · rename_i above _
            have habove := ih above
            split
            · rename_i hup
              rwa [hup] at habove
            · rename_i hup
              rw [hup] at habove
              split
              · rename_i hm
                exact habove.trans (makeDirectory hm)
              · exact habove
        · exact refl x

theorem write {bytes : ByteArray} (h : x.write here p bytes = .ok y) : SharesLess x y := by
  unfold Disk.write at h
  split at h
  · cases h
  · obtain rfl := Except.ok.inj h
    exact alter x _ _
  · rename_i device _
    cases hd : writeDevice device bytes with
    | error e =>
      rw [hd] at h
      cases h
    | ok _ =>
      rw [hd] at h
      obtain rfl := Except.ok.inj h
      exact refl x
  · obtain rfl := Except.ok.inj h
    exact alter x _ _
  · cases h
  · obtain rfl := Except.ok.inj h
    exact put x _ _

end SharesLess

/-- What is not written stays as it is. -/
theorem item?_write_of_not_mem {bytes : ByteArray} (hw : x.write here p bytes = .ok y)
    (hr : r ∉ x.overwritten here p) (hi : x.item? r = some i) : y.item? r = some i := by
  by_cases hnil : r = []
  · subst hnil
    exact hi
  unfold Disk.write at hw
  unfold overwritten at hr
  split at hw
  · cases hw
  · rename_i s c runners hl
    obtain rfl := Except.ok.inj hw
    rw [hl] at hr
    exact (item?_alter x s _ hnil).trans ((if_neg hr).trans hi)
  · rename_i device hl
    cases hd : writeDevice device bytes with
    | error e =>
      rw [hd] at hw
      cases hw
    | ok _ =>
      rw [hd] at hw
      obtain rfl := Except.ok.inj hw
      exact hi
  · rename_i s held hl
    obtain rfl := Except.ok.inj hw
    rw [hl] at hr
    exact (item?_alter x s _ hnil).trans ((if_neg hr).trans hi)
  · cases hw
  · rename_i s name hl
    obtain rfl := Except.ok.inj hw
    exact extends_put (item?_eq_none_of_locate hl) _ _ _ hi

/-! ## Still places -/

/-- The disk has everything where disk `d` has it, as far as the places of which `P` holds are
concerned, and nothing there has several routes. -/
structure Still (P : Route → Prop) (d x : Disk) : Prop where
  agree : Agree P d x
  unshared : Unshared P x

/-- Places at which there is something are still as long as nothing is taken away or overwritten. -/
theorem Still.of_kept (h : d.Still P x) (hthere : ∀ s, P s → (d.item? s).isSome = true)
    (hkept : ∀ s, P s → ∀ i, x.item? s = some i → y.item? s = some i) (hshares : SharesLess x y) :
    d.Still P y where
  agree s hs := by
    obtain ⟨i, hi⟩ := Option.isSome_iff_exists.1 (hthere s hs)
    rw [hi, hkept s hs i ((h.agree s hs).trans hi)]
  unshared := hshares.unshared h.unshared

/-! ## Changes -/

/-- A change between disks on which the places are still. -/
structure Change.Still (P : Route → Prop) (d : Disk) (c : Change) : Prop where
  before : d.Still P c.before
  after : d.Still P c.after

variable {c e : Change}

theorem Change.Still.apply (hc : c.Still P d) (hx : d.Still P x) : d.Still P (c.apply x) where
  agree := hx.agree.trans (Spares.apply (hc.before.agree.symm.trans hc.after.agree) x)
  unshared := by
    intro routes hroutes s hs hP
    rcases List.mem_append.1 hroutes with hmem | hmem
    · exact hc.after.unshared routes hmem s hs hP
    · obtain ⟨routes', hmem', rfl⟩ := List.mem_map.1 hmem
      exact hx.unshared routes' hmem' s (List.mem_filter.1 hs).1 hP

theorem Change.Still.merge (hc : c.Still P d) (he : e.Still P d) :
    Still P d { e with after := c.apply e.after } :=
  ⟨he.before, hc.apply he.after⟩

theorem still_foldl_apply {changes : List Change} (hc : ∀ c ∈ changes, c.Still P d)
    (hx : d.Still P x) : d.Still P (changes.foldl (fun x c => c.apply x) x) := by
  induction changes generalizing x with
  | nil => exact hx
  | cons c changes ih =>
    obtain ⟨hfirst, hrest⟩ := List.forall_mem_cons.1 hc
    exact ih hrest (hfirst.apply hx)

end ClassViewer.Disk
