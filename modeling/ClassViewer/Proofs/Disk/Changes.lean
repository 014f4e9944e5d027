import ClassViewer.Proofs.Disk.Resolution
import ClassViewer.Proofs.Lookup

/-!
# What a change changes

The items of a disk after something was erased, put or altered (`item?_erase`, `item?_put`,
`item?_alter`). Making directories only adds to a disk (`extends_makeDirectories`), and a file that
is written replaces the bytes of the routes it is `overwritten` at and no others
(`bytesAt?_write_of_not_mem`, `bytesAt?_write_of_mem`).
-/

namespace ClassViewer.Disk

variable {d d' : Disk} {here r : Route} {p : Path} {i : Item} {b : ByteArray}

/-! ## Items -/

theorem item?_of_ne_nil (h : r ≠ []) (d : Disk) : d.item? r = d.items.lookup r :=
  if_neg h

/-- Nothing is found at a route that was erased, and everything else where it was. -/
theorem item?_erase (d : Disk) (r : Route) {s : Route} (hs : s ≠ []) :
    (d.erase r).item? s = if s = r then none else d.item? s := by
  rw [item?_of_ne_nil hs, item?_of_ne_nil hs]
  refine (lookup_filter (fun e => !(e == r)) s d.items).trans ?_
  by_cases h : s = r
  · simp [h]
  · simp [h]

/-- An item that was put is found at its route, and everything else where it was. -/
theorem item?_put (d : Disk) (r : Route) (i : Item) {s : Route} (hs : s ≠ []) :
    (d.put r i).item? s = if s = r then some i else d.item? s := by
  rw [item?_of_ne_nil hs, item?_of_ne_nil hs]
  by_cases h : s = r
  · subst h
    rw [if_pos rfl]
    exact List.lookup_cons_self
  · rw [if_neg h]
    refine (lookup_cons_of_ne h i _).trans ?_
    refine (lookup_filter (fun e => !(e == r)) s d.items).trans ?_
    rw [if_pos (by simpa using h)]

theorem lookup_map_const (routes : List Route) (i : Item) (s : Route) :
    (routes.map fun r => (r, i)).lookup s = if s ∈ routes then some i else none := by
  induction routes with
  | nil => rfl
  | cons r routes ih =>
    by_cases h : s = r
    · subst h
      rw [if_pos List.mem_cons_self]
      exact List.lookup_cons_self
    · rw [List.map_cons, lookup_cons_of_ne h, ih]
      simp [h]

/-- An item that was altered is found at all its routes, and everything else where it was. -/
theorem item?_alter (d : Disk) (r : Route) (i : Item) {s : Route} (hs : s ≠ []) :
    (d.alter r i).item? s = if s ∈ d.routesOf r then some i else d.item? s := by
  rw [item?_of_ne_nil hs, item?_of_ne_nil hs]
  refine List.lookup_append.trans ?_
  rw [lookup_map_const, lookup_filter (fun e => !(d.routesOf r).contains e)]
  by_cases h : s ∈ d.routesOf r
  · rw [if_pos h, if_pos h]
    rfl
  · rw [if_neg h, if_neg h, if_pos (by simpa using h)]
    rfl

/-- The bytes of the file at a route. -/
def bytesAt? (d : Disk) (r : Route) : Option ByteArray :=
  match d.item? r with
  | some (.file b _) => some b
  | _ => none

theorem bytesAt?_eq_some_iff :
    d.bytesAt? r = some b ↔ ∃ x, d.item? r = some (.file b x) := by
  unfold bytesAt?
  split
  · simp_all
  · simp_all

theorem bytesAt?_congr (h : d.item? r = d'.item? r) : d.bytesAt? r = d'.bytesAt? r := by
  rw [bytesAt?, bytesAt?, h]

theorem ne_nil_of_bytesAt? (h : d.bytesAt? r = some b) : r ≠ [] := by
  rintro rfl
  obtain ⟨x, hx⟩ := bytesAt?_eq_some_iff.mp h
  cases hx

/-! ## Disks to which something was added -/

/-- Everything on the first disk is on the second as it is. -/
def Extends (d d' : Disk) : Prop := ∀ r i, d.item? r = some i → d'.item? r = some i

theorem Extends.refl (d : Disk) : d.Extends d := fun _ _ h => h

theorem Extends.trans {d'' : Disk} (h : d.Extends d') (h' : d'.Extends d'') : d.Extends d'' :=
  fun r i hi => h' r i (h r i hi)

theorem Extends.keeps (h : d.Extends d') : d.Keeps d' :=
  fun r i hi => ⟨i, h r i hi, rfl⟩

theorem Extends.bytesAt? (h : d.Extends d') (hb : d.bytesAt? r = some b) :
    d'.bytesAt? r = some b := by
  obtain ⟨x, hx⟩ := bytesAt?_eq_some_iff.mp hb
  exact bytesAt?_eq_some_iff.mpr ⟨x, h r _ hx⟩

theorem extends_put (h : d.item? r = none) (i : Item) : d.Extends (d.put r i) := by
  intro s j hj
  by_cases hs : s = []
  · subst hs
    exact hj
  · rw [item?_put d r i hs, if_neg, hj]
    rintro rfl
    rw [h] at hj
    cases hj

/-! ## Directories that are made -/

theorem extends_makeDirectory (h : d.makeDirectory here p = .ok d') : d.Extends d' := by
  unfold makeDirectory at h
  split at h
  · cases h
  · cases h
  · rename_i r name hl
    obtain rfl := Except.ok.inj h
    exact extends_put (item?_eq_none_of_locate hl) _

theorem extends_makeDirectoriesUpTo (d : Disk) (here : Route) (fuel : Nat) (p : Path) :
    d.Extends (d.makeDirectoriesUpTo here fuel p).2 := by
  induction fuel generalizing p with
  | zero => exact Extends.refl d
  | succ fuel ih =>
    unfold makeDirectoriesUpTo
    split
    · exact Extends.refl d
    · split
      · rename_i d' hm
        exact extends_makeDirectory hm
      · split
        · split
          · exact Extends.refl d
          · rename_i above _
            have habove := ih above
            split
            · rename_i hup
              rwa [hup] at habove
            · rename_i hup
              rw [hup] at habove
              split
              · rename_i hm
                exact habove.trans (extends_makeDirectory hm)
              · exact habove
        · exact Extends.refl d

/-- Making directories leaves everything where it was, also if it fails. -/
theorem extends_makeDirectories (d : Disk) (here : Route) (p : Path) :
    d.Extends (d.makeDirectories here p).2 :=
  extends_makeDirectoriesUpTo d here _ p

/-- A directory whose place is free is made at once. -/
theorem makeDirectories_of_vacant {name : String} (hne : p.text ≠ "")
    (h : d.locate here .entry p = .ok (.vacant r name)) :
    d.makeDirectories here p = (.ok (), d.put (r ++ [name]) .directory) := by
  have hmade : d.makeDirectory here p = .ok (d.put (r ++ [name]) .directory) := by
    rw [makeDirectory, h]
  rw [makeDirectories, makeDirectoriesUpTo, if_neg hne, hmade]

/-! ## Files that are written -/

/-- The routes whose file or pipe is written if the path is. -/
def overwritten (d : Disk) (here : Route) (p : Path) : List Route :=
  match d.locate here .writing p with
  | .ok (.found r (.file _ _)) => d.routesOf r
  | .ok (.found r (.pipe _)) => d.routesOf r
  | _ => []

/-- A file that is not written keeps its bytes. -/
theorem bytesAt?_write_of_not_mem {bytes : ByteArray} (hw : d.write here p bytes = .ok d')
    (hr : r ∉ d.overwritten here p) (hb : d.bytesAt? r = some b) : d'.bytesAt? r = some b := by
  have hne := ne_nil_of_bytesAt? hb
  unfold write at hw
  unfold overwritten at hr
  split at hw
  · cases hw
  · rename_i s c x hl
    obtain rfl := Except.ok.inj hw
    rw [hl] at hr
    rw [← hb]
    exact bytesAt?_congr ((item?_alter d s _ hne).trans (if_neg hr))
  · rename_i device hl
    cases hd : writeDevice device bytes with
    | error e =>
      rw [hd] at hw
      cases hw
    | ok _ =>
      rw [hd] at hw
      obtain rfl := Except.ok.inj hw
      exact hb
  · rename_i s held hl
    obtain rfl := Except.ok.inj hw
    rw [hl] at hr
    rw [← hb]
    exact bytesAt?_congr ((item?_alter d s _ hne).trans (if_neg hr))
  · cases hw
  · rename_i s name hl
    obtain rfl := Except.ok.inj hw
    exact (extends_put (item?_eq_none_of_locate hl) _).bytesAt? hb

/-- A file that is written has the bytes it is written with, if it still is a file. -/
theorem bytesAt?_write_of_mem (bytes : ByteArray) (hr : r ∈ d.overwritten here p) (hne : r ≠ []) :
    ∃ d', d.write here p bytes = .ok d' ∧ ∀ b, d'.bytesAt? r = some b → b = bytes := by
  unfold overwritten at hr
  unfold write
  split at hr
  · rename_i s c x hl
    refine ⟨_, by rw [hl], ?_⟩
    intro b hb
    obtain ⟨y, hy⟩ := bytesAt?_eq_some_iff.mp hb
    rw [item?_alter d s _ hne, if_pos hr] at hy
    cases hy
    rfl
  · rename_i s held hl
    refine ⟨_, by rw [hl], ?_⟩
    intro b hb
    obtain ⟨y, hy⟩ := bytesAt?_eq_some_iff.mp hb
    rw [item?_alter d s _ hne, if_pos hr] at hy
    cases hy
  · cases hr

/-- What is overwritten has the route the path leads to among its routes. -/
theorem mem_routesOf_of_overwritten {s : Route} (hr : r ∈ d.overwritten here p)
    (hf : d.follow here .target p = .ok (.found s i)) : r ∈ d.routesOf s := by
  have hspot : ∀ {t j}, d.locate here .writing p = .ok (.found t j) → t = s := by
    intro t j hl
    have ht := (locate_eq_ok_iff.mp (locate_target_of_writing hl)).2
    rw [hf] at ht
    cases ht
    rfl
  unfold overwritten at hr
  split at hr
  · rename_i hl
    exact hspot hl ▸ hr
  · rename_i hl
    exact hspot hl ▸ hr
  · cases hr

/-- Writing to a stream leaves the disk as it is. -/
theorem write_of_stream {n : Nat} (h : d.lookup here true p = .ok (r, .device (.stream n)))
    (bytes : ByteArray) :
    (d.write here p bytes).toOption.getD d = d := by
  have ht := lookup_eq_ok_iff.mp h
  unfold write
  cases hw : d.locate here .writing p with
  | error e => rfl
  | ok spot =>
    rw [locate_target_of_writing hw] at ht
    obtain rfl := Except.ok.inj ht
    rfl

/-! ## A disk with one file -/

/-- The disk that holds one file in its root. -/
def holding (name : String) (b : ByteArray) : Disk := ⟨[([name], .file b .nobody)], []⟩

/-- Whether a text is the name of a file and nothing else. -/
def isPlain (name : String) : Bool :=
  steps name == [name] && name != "." && name != ".." && !asksDirectory ⟨name⟩ &&
    !Text.holds (Char.ofNat 0) name && name.utf8ByteSize ≤ nameLimit

theorem locate_holding {name : String} (hp : isPlain name = true) (b : ByteArray)
    (ending : Ending) :
    (holding name b).locate [] ending ⟨name⟩ = .ok (.found [name] (.file b .nobody)) := by
  simp only [isPlain, Bool.and_eq_true, beq_iff_eq, bne_iff_ne, Bool.not_eq_true',
    decide_eq_true_eq] at hp
  obtain ⟨⟨⟨⟨⟨hsteps, hdot⟩, hdots⟩, hslash⟩, hnul⟩, hshort⟩ := hp
  refine locate_eq_ok_iff.mpr ⟨Nat.lt_of_le_of_lt hshort (by decide), ?_⟩
  refine follow_eq_ok_iff.mpr ⟨⟨hnul, ?_⟩, ?_⟩
  · rintro rfl
    cases hsteps
  · rw [LeadsTo, ite_self, hsteps, hslash]
    refine .item ⟨hdot, hdots, by simp, Nat.not_lt.mpr hshort⟩ ?_ (by simp) (by simp) (.inl rfl)
    exact List.lookup_cons_self

theorem lookup_holding {name : String} (hp : isPlain name = true) (b : ByteArray) :
    (holding name b).lookup [] true ⟨name⟩ = .ok ([name], .file b .nobody) :=
  lookup_eq_ok_iff.mpr (locate_holding hp b .target)

end ClassViewer.Disk
