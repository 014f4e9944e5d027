import ClassViewer.Proofs.Disk.Passage
import ClassViewer.Proofs.Disk.Vacant

/-!
# Directories that are filled by writing to them

A directory may be fresh on a ground : nothing lies below it (`Fresh`). When directories are made
and files are written there, and nothing else is done, it holds directories and files without other
routes (`Filled`), so that the place a path below it leads to can be told by the segments
(`Filled.route_of_leads`). A file that is written there is found under its path, and no other file
is changed (`Filled.writes`).
-/

namespace ClassViewer.Disk

variable {ground d d' : Disk} {ending : Ending} {links : Nat} {root here r place : Route}
  {slash : Bool} {segs : List String} {spot : Spot} {p : Path} {i : Item} {name : String}
  {bytes : ByteArray}

/-! ## Where paths lead -/

/-- The route of what is there or may be made there. -/
def Spot.route : Spot → Route
  | found r _ => r
  | vacant r name => r ++ [name]

/-- What a path leads to lies where it leads. -/
theorem Leads.getD_item? (h : Leads d ending links here slash segs (.found r i)) :
    (d.item? r).getD .directory = i := by
  have hsame := resolve_eq_ok_iff.2 (Leads.keeps (Keeps.refl d) h)
  rw [resolve_eq_ok_iff.2 h] at hsame
  exact (Spot.found.inj (Except.ok.inj hsame)).2.symm

/-- A file is found where its name was free. -/
theorem Leads.found_of_written (h : Leads d .writing links here slash segs (.vacant r name))
    (hx : d.Extends d') (hi : d'.item? (r ++ [name]) = some i) (hleaf : IsLeaf i) :
    Leads d' .target links here slash segs (.found (r ++ [name]) i) := by
  have hname : ∀ {slash seg rest}, IsName .writing slash seg rest → IsName .target slash seg rest :=
    fun hn => ⟨hn.ne_dot, hn.ne_dots, by simp, hn.short⟩
  generalize hs : Spot.vacant r name = spot at h
  induction h with
  | arrive => cases hs
  | stay _ ih => exact .stay (ih hs)
  | climb _ ih => exact .climb (ih hs)
  | free hn _ _ =>
    obtain ⟨rfl, rfl⟩ := Spot.vacant.inj hs
    -- nothing is written where a slash asks for a directory
    have hslash := hn.admitted
    simp only [true_and, and_true, Bool.not_eq_true] at hslash
    exact .item (hname hn) hi hleaf.1 hleaf.2 (.inl hslash)
  | enter hn hd _ ih => exact .enter (hname hn) (hx _ _ hd) (ih hs)
  | link => cases hs
  | follow hn hl _ _ ih => exact .follow (hname hn) (hx _ _ hl) (by simp [Ending.follows]) (ih hs)
  | item => cases hs

/-! ## Directories that are made -/

/-- What is new where directories were made is a directory. -/
theorem item?_makeDirectory (h : d.makeDirectory here p = .ok d') (hi : d'.item? r = some i) :
    d.item? r = some i ∨ i = .directory := by
  unfold makeDirectory at h
  split at h
  · cases h
  · cases h
  · rename_i s name _
    obtain rfl := Except.ok.inj h
    by_cases hr : r = s ++ [name]
    · rw [hr, item?_put d _ _ (by simp), if_pos rfl] at hi
      exact .inr (Option.some.inj hi).symm
    · rw [(ChangedAt.put (s ++ [name]) d .directory).others r hr] at hi
      exact .inl hi

theorem item?_makeDirectoriesUpTo {fuel : Nat}
    (hi : (d.makeDirectoriesUpTo here fuel p).2.item? r = some i) :
    d.item? r = some i ∨ i = .directory := by
  induction fuel generalizing p i with
  | zero => exact .inl hi
  | succ fuel ih =>
    unfold makeDirectoriesUpTo at hi
    split at hi
    · exact .inl hi
    · split at hi
      · rename_i hm
        exact item?_makeDirectory hm hi
      · split at hi
        · split at hi
          · exact .inl hi
          · rename_i above _
            split at hi
            · rename_i hup
              exact ih (by rwa [hup])
            · rename_i d₁ hup
              have hmade : ∀ {j}, d₁.item? r = some j → d.item? r = some j ∨ j = .directory := by
                intro j hj
                exact ih (p := above) (by rwa [hup])
              split at hi
              · rename_i hm
                exact (item?_makeDirectory hm hi).elim hmade .inr
              · exact hmade hi
        · exact .inl hi

/-! ## Below the root -/

/-- The route lies below the root. -/
structure IsBelow (root r : Route) : Prop where
  below : root <+: r
  ne_root : r ≠ root

theorem isBelow_append (hr : root <+: r) (name : String) : IsBelow root (r ++ [name]) := by
  refine ⟨hr.trans (List.prefix_append r [name]), fun hc => ?_⟩
  have hlength := hr.length_le
  rw [← hc, List.length_append, List.length_singleton] at hlength
  omega

/-- Nothing lies below the root. -/
structure Fresh (root : Route) (ground : Disk) : Prop where
  item?_eq_none : ∀ r, IsBelow root r → ground.item? r = none
  unshared : Unshared (IsBelow root) ground

/-- Everything on the ground is as it was, and below the root lie directories and files, each with
one route. -/
structure Filled (root : Route) (ground d : Disk) : Prop where
  extends_ground : ground.Extends d
  shares : SharesLess ground d
  plain : ∀ r, IsBelow root r → ∀ i, d.item? r = some i → i = .directory ∨ ∃ b x, i = .file b x

theorem Fresh.filled (h : Fresh root ground) : Filled root ground ground where
  extends_ground := .refl ground
  shares := .refl ground
  plain r hr i hi := by
    rw [h.item?_eq_none r hr] at hi
    cases hi

namespace Filled

theorem makeDirectories (h : Filled root ground d) (here : Route) (p : Path) :
    Filled root ground (d.makeDirectories here p).2 where
  extends_ground := h.extends_ground.trans (extends_makeDirectories d here p)
  shares := h.shares.trans (.makeDirectoriesUpTo d here _ p)
  plain r hr i hi := (item?_makeDirectoriesUpTo hi).elim (h.plain r hr i) .inl

/-- Without a climb, a path that goes on from the root leads below it by its segments. -/
theorem route_of_leads (hd : Filled root ground d)
    (h : Leads d ending links here slash segs spot) (hhere : root <+: here)
    (hdots : ".." ∉ segs) : spot.route = here ++ segs.filter (· != ".") := by
  have hnolink : ∀ {r name target}, root <+: r → d.item? (r ++ [name]) ≠ some (.link target) := by
    intro r name target hr hi
    rcases hd.plain _ (isBelow_append hr name) _ hi with hc | ⟨b, x, hc⟩
    · cases hc
    · cases hc
  induction h with
  | arrive => simp [Spot.route]
  | stay _ ih => exact ih hhere (fun hc => hdots (List.mem_cons_of_mem _ hc))
  | climb => exact absurd List.mem_cons_self hdots
  | free hn _ _ => simp [Spot.route, hn.ne_dot]
  | @enter links here slash seg rest spot hn _ _ ih =>
    rw [ih (hhere.trans (List.prefix_append here [seg]))
      (fun hc => hdots (List.mem_cons_of_mem _ hc))]
    simp [hn.ne_dot]
  | link _ hi _ => exact absurd hi (hnolink hhere)
  | follow _ hi _ _ => exact absurd hi (hnolink hhere)
  | item hn _ _ _ _ => simp [Spot.route, hn.ne_dot]

end Filled

/-! ## Files that are written below the root -/

/-- A file was written to a place that its path leads to, and no other file was changed. -/
structure WrittenTo (place : Route) (p : Path) (here : Route) (bytes : ByteArray) (d d' : Disk) :
    Prop where
  lookup : ∃ runners, d'.lookup here true p = .ok (place, .file bytes runners)
  others : ∀ r, r ≠ place → d'.item? r = d.item? r
  keeps : d.Keeps d'

/-- A path still leads to a place where nothing was taken away. -/
theorem lookup_of_keeps (hk : d.Keeps d') (h : d.lookup here true p = .ok (r, i))
    {j : Item} (hj : d'.item? r = some j) : d'.lookup here true p = .ok (r, j) := by
  obtain ⟨hshort, hf⟩ := locate_eq_ok_iff.1 (lookup_eq_ok_iff.1 h)
  obtain ⟨htext, hlead⟩ := follow_eq_ok_iff.1 hf
  have hlead' := Leads.keeps hk hlead
  rw [hj, Option.getD_some] at hlead'
  exact lookup_eq_ok_iff.2 (locate_eq_ok_iff.2 ⟨hshort, follow_eq_ok_iff.2 ⟨htext, hlead'⟩⟩)

theorem item?_of_leads (h : Leads d ending links here slash segs (.found r i))
    (hi : i ≠ .directory) : d.item? r = some i := by
  have hget := h.getD_item?
  cases hr : d.item? r with
  | none =>
    rw [hr] at hget
    exact absurd hget.symm hi
  | some j =>
    rw [hr] at hget
    exact congrArg some hget

theorem item?_of_lookup (h : d.lookup here true p = .ok (r, i)) (hi : i ≠ .directory) :
    d.item? r = some i :=
  item?_of_leads (follow_eq_ok_iff.1 (locate_eq_ok_iff.1 (lookup_eq_ok_iff.1 h)).2).2 hi

namespace Filled

variable {inner : Path}

theorem isBelow_trail (h : inner.trail ≠ []) : IsBelow root (root ++ inner.trail) :=
  ⟨List.prefix_append _ _, fun hc => h (List.append_right_eq_self.1 hc)⟩

/-- A file below the root is put or altered, and the directory is filled as before. -/
theorem changedAt (hd : Filled root ground d) (hfresh : Fresh root ground)
    (hplace : IsBelow root place) (hc : ChangedAt place d d') {runners : Runners}
    (hi : d'.item? place = some (.file bytes runners)) : Filled root ground d' where
  extends_ground := hc.extends_ground hd.extends_ground (hfresh.item?_eq_none place hplace)
  shares := hd.shares.trans hc.shared
  plain r hr i hir := by
    by_cases hsame : r = place
    · subst hsame
      exact .inr ⟨bytes, runners, Option.some.inj (hir.symm.trans hi)⟩
    · rw [hc.others r hsame] at hir
      exact hd.plain r hr i hir

/-- A file in place of a file takes nothing away, nor does one where nothing was. -/
theorem keeps (hc : ChangedAt place d d') {runners : Runners}
    (hi : d'.item? place = some (.file bytes runners))
    (hwas : ∀ i, d.item? place = some i → ∃ b x, i = .file b x) : d.Keeps d' := by
  intro r i hir
  by_cases hsame : r = place
  · subst hsame
    obtain ⟨b, x, rfl⟩ := hwas i hir
    exact ⟨_, hi, rfl⟩
  · exact ⟨i, (hc.others r hsame).trans hir, rfl⟩

/-- Where a path below the root leads, and what it leads to. -/
theorem route_of_locate (hd : Filled root ground d) {p : Path}
    (hroot : ground.lookup here true p = .ok (root, .directory)) (hrel : inner.isAbsolute = false)
    (hdots : ".." ∉ steps inner.text) (htrail : inner.trail ≠ [])
    (h : d.locate here ending (p.join inner) = .ok spot) : spot.route = root ++ inner.trail ∧
      ∀ {r i}, spot = .found r i → i = .directory ∨
        d.item? (root ++ inner.trail) = some i ∧ ∃ b x, i = .file b x := by
  have hne : steps inner.text ≠ [] := by
    intro hnil
    rw [Path.trail_eq, hnil] at htrail
    exact htrail rfl
  obtain ⟨left, hlead⟩ := exists_leads_of_join hroot hrel hne hd.extends_ground h
  have hroute := hd.route_of_leads hlead List.prefix_rfl hdots
  rw [← Path.trail_eq] at hroute
  refine ⟨hroute, ?_⟩
  rintro r i rfl
  obtain rfl : r = root ++ inner.trail := hroute
  by_cases hi : i = .directory
  · exact .inl hi
  · have hitem := item?_of_leads hlead hi
    exact .inr ⟨hitem, (hd.plain _ (isBelow_trail htrail) _ hitem).resolve_left hi⟩

/-- A file that is written below the root without a climb lies where the segments say. -/
theorem write (hd : Filled root ground d) (hfresh : Fresh root ground) {p : Path}
    (hroot : ground.lookup here true p = .ok (root, .directory)) (hrel : inner.isAbsolute = false)
    (hdots : ".." ∉ steps inner.text) (htrail : inner.trail ≠ [])
    (hw : d.write here (p.join inner) bytes = .ok d') :
    WrittenTo (root ++ inner.trail) (p.join inner) here bytes d d' ∧ Filled root ground d' := by
  have hplace : IsBelow root (root ++ inner.trail) := isBelow_trail htrail
  have hnil : root ++ inner.trail ≠ [] := by simp [htrail]
  unfold Disk.write at hw
  split at hw
  · cases hw
  · rename_i r old runners hl
    obtain ⟨hroute, hitem⟩ := hd.route_of_locate hroot hrel hdots htrail hl
    obtain rfl : r = root ++ inner.trail := hroute
    obtain rfl := Except.ok.inj hw
    have hsingle := (hd.shares.unshared hfresh.unshared).routesOf hplace
    have hc := ChangedAt.alter hsingle (.file bytes runners)
    have hi : (d.alter (root ++ inner.trail) (.file bytes runners)).item? (root ++ inner.trail) =
        some (.file bytes runners) := by
      rw [item?_alter d _ _ hnil, hsingle, if_pos (List.mem_singleton_self _)]
    have hwas := (hitem rfl).resolve_left (by simp)
    have hk := keeps hc hi fun i hi' => ⟨old, runners, Option.some.inj (hi'.symm.trans hwas.1)⟩
    have hfound := lookup_eq_ok_iff.2 (locate_target_of_writing hl)
    exact ⟨⟨⟨runners, lookup_of_keeps hk hfound hi⟩, hc.others, hk⟩,
      hd.changedAt hfresh hplace hc hi⟩
  · rename_i r device hl
    obtain ⟨-, hitem⟩ := hd.route_of_locate hroot hrel hdots htrail hl
    simpa using hitem rfl
  · rename_i r held hl
    obtain ⟨-, hitem⟩ := hd.route_of_locate hroot hrel hdots htrail hl
    simpa using hitem rfl
  · cases hw
  · rename_i r name hl
    obtain ⟨hroute, -⟩ := hd.route_of_locate hroot hrel hdots htrail hl
    have hroute : r ++ [name] = root ++ inner.trail := hroute
    obtain rfl := Except.ok.inj hw
    rw [← hroute] at hplace hnil ⊢
    have hc := ChangedAt.put (r ++ [name]) d (.file bytes .nobody)
    have hi : (d.put (r ++ [name]) (.file bytes .nobody)).item? (r ++ [name]) =
        some (.file bytes .nobody) := by
      rw [item?_put d _ _ hnil, if_pos rfl]
    have hfree := item?_eq_none_of_locate hl
    obtain ⟨hshort, hf⟩ := locate_eq_ok_iff.1 hl
    obtain ⟨htext, hlead⟩ := follow_eq_ok_iff.1 hf
    have hfound := Leads.found_of_written hlead (extends_put hfree _) hi ⟨by simp, by simp⟩
    have hk := keeps hc hi fun i hi' => by simp [hfree] at hi'
    exact ⟨⟨⟨.nobody, lookup_eq_ok_iff.2 (locate_eq_ok_iff.2
      ⟨hshort, follow_eq_ok_iff.2 ⟨htext, hfound⟩⟩)⟩, hc.others, hk⟩,
      hd.changedAt hfresh hplace hc hi⟩

end Filled

end ClassViewer.Disk
