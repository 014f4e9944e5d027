import ClassViewer.Proofs.Disk.Place
import ClassViewer.Proofs.Disk.Still

/-!
# Names that are free on a ground

A ground is a disk with nothing but the way to a name that is free there (`Vacant`). On every disk
that extends the ground the path leads to that name, and all that counts is what lies there
(`Lies`) : nothing, or a file. Looking for the file, reading, writing and removing it follow from
that (`Vacant.leads`, `Vacant.read`, `Vacant.exists_write`, `Vacant.exists_removeFile`), and nothing
else is changed (`ChangedAt`).
-/

namespace ClassViewer.Disk

variable {ground x y z : Disk} {here r directory : Route} {name : String} {p : Path}
  {content : Option ByteArray}

/-- On the ground the path leads to a free name : not even a link lies there. -/
structure Vacant (ground : Disk) (here : Route) (p : Path) (directory : Route) (name : String) :
    Prop where
  entry : ground.locate here .entry p = .ok (.vacant directory name)
  noSlash : asksDirectory p = false
  /-- The path starts at the root, or at a directory that is there. -/
  start : p.isAbsolute = true ∨ (ground.item? here).isSome = true

/-- What lies at a route : nothing, or a file with those bytes. -/
def Lies (x : Disk) (r : Route) : Option ByteArray → Prop
  | none => x.item? r = none
  | some bytes => ∃ runners, x.item? r = some (.file bytes runners)

/-! ## Changes at one place -/

/-- Nothing has changed but at that route, and nothing has got another route. -/
structure ChangedAt (r : Route) (x y : Disk) : Prop where
  others : ∀ s, s ≠ r → y.item? s = x.item? s
  shared : SharesLess x y

namespace ChangedAt

theorem lies (h : ChangedAt r x y) {s : Route} (hs : s ≠ r) (hx : Lies x s content) :
    Lies y s content := by
  cases content with
  | none => exact (h.others s hs).trans hx
  | some bytes =>
    obtain ⟨runners, hi⟩ := hx
    exact ⟨runners, (h.others s hs).trans hi⟩

theorem extends_ground (h : ChangedAt r x y) (hx : ground.Extends x) (hr : ground.item? r = none) :
    ground.Extends y := by
  intro s i hi
  rw [h.others s, hx s i hi]
  rintro rfl
  rw [hr] at hi
  cases hi

theorem put (r : Route) (x : Disk) (i : Item) : ChangedAt r x (x.put r i) := by
  refine ⟨fun s hs => ?_, .put x r i⟩
  by_cases hnil : s = []
  · subst hnil
    rfl
  · rw [item?_put x _ _ hnil, if_neg hs]

theorem erase (r : Route) (x : Disk) : ChangedAt r x (x.erase r) := by
  refine ⟨fun s hs => ?_, .erase x r⟩
  by_cases hnil : s = []
  · subst hnil
    rfl
  · rw [item?_erase x _ hnil, if_neg hs]

theorem alter (hr : x.routesOf r = [r]) (i : Item) : ChangedAt r x (x.alter r i) := by
  refine ⟨fun s hs => ?_, .alter x r i⟩
  by_cases hnil : s = []
  · subst hnil
    rfl
  · rw [item?_alter x _ _ hnil, hr, if_neg (by simpa using hs)]

end ChangedAt

/-! ## Following the path -/

namespace Vacant

variable (h : Vacant ground here p directory name)

include h

theorem item?_route : ground.item? (directory ++ [name]) = none :=
  item?_eq_none_of_locate h.entry

/-- Where the path leads on the ground, by the rules. -/
theorem leadsTo :
    (p.text.utf8ByteSize < pathLimit ∧ Text.holds (Char.ofNat 0) p.text = false ∧ p.text ≠ "") ∧
      Leads ground .entry linkLimit (if p.isAbsolute then [] else here) false (steps p.text)
        (.vacant directory name) := by
  obtain ⟨hshort, hf⟩ := locate_eq_ok_iff.mp h.entry
  obtain ⟨htext, hlead⟩ := follow_eq_ok_iff.mp hf
  rw [LeadsTo, h.noSlash] at hlead
  exact ⟨⟨hshort, htext⟩, hlead⟩

/-- The path is located where the rules lead. -/
theorem locate_of_leads {ending : Ending} {spot : Spot}
    (hlead : Leads x ending linkLimit (if p.isAbsolute then [] else here) false (steps p.text)
      spot) : x.locate here ending p = .ok spot := by
  obtain ⟨⟨hshort, htext⟩, -⟩ := h.leadsTo
  refine locate_eq_ok_iff.mpr ⟨hshort, follow_eq_ok_iff.mpr ⟨htext, ?_⟩⟩
  rwa [LeadsTo, h.noSlash]

variable (hx : ground.Extends x)

include hx

theorem locate_none (hl : Lies x (directory ++ [name]) none) (ending : Ending) :
    x.locate here ending p = .ok (.vacant directory name) :=
  h.locate_of_leads ((h.leadsTo.2.vacant_of_entry ending).vacant_of_extends hx hl)

theorem locate_some {bytes : ByteArray} (hl : Lies x (directory ++ [name]) (some bytes)) :
    ∃ runners, ∀ ending, x.locate here ending p =
      .ok (.found (directory ++ [name]) (.file bytes runners)) := by
  obtain ⟨runners, hfile⟩ := hl
  exact ⟨runners, fun ending => h.locate_of_leads
    (h.leadsTo.2.found_of_entry hx hfile ⟨by simp, by simp⟩ ending)⟩

/-! ## Questions -/

/-- The path leads to something exactly if something lies at the place, and then it is a file. -/
theorem leads_and_isFile (hl : Lies x (directory ++ [name]) content) :
    x.leads here p = content.isSome ∧ x.isFile here p = content.isSome := by
  cases content with
  | none =>
    have hlocate := h.locate_none hx hl .target
    rw [leads, isFile, lookup, if_pos rfl, hlocate]
    exact ⟨rfl, rfl⟩
  | some bytes =>
    obtain ⟨runners, hlocate⟩ := h.locate_some hx hl
    rw [leads, isFile, lookup, if_pos rfl, hlocate .target]
    exact ⟨rfl, rfl⟩

theorem read (hl : Lies x (directory ++ [name]) content) :
    x.read here p = content.elim (.error (.os .noEntry)) .ok := by
  cases content with
  | none =>
    rw [Disk.read, lookup, if_pos rfl, h.locate_none hx hl]
    rfl
  | some bytes =>
    obtain ⟨runners, hlocate⟩ := h.locate_some hx hl
    rw [Disk.read, lookup, if_pos rfl, hlocate]
    rfl

/-- The path leads to no special file. -/
theorem lookup_ne_device (hl : Lies x (directory ++ [name]) content) (r : Route) (device : Device) :
    x.lookup here true p ≠ .ok (r, .device device) := by
  intro hlookup
  cases content with
  | none =>
    rw [lookup, if_pos rfl, h.locate_none hx hl] at hlookup
    cases hlookup
  | some bytes =>
    obtain ⟨runners, hlocate⟩ := h.locate_some hx hl
    rw [lookup, if_pos rfl, hlocate] at hlookup
    cases hlookup

/-- The route the path leads to, if something lies there. -/
theorem canonical (hl : Lies x (directory ++ [name]) content)
    (hshort : (Route.toPath (directory ++ [name])).text.utf8ByteSize < pathLimit) :
    x.canonical here p =
      if content.isSome then .ok (directory ++ [name]) else .error (.os .noEntry) := by
  have hstart : (!p.isAbsolute && (x.item? here).isNone) = false := by
    rcases h.start with habs | hthere
    · simp [habs]
    · obtain ⟨i, hi⟩ := Option.isSome_iff_exists.1 hthere
      simp [hx _ _ hi]
  rw [Disk.canonical, hstart, if_neg Bool.false_ne_true]
  cases content with
  | none =>
    rw [(locate_eq_ok_iff.mp (h.locate_none hx hl .target)).2]
    rfl
  | some bytes =>
    obtain ⟨runners, hlocate⟩ := h.locate_some hx hl
    rw [(locate_eq_ok_iff.mp (hlocate .target)).2]
    simp only [if_neg (Nat.not_le.mpr hshort), Option.isSome_some, if_true]

/-! ## Changes -/

/-- A file is written to the place, whether there was one or not. -/
theorem exists_write (hl : Lies x (directory ++ [name]) content)
    (hroutes : x.routesOf (directory ++ [name]) = [directory ++ [name]]) (bytes : ByteArray) :
    ∃ y, x.write here p bytes = .ok y ∧ Lies y (directory ++ [name]) (some bytes) ∧
      ChangedAt (directory ++ [name]) x y := by
  have hne : directory ++ [name] ≠ [] := by simp
  cases content with
  | none =>
    refine ⟨x.put (directory ++ [name]) (.file bytes .nobody), ?_, ⟨.nobody, ?_⟩,
      .put _ x _⟩
    · rw [Disk.write, h.locate_none hx hl]
    · rw [item?_put x _ _ hne, if_pos rfl]
  | some old =>
    obtain ⟨runners, hlocate⟩ := h.locate_some hx hl
    refine ⟨x.alter (directory ++ [name]) (.file bytes runners), ?_, ⟨runners, ?_⟩,
      .alter hroutes _⟩
    · rw [Disk.write, hlocate]
    · rw [item?_alter x _ _ hne, hroutes, if_pos (List.mem_singleton_self _)]

/-- A file that lies at the place is removed. -/
theorem exists_removeFile {bytes : ByteArray} (hl : Lies x (directory ++ [name]) (some bytes)) :
    ∃ y, x.removeFile here p = .ok y ∧ Lies y (directory ++ [name]) none ∧
      ChangedAt (directory ++ [name]) x y := by
  have hne : directory ++ [name] ≠ [] := by simp
  obtain ⟨runners, hlocate⟩ := h.locate_some hx hl
  refine ⟨x.erase (directory ++ [name]), ?_, ?_, .erase _ x⟩
  · rw [Disk.removeFile, hlocate]
    simp [h.noSlash]
  · exact (item?_erase x _ hne).trans (if_pos rfl)

end Vacant

/-! ## The directory -/

/-- A name is free only in a directory that is there. -/
theorem Leads.isSome_directory {ending : Ending} {links : Nat} {slash : Bool} {segs : List String}
    (h : Leads x ending links here slash segs (.vacant directory name)) :
    (x.item? directory).isSome = true := by
  generalize hs : Spot.vacant directory name = spot at h
  induction h with
  | arrive => cases hs
  | stay _ ih => exact ih hs
  | climb _ ih => exact ih hs
  | free _ _ ht =>
    obtain ⟨rfl, rfl⟩ := Spot.vacant.inj hs
    exact (Bool.and_eq_true_iff.1 ht).1
  | enter _ _ _ ih => exact ih hs
  | link => cases hs
  | follow _ _ _ _ ih => exact ih hs
  | item => cases hs

/-- A path leads to a directory on every disk that extends the ground, if the directory is there. -/
theorem lookup_directory_of_extends (hx : ground.Extends x)
    (hthere : (ground.item? directory).isSome = true)
    (h : ground.lookup here true p = .ok (directory, .directory)) :
    x.lookup here true p = .ok (directory, .directory) := by
  obtain ⟨hshort, hf⟩ := locate_eq_ok_iff.mp (lookup_eq_ok_iff.mp h)
  obtain ⟨htext, hlead⟩ := follow_eq_ok_iff.mp hf
  have hitem : ground.item? directory = some .directory := by
    obtain ⟨i, hi⟩ := Option.isSome_iff_exists.1 hthere
    have hsame := resolve_eq_ok_iff.mpr (Leads.keeps (Keeps.refl ground) hlead)
    rw [resolve_eq_ok_iff.mpr hlead, hi, Option.getD_some] at hsame
    obtain ⟨-, rfl⟩ := Spot.found.inj (Except.ok.inj hsame)
    exact hi
  have hlead' := Leads.keeps hx.keeps hlead
  rw [hx _ _ hitem, Option.getD_some] at hlead'
  exact lookup_eq_ok_iff.mpr (locate_eq_ok_iff.mpr ⟨hshort, follow_eq_ok_iff.mpr ⟨htext, hlead'⟩⟩)

/-- The route of a directory is the same on every disk that extends the ground. -/
theorem canonical_of_extends (hx : ground.Extends x)
    (hthere : (ground.item? directory).isSome = true)
    (h : ground.lookup here true p = .ok (directory, .directory))
    (hcanonical : ground.canonical here p = .ok directory) :
    x.canonical here p = .ok directory := by
  have hfollow := (locate_eq_ok_iff.mp (lookup_eq_ok_iff.mp h)).2
  have hfollow' := (locate_eq_ok_iff.mp
    (lookup_eq_ok_iff.mp (lookup_directory_of_extends hx hthere h))).2
  unfold canonical at hcanonical ⊢
  rw [hfollow] at hcanonical
  rw [hfollow']
  split at hcanonical
  · cases hcanonical
  · rename_i hstart
    rw [if_neg]
    · exact hcanonical
    · intro hgone
      simp only [Bool.and_eq_true, Option.isNone_iff_eq_none, Bool.not_eq_true'] at hstart hgone
      obtain ⟨i, hi⟩ := Option.ne_none_iff_exists'.1 fun hnone => hstart ⟨hgone.1, hnone⟩
      rw [hx _ _ hi] at hgone
      cases hgone.2

end ClassViewer.Disk
