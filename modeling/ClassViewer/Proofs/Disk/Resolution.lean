import ClassViewer.Disk.Files

/-!
# Where paths lead

`Leads` says by rules what `Disk.resolve` computes : a path leads to a spot exactly if the rules say
so (`resolve_eq_ok_iff`). A place a path was written at is the place it is read from
(`Leads.toTarget`), and where nothing was removed from a disk a path leads to the place it led to
before (`Leads.keeps`).
-/

namespace ClassViewer.Disk

/-! ## The rules -/

/-- A segment is looked up as a name : it is no dot, not too long, and no directory is asked for
where a file is to be written. -/
structure IsName (ending : Ending) (slash : Bool) (seg : String) (rest : List String) : Prop where
  ne_dot : seg ≠ "."
  ne_dots : seg ≠ ".."
  admitted : ¬(rest = [] ∧ slash = true ∧ ending = .writing)
  short : ¬nameLimit < seg.utf8ByteSize

/-- The segments lead from a directory to a spot, through at most so many links. -/
inductive Leads (d : Disk) (ending : Ending) : Nat → Route → Bool → List String → Spot → Prop
  | arrive {links here slash} :
      Leads d ending links here slash [] (.found here ((d.item? here).getD .directory))
  | stay {links here slash rest spot} : Leads d ending links here slash rest spot →
      Leads d ending links here slash ("." :: rest) spot
  | climb {links here slash rest spot} : Leads d ending links here.dropLast slash rest spot →
      Leads d ending links here slash (".." :: rest) spot
  | free {links here slash seg} : IsName ending slash seg [] → d.item? (here ++ [seg]) = none →
      d.takesNames here = true → Leads d ending links here slash [seg] (.vacant here seg)
  | enter {links here slash seg rest spot} : IsName ending slash seg rest →
      d.item? (here ++ [seg]) = some .directory →
      Leads d ending links (here ++ [seg]) slash rest spot →
      Leads d ending links here slash (seg :: rest) spot
  | link {links here slash seg target} : IsName ending slash seg [] →
      d.item? (here ++ [seg]) = some (.link target) → ending.follows slash = false →
      Leads d ending links here slash [seg] (.found (here ++ [seg]) (.link target))
  | follow {links here slash seg rest target spot} : IsName ending slash seg rest →
      d.item? (here ++ [seg]) = some (.link target) →
      ¬(rest = [] ∧ ending.follows slash = false) →
      Leads d ending links (if (Path.mk target).isAbsolute then [] else here)
        (slash || (rest = [] && asksDirectory ⟨target⟩)) (steps target ++ rest) spot →
      Leads d ending (links + 1) here slash (seg :: rest) spot
  | item {links here slash seg i} : IsName ending slash seg [] →
      d.item? (here ++ [seg]) = some i → i ≠ .directory → (∀ target, i ≠ .link target) →
      (slash = false ∨ ending = .entry) →
      Leads d ending links here slash [seg] (.found (here ++ [seg]) i)

variable {d d' : Disk} {ending : Ending} {links : Nat} {here r : Route} {slash : Bool}
  {segs : List String} {spot : Spot} {i : Item}

theorem leads_of_resolve (h : d.resolve ending links here slash segs = .ok spot) :
    Leads d ending links here slash segs spot := by
  fun_induction d.resolve ending links here slash segs with
  | case1 links here slash =>
    obtain rfl := Except.ok.inj h
    exact .arrive
  | case2 links here slash rest ih => exact .stay (ih h)
  | case3 links here slash rest _ ih => exact .climb (ih h)
  | case4 => cases h
  | case5 => cases h
  | case6 links here slash seg rest h1 h2 h3 h4 place hi hv =>
    obtain ⟨rfl, ht⟩ := hv
    obtain rfl := Except.ok.inj h
    exact .free ⟨h1, h2, h3, h4⟩ hi ht
  | case7 => cases h
  | case8 links here slash seg rest h1 h2 h3 h4 place hi ih =>
    exact .enter ⟨h1, h2, h3, h4⟩ hi (ih h)
  | case9 links here slash seg rest h1 h2 h3 h4 place target hi hf =>
    obtain ⟨rfl, hf⟩ := hf
    obtain rfl := Except.ok.inj h
    exact .link ⟨h1, h2, h3, h4⟩ hi (by simpa using hf)
  | case10 => cases h
  | case11 here slash seg rest h1 h2 h3 h4 place target hi hf more ih =>
    exact .follow ⟨h1, h2, h3, h4⟩ hi (by simpa using hf) (by simpa using ih h)
  | case12 links here slash seg rest h1 h2 h3 h4 place i hd hl hi hs =>
    obtain ⟨rfl, hs⟩ := hs
    obtain rfl := Except.ok.inj h
    exact .item ⟨h1, h2, h3, h4⟩ hi hd hl (by simpa using hs)
  | case13 => cases h

theorem resolve_of_leads (h : Leads d ending links here slash segs spot) :
    d.resolve ending links here slash segs = .ok spot := by
  induction h with
  | arrive => rw [resolve]
  | stay _ ih => rw [resolve, if_pos rfl, ih]
  | climb _ ih => rw [resolve, if_neg (by decide), if_pos rfl, ih]
  | free hn hi ht =>
    rw [resolve, if_neg hn.ne_dot, if_neg hn.ne_dots, if_neg hn.admitted, if_neg hn.short]
    simp [hi, ht]
  | enter hn hi _ ih =>
    rw [resolve, if_neg hn.ne_dot, if_neg hn.ne_dots, if_neg hn.admitted, if_neg hn.short]
    simp [hi, ih]
  | link hn hi hf =>
    rw [resolve, if_neg hn.ne_dot, if_neg hn.ne_dots, if_neg hn.admitted, if_neg hn.short]
    simp [hi, hf]
  | follow hn hi hf _ ih =>
    rw [resolve, if_neg hn.ne_dot, if_neg hn.ne_dots, if_neg hn.admitted, if_neg hn.short]
    simp [hi, hf, ih]
  | item hn hi hd hl hs =>
    rw [resolve, if_neg hn.ne_dot, if_neg hn.ne_dots, if_neg hn.admitted, if_neg hn.short]
    simp [hi, hs]

/-- Resolving gives a spot exactly if the rules lead there. -/
theorem resolve_eq_ok_iff :
    d.resolve ending links here slash segs = .ok spot ↔ Leads d ending links here slash segs spot :=
  ⟨leads_of_resolve, resolve_of_leads⟩

/-! ## What is at the end -/

/-- A vacant spot has nothing in it. -/
theorem Leads.item_eq_none {name : String}
    (h : Leads d ending links here slash segs (.vacant r name)) : d.item? (r ++ [name]) = none := by
  generalize hs : Spot.vacant r name = spot at h
  induction h with
  | arrive => cases hs
  | stay _ ih => exact ih hs
  | climb _ ih => exact ih hs
  | free _ hi _ =>
    obtain ⟨rfl, rfl⟩ := Spot.vacant.inj hs
    exact hi
  | enter _ _ _ ih => exact ih hs
  | link => cases hs
  | follow _ _ _ _ ih => exact ih hs
  | item => cases hs

/-- What a path leads to for a file to be written is what it leads to otherwise. -/
theorem Leads.toTarget (h : Leads d .writing links here slash segs spot) :
    Leads d .target links here slash segs spot := by
  have hname : ∀ {slash seg rest}, IsName .writing slash seg rest → IsName .target slash seg rest :=
    fun hn => ⟨hn.ne_dot, hn.ne_dots, by simp, hn.short⟩
  induction h with
  | arrive => exact .arrive
  | stay _ ih => exact .stay ih
  | climb _ ih => exact .climb ih
  | free hn hi ht => exact .free (hname hn) hi ht
  | enter hn hi _ ih => exact .enter (hname hn) hi ih
  | link hn hi hf => exact .link (hname hn) hi hf
  | follow hn hi hf _ ih => exact .follow (hname hn) hi hf ih
  | item hn hi hd hl hs => exact .item (hname hn) hi hd hl (hs.imp_right fun hw => by cases hw)

/-! ## Disks with more on them -/

/-- The item without its content. -/
def bare : Item → Item
  | .file _ _ => .file .empty .nobody
  | .pipe _ => .pipe .empty
  | i => i

theorem eq_directory_of_bare (h : bare i = .directory) : i = .directory := by
  cases i <;> first | rfl | cases h

theorem eq_link_of_bare {target : String} (h : bare i = .link target) : i = .link target := by
  cases i <;> first | exact h | cases h

/-- Everything on the first disk is on the second, though files and pipes may hold something
else. -/
def Keeps (d d' : Disk) : Prop :=
  ∀ r i, d.item? r = some i → ∃ i', d'.item? r = some i' ∧ bare i' = bare i

theorem Keeps.refl (d : Disk) : d.Keeps d := fun _ i h => ⟨i, h, rfl⟩

theorem Keeps.trans {d'' : Disk} (h : d.Keeps d') (h' : d'.Keeps d'') : d.Keeps d'' := by
  intro r i hi
  obtain ⟨i', hi', he⟩ := h r i hi
  obtain ⟨i'', hi'', he'⟩ := h' r i' hi'
  exact ⟨i'', hi'', he'.trans he⟩

theorem Keeps.directory (h : d.Keeps d') (hi : d.item? r = some .directory) :
    d'.item? r = some .directory := by
  obtain ⟨i, hi', he⟩ := h r _ hi
  rw [hi', eq_directory_of_bare he]

theorem Keeps.link (h : d.Keeps d') {target : String}
    (hi : d.item? r = some (.link target)) : d'.item? r = some (.link target) := by
  obtain ⟨i, hi', he⟩ := h r _ hi
  rw [hi', eq_link_of_bare he]

/-- Where more is on the disk, a path leads to the place it led to before. -/
theorem Leads.keeps (hk : d.Keeps d')
    (h : Leads d ending links here slash segs (.found r i)) :
    Leads d' ending links here slash segs (.found r ((d'.item? r).getD .directory)) := by
  generalize hs : Spot.found r i = spot at h
  induction h with
  | arrive =>
    obtain ⟨rfl, rfl⟩ := Spot.found.inj hs
    exact .arrive
  | stay _ ih => exact .stay (ih hs)
  | climb _ ih => exact .climb (ih hs)
  | free => cases hs
  | enter hn hi _ ih => exact .enter hn (hk.directory hi) (ih hs)
  | link hn hi hf =>
    obtain ⟨rfl, rfl⟩ := Spot.found.inj hs
    rw [hk.link hi]
    exact .link hn (hk.link hi) hf
  | follow hn hi hf _ ih => exact .follow hn (hk.link hi) hf (ih hs)
  | item hn hi hd hl hsl =>
    obtain ⟨rfl, rfl⟩ := Spot.found.inj hs
    obtain ⟨i', hi', he⟩ := hk _ _ hi
    rw [hi']
    refine .item hn hi' ?_ ?_ hsl
    · rintro rfl
      exact hd (eq_directory_of_bare he.symm)
    · rintro target rfl
      exact hl target (eq_link_of_bare he.symm)

/-! ## Paths -/

variable {p : Path}

/-- The rules lead from a path to a spot. -/
def LeadsTo (d : Disk) (here : Route) (ending : Ending) (p : Path) (spot : Spot) : Prop :=
  Leads d ending linkLimit (if p.isAbsolute then [] else here) (asksDirectory p) (steps p.text) spot

theorem follow_eq_ok_iff : d.follow here ending p = .ok spot ↔
      (Text.holds (Char.ofNat 0) p.text = false ∧ p.text ≠ "") ∧ d.LeadsTo here ending p spot := by
  rw [LeadsTo, ← resolve_eq_ok_iff]
  unfold follow
  split
  · simp_all
  · split
    · simp_all
    · split
      · simp_all
      · simp_all

theorem locate_eq_ok_iff : d.locate here ending p = .ok spot ↔
      p.text.utf8ByteSize < pathLimit ∧ d.follow here ending p = .ok spot := by
  unfold locate
  split
  · rename_i h
    simp only [Bool.and_eq_true, decide_eq_true_eq] at h
    simp only [reduceCtorEq, false_iff]
    omega
  · rename_i h
    simp only [Bool.and_eq_true, Bool.not_eq_true', decide_eq_true_eq, not_and, Nat.not_le] at h
    constructor
    · intro hf
      exact ⟨h (follow_eq_ok_iff.mp hf).1.1, hf⟩
    · exact fun hf => hf.2

theorem lookup_eq_ok_iff :
    d.lookup here true p = .ok (r, i) ↔ d.locate here .target p = .ok (.found r i) := by
  unfold lookup
  rw [if_pos rfl]
  split
  · simp_all
  · simp_all
  · simp_all

/-- The route of a path is where the path leads. -/
theorem follow_of_canonical (h : d.canonical here p = .ok r) :
    ∃ i, d.follow here .target p = .ok (.found r i) := by
  unfold canonical at h
  split at h
  · cases h
  · split at h
    · cases h
    · cases h
    · cases h
    · rename_i i _ hf
      split at h
      · cases h
      · exact ⟨i, (Except.ok.inj h) ▸ hf⟩

/-- There is nothing at a vacant spot. -/
theorem item?_eq_none_of_locate {name : String}
    (h : d.locate here ending p = .ok (.vacant r name)) : d.item? (r ++ [name]) = none :=
  Leads.item_eq_none (follow_eq_ok_iff.mp (locate_eq_ok_iff.mp h).2).2

/-- What a path leads to for a file to be written is what it is found to lead to. -/
theorem locate_target_of_writing (h : d.locate here .writing p = .ok spot) :
    d.locate here .target p = .ok spot := by
  obtain ⟨hlong, hf⟩ := locate_eq_ok_iff.mp h
  obtain ⟨htext, hl⟩ := follow_eq_ok_iff.mp hf
  exact locate_eq_ok_iff.mpr ⟨hlong, follow_eq_ok_iff.mpr ⟨htext, Leads.toTarget hl⟩⟩

theorem follow_of_keeps (hk : d.Keeps d') (h : d.follow here ending p = .ok (.found r i)) :
    ∃ j, d'.follow here ending p = .ok (.found r j) := by
  obtain ⟨htext, hl⟩ := follow_eq_ok_iff.mp h
  exact ⟨_, follow_eq_ok_iff.mpr ⟨htext, Leads.keeps hk hl⟩⟩

end ClassViewer.Disk
