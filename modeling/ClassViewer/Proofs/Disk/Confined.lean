import ClassViewer.Proofs.Disk.Changes
import ClassViewer.Proofs.Path

/-!
# Changes within a directory

A disk is changed within a root if nothing but paths at or below the root is made or written
(`Confined`). Making directories on the way to a path below a root that stands is such a change,
also if it fails half-way (`confined_makeDirectoriesUpTo`) : nothing is missing on the way to the
root (`Solid`), so no directory is made there, and what is made or written later takes nothing away
(`Solid.hardens`). A directory that was made with those above it stands
(`isDirectory_of_makeDirectories`).
-/

namespace ClassViewer.Disk

open ClassViewer.Path (OnTheWay Within)

variable {d d' d'' : Disk} {ending : Ending} {links : Nat} {here r : Route} {slash : Bool}
  {segs : List String} {root p q : Path} {i : Item} {bytes : ByteArray}

/-- The second disk is what making directories and writing files within the root makes of the
first. -/
inductive Confined (root : Path) (here : Route) (d : Disk) : Disk → Prop
  | unchanged : Confined root here d d
  | directory {d' d'' : Disk} {q : Path} : Confined root here d d' → root.Within q →
      d'.makeDirectory here q = .ok d'' → Confined root here d d''
  | file {d' d'' : Disk} {q : Path} {bytes : ByteArray} : Confined root here d d' →
      root.Within q → d'.write here q bytes = .ok d'' → Confined root here d d''

theorem Confined.trans (h : Confined root here d d') (h' : Confined root here d' d'') :
    Confined root here d d'' := by
  induction h' with
  | unchanged => exact h
  | directory _ hq hm ih => exact ih.directory hq hm
  | file _ hq hw ih => exact ih.file hq hw

/-! ## What stays on a disk -/

/-- No directory and no link. -/
def IsLeaf (i : Item) : Prop := i ≠ .directory ∧ ∀ target, i ≠ .link target

/-- Nothing has gone, and only a leaf has taken the place of anything. -/
def Hardens (d d' : Disk) : Prop :=
  ∀ r i, d.item? r = some i → ∃ i', d'.item? r = some i' ∧ (i' = i ∨ IsLeaf i')

theorem Hardens.trans (h : d.Hardens d') (h' : d'.Hardens d'') : d.Hardens d'' := by
  intro r i hi
  obtain ⟨i', hi', hsame⟩ := h r i hi
  obtain ⟨i'', hi'', hsame'⟩ := h' r i' hi'
  refine ⟨i'', hi'', ?_⟩
  rcases hsame' with rfl | hleaf
  · exact hsame
  · exact .inr hleaf

theorem Extends.hardens (h : d.Extends d') : d.Hardens d' :=
  fun r i hi => ⟨i, h r i hi, .inl rfl⟩

theorem hardens_alter (d : Disk) (r : Route) (hleaf : IsLeaf i) : d.Hardens (d.alter r i) := by
  intro s j hj
  by_cases hs : s = []
  · subst hs
    exact ⟨j, hj, .inl rfl⟩
  · rw [item?_alter d r i hs]
    split
    · exact ⟨i, rfl, .inr hleaf⟩
    · exact ⟨j, hj, .inl rfl⟩

theorem hardens_write (h : d.write here p bytes = .ok d') : d.Hardens d' := by
  unfold write at h
  split at h
  · cases h
  · obtain rfl := Except.ok.inj h
    exact hardens_alter d _ ⟨by simp, by simp⟩
  · rename_i device hl
    cases hd : writeDevice device bytes with
    | error e =>
      rw [hd] at h
      cases h
    | ok _ =>
      rw [hd] at h
      obtain rfl := Except.ok.inj h
      exact (Extends.refl d).hardens
  · obtain rfl := Except.ok.inj h
    exact hardens_alter d _ ⟨by simp, by simp⟩
  · cases h
  · rename_i hl
    obtain rfl := Except.ok.inj h
    exact (extends_put (item?_eq_none_of_locate hl) _).hardens

theorem Confined.hardens (h : Confined root here d d') : d.Hardens d' := by
  induction h with
  | unchanged => exact (Extends.refl d).hardens
  | directory _ _ hm ih => exact ih.trans (extends_makeDirectory hm).hardens
  | file _ _ hw ih => exact ih.trans (hardens_write hw)

/-! ## Paths that nothing is missing on -/

/-- Whether following a path ended at something, or failed for another reason than that something is
missing. -/
def isThere : Except OsError Spot → Bool
  | .ok (.found _ _) => true
  | .ok (.vacant _ _) => false
  | .error e => e != .noEntry

theorem isThere_resolve_leaf {seg : String} {rest : List String} (hn : IsName ending slash seg rest)
    (hi : d.item? (here ++ [seg]) = some i) (hleaf : IsLeaf i) :
    isThere (d.resolve ending links here slash (seg :: rest)) = true := by
  rw [resolve, if_neg hn.ne_dot, if_neg hn.ne_dots, if_neg hn.admitted, if_neg hn.short]
  obtain ⟨hdir, hlink⟩ := hleaf
  simp only [hi]
  split <;> rfl

/-- What was there is there on a disk from which nothing has gone. -/
theorem isThere_resolve_of_hardens (hk : d.Hardens d')
    (h : isThere (d.resolve ending links here slash segs) = true) :
    isThere (d'.resolve ending links here slash segs) = true := by
  fun_induction d.resolve ending links here slash segs with
  | case1 links here slash => rw [resolve]; rfl
  | case2 links here slash rest ih =>
    rw [resolve, if_pos rfl]
    exact ih h
  | case3 links here slash rest _ ih =>
    rw [resolve, if_neg (by decide), if_pos rfl]
    exact ih h
  | case4 links here slash seg rest h1 h2 h3 =>
    rw [resolve, if_neg h1, if_neg h2, if_pos h3]
    rfl
  | case5 links here slash seg rest h1 h2 h3 h4 =>
    rw [resolve, if_neg h1, if_neg h2, if_neg h3, if_pos h4]
    rfl
  | case6 => cases h
  | case7 => cases h
  | case8 links here slash seg rest h1 h2 h3 h4 place hi ih =>
    obtain ⟨i', hi', rfl | hleaf⟩ := hk (here ++ [seg]) _ hi
    · rw [resolve, if_neg h1, if_neg h2, if_neg h3, if_neg h4]
      simp only [hi']
      exact ih h
    · exact isThere_resolve_leaf ⟨h1, h2, h3, h4⟩ hi' hleaf
  | case9 links here slash seg rest h1 h2 h3 h4 place target hi hf =>
    obtain ⟨i', hi', rfl | hleaf⟩ := hk (here ++ [seg]) _ hi
    · rw [resolve, if_neg h1, if_neg h2, if_neg h3, if_neg h4]
      simp only [hi', if_pos hf]
      rfl
    · exact isThere_resolve_leaf ⟨h1, h2, h3, h4⟩ hi' hleaf
  | case10 here slash seg rest h1 h2 h3 h4 place target hi hf =>
    obtain ⟨i', hi', rfl | hleaf⟩ := hk (here ++ [seg]) _ hi
    · rw [resolve, if_neg h1, if_neg h2, if_neg h3, if_neg h4]
      simp only [hi', if_neg hf]
      rfl
    · exact isThere_resolve_leaf ⟨h1, h2, h3, h4⟩ hi' hleaf
  | case11 here slash seg rest h1 h2 h3 h4 place target hi hf more ih =>
    obtain ⟨i', hi', rfl | hleaf⟩ := hk (here ++ [seg]) _ hi
    · rw [resolve, if_neg h1, if_neg h2, if_neg h3, if_neg h4]
      simp only [hi', if_neg hf]
      simpa using ih h
    · exact isThere_resolve_leaf ⟨h1, h2, h3, h4⟩ hi' hleaf
  | case12 links here slash seg rest h1 h2 h3 h4 place i hd hl hi hs =>
    obtain ⟨i', hi', rfl | hleaf⟩ := hk _ _ hi
    · exact isThere_resolve_leaf ⟨h1, h2, h3, h4⟩ hi' ⟨hd, hl⟩
    · exact isThere_resolve_leaf ⟨h1, h2, h3, h4⟩ hi' hleaf
  | case13 links here slash seg rest h1 h2 h3 h4 place i hd hl hi hs =>
    obtain ⟨i', hi', rfl | hleaf⟩ := hk _ _ hi
    · exact isThere_resolve_leaf ⟨h1, h2, h3, h4⟩ hi' ⟨hd, hl⟩
    · exact isThere_resolve_leaf ⟨h1, h2, h3, h4⟩ hi' hleaf

/-- On the way to a directory there is something at every step. -/
theorem Leads.entry_of_isPrefix (h : Leads d ending links here slash segs (.found r .directory))
    {front : List String} (hfront : front <+: segs) (slash' : Bool) :
    ∃ r' i', Leads d .entry links here slash' front (.found r' i') := by
  have hname : ∀ {slash slash' seg rest rest'}, IsName ending slash seg rest →
      IsName .entry slash' seg rest' :=
    fun hn => ⟨hn.ne_dot, hn.ne_dots, by simp, hn.short⟩
  generalize hs : Spot.found r Item.directory = spot at h
  induction h generalizing front slash' with
  | arrive =>
    obtain rfl := List.prefix_nil.1 hfront
    exact ⟨_, _, .arrive⟩
  | stay _ ih =>
    rcases List.prefix_cons_iff.1 hfront with rfl | ⟨front, rfl, hrest⟩
    · exact ⟨_, _, .arrive⟩
    · obtain ⟨r', i', hl⟩ := ih hrest slash' hs
      exact ⟨r', i', .stay hl⟩
  | climb _ ih =>
    rcases List.prefix_cons_iff.1 hfront with rfl | ⟨front, rfl, hrest⟩
    · exact ⟨_, _, .arrive⟩
    · obtain ⟨r', i', hl⟩ := ih hrest slash' hs
      exact ⟨r', i', .climb hl⟩
  | free => cases hs
  | enter hn hi _ ih =>
    rcases List.prefix_cons_iff.1 hfront with rfl | ⟨front, rfl, hrest⟩
    · exact ⟨_, _, .arrive⟩
    · obtain ⟨r', i', hl⟩ := ih hrest slash' hs
      exact ⟨r', i', .enter (hname hn) hi hl⟩
  | link => cases hs
  | follow hn hi _ _ ih =>
    rcases List.prefix_cons_iff.1 hfront with rfl | ⟨front, rfl, hrest⟩
    · exact ⟨_, _, .arrive⟩
    · by_cases hend : front = []
      · subst hend
        exact ⟨_, _, .link (hname hn) hi rfl⟩
      · obtain ⟨r', i', hl⟩ := ih ((List.prefix_append_right_inj _).2 hrest) _ hs
        exact ⟨r', i', .follow (hname hn) hi (fun hc => hend hc.1) hl⟩
  | item _ _ hd => exact absurd (Spot.found.inj hs).2.symm hd

/-! ## Roots that stand -/

/-- Nothing is missing on the way to a path, its end aside. -/
def Solid (d : Disk) (here : Route) (root : Path) : Prop :=
  ∀ q : Path, q.OnTheWay root → ¬root.Within q → isThere (d.resolve .entry linkLimit
    (if q.isAbsolute then [] else here) (asksDirectory q) (steps q.text)) = true

theorem solid_of_isDirectory (h : d.isDirectory here root = true) : d.Solid here root := by
  intro q hq _
  unfold isDirectory at h
  split at h
  · rename_i r hl
    have hlead := (follow_eq_ok_iff.mp (locate_eq_ok_iff.mp (lookup_eq_ok_iff.mp hl)).2).2
    rw [LeadsTo, ← hq.start] at hlead
    obtain ⟨r', i', hfound⟩ := hlead.entry_of_isPrefix hq.along (asksDirectory q)
    rw [resolve_eq_ok_iff.mpr hfound]
    rfl
  · cases h

theorem Solid.hardens (h : d.Solid here root) (hk : d.Hardens d') : d'.Solid here root :=
  fun q hq hout => isThere_resolve_of_hardens hk (h q hq hout)

/-- A directory on the way to such a path cannot be made, and not because another is missing. -/
theorem Solid.makeDirectory (h : d.Solid here root) (hq : q.OnTheWay root)
    (hout : ¬root.Within q) (hne : q.text ≠ "") :
    ∃ e, d.makeDirectory here q = .error e ∧ e.isNotFound = false := by
  have hthere := h q hq hout
  unfold Disk.makeDirectory
  cases hl : d.locate here .entry q with
  | ok spot =>
    have hlead := (follow_eq_ok_iff.mp (locate_eq_ok_iff.mp hl).2).2
    rw [resolve_eq_ok_iff.mpr hlead] at hthere
    cases spot with
    | vacant r name => cases hthere
    | found r i => exact ⟨_, rfl, rfl⟩
  | error e =>
    refine ⟨e, rfl, ?_⟩
    unfold locate at hl
    split at hl
    · obtain rfl := Except.error.inj hl
      rfl
    · unfold follow at hl
      split at hl
      · obtain rfl := Except.error.inj hl
        rfl
      · split at hl
        · cases hl
        · rename_i e' hr
          obtain rfl := Except.error.inj hl
          rw [hr] at hthere
          cases e' <;> first | rfl | cases hthere

/-- Directories made on the way to a path below such a root are made within it. -/
theorem confined_makeDirectoriesUpTo {inner : Path} (hs : d.Solid here root)
    (hrel : inner.isAbsolute = false) (hdots : ".." ∉ steps inner.text) (fuel : Nat)
    (hq : q.OnTheWay (root.join inner)) :
    Confined root here d (d.makeDirectoriesUpTo here fuel q).2 := by
  induction fuel generalizing q with
  | zero => exact .unchanged
  | succ fuel ih =>
    unfold makeDirectoriesUpTo
    by_cases hempty : q.text = ""
    · rw [if_pos hempty]
      exact .unchanged
    · rw [if_neg hempty]
      rcases Classical.em (root.Within q) with hwithin | hout
      · cases hm : d.makeDirectory here q with
        | ok d' => exact Confined.unchanged.directory hwithin hm
        | error e =>
          simp only
          split
          · cases hp : q.parent? with
            | none => exact .unchanged
            | some above =>
              have hup := ih ((Path.onTheWay_parent? hp).trans hq)
              simp only
              rcases hmade : d.makeDirectoriesUpTo here fuel above with ⟨_ | _, d'⟩
              · rw [hmade] at hup
                exact hup
              · rw [hmade] at hup
                simp only
                cases hm' : d'.makeDirectory here q with
                | ok d'' => exact hup.directory hwithin hm'
                | error e' => exact hup
          · exact .unchanged
      · have habove := (hq.above_or_within hrel hdots).resolve_right hout
        obtain ⟨e, hm, hfound⟩ := hs.makeDirectory habove hout hempty
        simp only [hm, hfound]
        exact .unchanged

/-! ## Directories that stand once they are made -/

theorem Leads.found_of_vacant {name : String}
    (h : Leads d .entry links here slash segs (.vacant r name)) (hx : d.Extends d')
    (hi : d'.item? (r ++ [name]) = some .directory) :
    Leads d' .target links here slash segs (.found (r ++ [name]) .directory) := by
  have hname : ∀ {slash seg rest}, IsName .entry slash seg rest → IsName .target slash seg rest :=
    fun hn => ⟨hn.ne_dot, hn.ne_dots, by simp, hn.short⟩
  generalize hs : Spot.vacant r name = spot at h
  induction h with
  | arrive => cases hs
  | stay _ ih => exact .stay (ih hs)
  | climb _ ih => exact .climb (ih hs)
  | free hn _ _ =>
    obtain ⟨rfl, rfl⟩ := Spot.vacant.inj hs
    have hfound : Spot.found (r ++ [name]) .directory =
        .found (r ++ [name]) ((d'.item? (r ++ [name])).getD .directory) := by rw [hi]; rfl
    rw [hfound]
    exact .enter (hname hn) hi .arrive
  | enter hn hd _ ih => exact .enter (hname hn) (hx _ _ hd) (ih hs)
  | link => cases hs
  | follow hn hl _ _ ih => exact .follow (hname hn) (hx _ _ hl) (by simp [Ending.follows]) (ih hs)
  | item => cases hs

theorem isDirectory_of_makeDirectory (h : d.makeDirectory here p = .ok d') :
    d'.isDirectory here p = true := by
  have hx := extends_makeDirectory h
  unfold makeDirectory at h
  split at h
  · cases h
  · cases h
  · rename_i r name hl
    obtain ⟨hshort, hf⟩ := locate_eq_ok_iff.mp hl
    obtain ⟨htext, hlead⟩ := follow_eq_ok_iff.mp hf
    obtain rfl := Except.ok.inj h
    have hi : (d.put (r ++ [name]) .directory).item? (r ++ [name]) = some .directory := by
      rw [item?_put d _ _ (by simp), if_pos rfl]
    have hfound := locate_eq_ok_iff.mpr ⟨hshort, follow_eq_ok_iff.mpr
      ⟨htext, Leads.found_of_vacant hlead hx hi⟩⟩
    rw [isDirectory, lookup_eq_ok_iff.mpr hfound]

theorem isDirectory_of_makeDirectories (hne : p.text ≠ "")
    (h : d.makeDirectories here p = (.ok (), d')) : d'.isDirectory here p = true := by
  unfold makeDirectories makeDirectoriesUpTo at h
  rw [if_neg hne] at h
  have hchecked : ∀ {e : IoError} {d₁ : Disk},
      (if d₁.isDirectory here p then .ok () else .error e, d₁) =
        ((.ok () : Except IoError Unit), d') → d'.isDirectory here p = true := by
    intro e d₁ hc
    obtain ⟨ho, rfl⟩ := Prod.mk.inj hc
    split at ho
    · assumption
    · cases ho
  split at h
  · rename_i hm
    obtain ⟨-, rfl⟩ := Prod.mk.inj h
    exact isDirectory_of_makeDirectory hm
  · split at h
    · split at h
      · cases h
      · split at h
        · cases h
        · split at h
          · rename_i hm
            obtain ⟨-, rfl⟩ := Prod.mk.inj h
            exact isDirectory_of_makeDirectory hm
          · exact hchecked h
    · exact hchecked h

end ClassViewer.Disk
