import ClassViewer.Proofs.Disk.Changes
import ClassViewer.Proofs.Path

/-!
# Passing through directories

Where a path goes on, its first segments lead to a directory, and the others from there
(`leads_append_iff`). There is one such directory (`Passes.unique`), it is the one the first
segments lead to as a path of their own (`passes_of_leads`), and it is the same where more is on the
disk (`Passes.extends`). So a path that was joined to that of a directory goes on from the directory
(`exists_leads_of_join`), and dots on the way make no difference (`leads_dots_iff`).
-/

namespace ClassViewer.Disk

/-- A segment with others behind it is looked up as a name. -/
structure IsInner (seg : String) : Prop where
  ne_dot : seg ≠ "."
  ne_dots : seg ≠ ".."
  short : ¬nameLimit < seg.utf8ByteSize

/-- The segments lead from a directory to another, with so many links left to follow. -/
inductive Passes (d : Disk) : Nat → Route → List String → Nat → Route → Prop
  | done {links here} : Passes d links here [] links here
  | stay {links here rest left r} : Passes d links here rest left r →
      Passes d links here ("." :: rest) left r
  | climb {links here rest left r} : Passes d links here.dropLast rest left r →
      Passes d links here (".." :: rest) left r
  | enter {links here seg rest left r} : IsInner seg →
      d.item? (here ++ [seg]) = some .directory → Passes d links (here ++ [seg]) rest left r →
      Passes d links here (seg :: rest) left r
  | follow {links here seg rest target left r} : IsInner seg →
      d.item? (here ++ [seg]) = some (.link target) →
      Passes d links (if (Path.mk target).isAbsolute then [] else here) (steps target ++ rest)
        left r →
      Passes d (links + 1) here (seg :: rest) left r

variable {d d' : Disk} {ending : Ending} {links left left' : Nat} {here r r' : Route}
  {slash : Bool} {front rest segs : List String} {seg : String} {spot : Spot} {i : Item}

theorem IsName.isInner (h : IsName ending slash seg rest) : IsInner seg :=
  ⟨h.ne_dot, h.ne_dots, h.short⟩

theorem IsInner.isName (h : IsInner seg) (hrest : rest ≠ []) : IsName ending slash seg rest :=
  ⟨h.ne_dot, h.ne_dots, fun hc => hrest hc.1, h.short⟩

theorem Passes.leads (h : Passes d links here front left r)
    (hl : Leads d ending left r slash rest spot) (hrest : rest ≠ []) :
    Leads d ending links here slash (front ++ rest) spot := by
  induction h with
  | done => exact hl
  | stay _ ih => exact .stay (ih hl)
  | climb _ ih => exact .climb (ih hl)
  | enter hn hi _ ih => exact .enter (hn.isName (by simp [hrest])) hi (ih hl)
  | follow hn hi _ ih =>
    refine .follow (hn.isName (by simp [hrest])) hi (by simp [hrest]) ?_
    have hgoes := ih hl
    rw [List.append_assoc] at hgoes
    simpa [hrest] using hgoes

theorem Leads.exists_passes (h : Leads d ending links here slash segs spot)
    (hsegs : segs = front ++ rest) (hrest : rest ≠ []) :
    ∃ left r, Passes d links here front left r ∧ Leads d ending left r slash rest spot := by
  induction h generalizing front with
  | arrive => exact absurd (List.append_eq_nil_iff.1 hsegs.symm).2 hrest
  | @stay links here slash segs spot hl ih =>
    rcases List.append_eq_cons_iff.1 hsegs.symm with ⟨rfl, rfl⟩ | ⟨front, rfl, hs⟩
    · exact ⟨_, _, .done, .stay hl⟩
    · obtain ⟨left, r, hp, hl'⟩ := ih hs
      exact ⟨left, r, .stay hp, hl'⟩
  | @climb links here slash segs spot hl ih =>
    rcases List.append_eq_cons_iff.1 hsegs.symm with ⟨rfl, rfl⟩ | ⟨front, rfl, hs⟩
    · exact ⟨_, _, .done, .climb hl⟩
    · obtain ⟨left, r, hp, hl'⟩ := ih hs
      exact ⟨left, r, .climb hp, hl'⟩
  | free hn hi ht =>
    rcases List.append_eq_cons_iff.1 hsegs.symm with ⟨rfl, rfl⟩ | ⟨front, rfl, hs⟩
    · exact ⟨_, _, .done, .free hn hi ht⟩
    · exact absurd (List.append_eq_nil_iff.1 hs.symm).2 hrest
  | @enter links here slash seg segs spot hn hi hl ih =>
    rcases List.append_eq_cons_iff.1 hsegs.symm with ⟨rfl, rfl⟩ | ⟨front, rfl, hs⟩
    · exact ⟨_, _, .done, .enter hn hi hl⟩
    · obtain ⟨left, r, hp, hl'⟩ := ih hs
      exact ⟨left, r, .enter hn.isInner hi hp, hl'⟩
  | link hn hi hf =>
    rcases List.append_eq_cons_iff.1 hsegs.symm with ⟨rfl, rfl⟩ | ⟨front, rfl, hs⟩
    · exact ⟨_, _, .done, .link hn hi hf⟩
    · exact absurd (List.append_eq_nil_iff.1 hs.symm).2 hrest
  | @follow links here slash seg segs target spot hn hi hf hl ih =>
    rcases List.append_eq_cons_iff.1 hsegs.symm with ⟨rfl, rfl⟩ | ⟨front, rfl, rfl⟩
    · exact ⟨_, _, .done, .follow hn hi hf hl⟩
    · have hslash : (slash || (decide (front ++ rest = []) && asksDirectory ⟨target⟩)) = slash := by
        simp [hrest]
      obtain ⟨left, r, hp, hl'⟩ := ih (List.append_assoc ..).symm
      rw [hslash] at hl'
      exact ⟨left, r, .follow hn.isInner hi hp, hl'⟩
  | item hn hi hd hlink hs' =>
    rcases List.append_eq_cons_iff.1 hsegs.symm with ⟨rfl, rfl⟩ | ⟨front, rfl, hs⟩
    · exact ⟨_, _, .done, .item hn hi hd hlink hs'⟩
    · exact absurd (List.append_eq_nil_iff.1 hs.symm).2 hrest

/-- A path leads through its first segments to a directory, and through the others from there. -/
theorem leads_append_iff (hrest : rest ≠ []) :
    Leads d ending links here slash (front ++ rest) spot ↔
      ∃ left r, Passes d links here front left r ∧ Leads d ending left r slash rest spot :=
  ⟨fun h => h.exists_passes rfl hrest, fun ⟨_, _, hp, hl⟩ => hp.leads hl hrest⟩

/-- What passing one segment comes to. -/
theorem Passes.of_cons (h : Passes d links here (seg :: rest) left r) :
    (seg = "." ∧ Passes d links here rest left r) ∨
    (seg = ".." ∧ Passes d links here.dropLast rest left r) ∨
    (IsInner seg ∧ d.item? (here ++ [seg]) = some .directory ∧
      Passes d links (here ++ [seg]) rest left r) ∨
    (IsInner seg ∧ ∃ target more, links = more + 1 ∧ d.item? (here ++ [seg]) = some (.link target) ∧
      Passes d more (if (Path.mk target).isAbsolute then [] else here) (steps target ++ rest)
        left r) := by
  cases h with
  | stay h => exact .inl ⟨rfl, h⟩
  | climb h => exact .inr (.inl ⟨rfl, h⟩)
  | enter hn hi h => exact .inr (.inr (.inl ⟨hn, hi, h⟩))
  | follow hn hi h => exact .inr (.inr (.inr ⟨hn, _, _, rfl, hi, h⟩))

theorem Passes.unique (h : Passes d links here segs left r)
    (h' : Passes d links here segs left' r') : left = left' ∧ r = r' := by
  induction h with
  | done =>
    cases h'
    exact ⟨rfl, rfl⟩
  | stay _ ih =>
    obtain ⟨-, h'⟩ | ⟨hs, -⟩ | ⟨hn, -⟩ | ⟨hn, -⟩ := h'.of_cons
    · exact ih h'
    · exact absurd hs (by decide)
    · exact absurd rfl hn.ne_dot
    · exact absurd rfl hn.ne_dot
  | climb _ ih =>
    obtain ⟨hs, -⟩ | ⟨-, h'⟩ | ⟨hn, -⟩ | ⟨hn, -⟩ := h'.of_cons
    · exact absurd hs (by decide)
    · exact ih h'
    · exact absurd rfl hn.ne_dots
    · exact absurd rfl hn.ne_dots
  | enter hn hi _ ih =>
    obtain ⟨hs, -⟩ | ⟨hs, -⟩ | ⟨-, -, h'⟩ | ⟨-, _, _, -, hi', -⟩ := h'.of_cons
    · exact absurd hs hn.ne_dot
    · exact absurd hs hn.ne_dots
    · exact ih h'
    · simp [hi] at hi'
  | follow hn hi _ ih =>
    obtain ⟨hs, -⟩ | ⟨hs, -⟩ | ⟨-, hi', -⟩ | ⟨-, target, more, hmore, hi', h'⟩ := h'.of_cons
    · exact absurd hs hn.ne_dot
    · exact absurd hs hn.ne_dots
    · simp [hi] at hi'
    · obtain rfl := Nat.succ.inj hmore
      obtain rfl := Item.link.inj (Option.some.inj (hi.symm.trans hi'))
      exact ih h'

/-- A directory that a path leads to is passed where the path goes on. -/
theorem passes_of_leads (h : Leads d .target links here slash segs (.found r .directory)) :
    ∃ left, Passes d links here segs left r := by
  generalize hs : Spot.found r Item.directory = spot at h
  induction h with
  | arrive =>
    obtain ⟨rfl, -⟩ := Spot.found.inj hs
    exact ⟨_, .done⟩
  | stay _ ih =>
    obtain ⟨left, hp⟩ := ih hs
    exact ⟨left, .stay hp⟩
  | climb _ ih =>
    obtain ⟨left, hp⟩ := ih hs
    exact ⟨left, .climb hp⟩
  | free => cases hs
  | enter hn hi _ ih =>
    obtain ⟨left, hp⟩ := ih hs
    exact ⟨left, .enter hn.isInner hi hp⟩
  | link => cases hs
  | follow hn hi _ _ ih =>
    obtain ⟨left, hp⟩ := ih hs
    exact ⟨left, .follow hn.isInner hi hp⟩
  | item _ _ hd => exact absurd (Spot.found.inj hs).2.symm hd

theorem Passes.extends (h : Passes d links here segs left r) (hx : d.Extends d') :
    Passes d' links here segs left r := by
  induction h with
  | done => exact .done
  | stay _ ih => exact .stay ih
  | climb _ ih => exact .climb ih
  | enter hn hi _ ih => exact .enter hn (hx _ _ hi) ih
  | follow hn hi _ ih => exact .follow hn (hx _ _ hi) ih

/-! ## Dots on the way -/

theorem leads_dot_iff : Leads d ending links here slash ("." :: rest) spot ↔
    Leads d ending links here slash rest spot := by
  refine ⟨fun h => ?_, .stay⟩
  generalize hs : "." = seg at h
  cases h with
  | stay h => exact h
  | climb => exact absurd hs (by decide)
  | free hn => exact absurd hs.symm hn.ne_dot
  | enter hn => exact absurd hs.symm hn.ne_dot
  | link hn => exact absurd hs.symm hn.ne_dot
  | follow hn => exact absurd hs.symm hn.ne_dot
  | item hn => exact absurd hs.symm hn.ne_dot

theorem leads_dots_iff {dots : List String} (hdots : ∀ s ∈ dots, s = ".") :
    Leads d ending links here slash (dots ++ rest) spot ↔
      Leads d ending links here slash rest spot := by
  induction dots with
  | nil => rfl
  | cons s dots ih =>
    obtain ⟨rfl, hrest⟩ := List.forall_mem_cons.1 hdots
    rw [List.cons_append, leads_dot_iff, ih hrest]

/-! ## Paths that are joined -/

/-- A path that was joined to that of a directory goes on from the directory. -/
theorem exists_leads_of_join {root inner : Path}
    (hroot : d.lookup here true root = .ok (r, .directory)) (hrel : inner.isAbsolute = false)
    (hne : steps inner.text ≠ []) (hx : d.Extends d')
    (h : d'.locate here ending (root.join inner) = .ok spot) :
    ∃ left, Leads d' ending left r (asksDirectory (root.join inner)) (steps inner.text) spot := by
  have hlead := (follow_eq_ok_iff.1 (locate_eq_ok_iff.1 (lookup_eq_ok_iff.1 hroot)).2).2
  obtain ⟨left, hpass⟩ := passes_of_leads hlead
  have hgoes := (follow_eq_ok_iff.1 (locate_eq_ok_iff.1 h).2).2
  rw [LeadsTo, Path.steps_join hrel, Path.isAbsolute_join hrel, leads_append_iff hne] at hgoes
  obtain ⟨left', r', hpass', hrest⟩ := hgoes
  obtain ⟨rfl, rfl⟩ := (hpass.extends hx).unique hpass'
  exact ⟨left, hrest⟩

end ClassViewer.Disk
