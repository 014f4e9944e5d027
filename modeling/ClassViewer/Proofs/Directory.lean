import Mathlib.Data.List.Induction
import ClassViewer.Decompiler
import ClassViewer.Proofs.Disk.Passage

/-!
# The directory of a file

A name that is joined to the path of a directory is a child of the directory, by its components
(`components_join_name`) and on the disk (`route_of_join_name`). The directory of a file is its path
less the last segment and the dots before it (`steps_directoryOf`), so that the name of the file
leads from there to the same file (`lookup_in_directoryOf`).
-/

namespace ClassViewer

open Disk (steps asksDirectory)

namespace Path

variable {p dir : Path} {n : String}

/-! ## Names -/

/-- A text that names an entry of a directory. -/
structure IsEntryName (n : String) : Prop where
  noSlash : '/' ∉ n.toList
  ne_empty : n ≠ ""
  ne_dot : n ≠ "."
  ne_dots : n ≠ ".."

instance : DecidablePred IsEntryName := fun n =>
  decidable_of_iff ('/' ∉ n.toList ∧ n ≠ "" ∧ n ≠ "." ∧ n ≠ "..")
    ⟨fun ⟨hslash, hempty, hdot, hdots⟩ => ⟨hslash, hempty, hdot, hdots⟩,
      fun h => ⟨h.noSlash, h.ne_empty, h.ne_dot, h.ne_dots⟩⟩

theorem isEntryName_append_classSuffix {stem : String} (h : '/' ∉ stem.toList) :
    IsEntryName (stem ++ classSuffix) := by
  have hlength : (stem ++ classSuffix).toList.length = stem.toList.length + 6 := by
    rw [String.toList_append, List.length_append]
    rfl
  have hlong : ∀ t : String, t.toList.length < 6 → stem ++ classSuffix ≠ t := by
    rintro t ht rfl
    omega
  refine ⟨?_, hlong "" (by decide), hlong "." (by decide), hlong ".." (by decide)⟩
  rw [String.toList_append, List.mem_append, not_or]
  exact ⟨h, by decide⟩

theorem IsEntryName.isAbsolute (h : IsEntryName n) : isAbsolute ⟨n⟩ = false := by
  rw [Path.isAbsolute, beq_eq_false_iff_ne]
  exact fun hc => h.noSlash (List.mem_of_head? hc)

theorem IsEntryName.steps (h : IsEntryName n) : steps n = [n] := by
  rw [Disk.steps, Text.split_eq_singleton h.noSlash]
  simp [h.ne_empty]

/-- The last component of a path is the name of an entry, if it is a name at all. -/
theorem isEntryName_of_fileName? (h : p.fileName? = some n) : IsEntryName n := by
  unfold fileName? at h
  split at h
  · rename_i name hlast
    obtain rfl := Option.some.inj h
    rcases List.mem_append.1 (List.mem_of_getLast? hlast) with hroot | hname
    · split at hroot
      · simp at hroot
      · simp at hroot
    · obtain ⟨⟨s, i⟩, hs, hseg⟩ := List.mem_map.1 hname
      obtain ⟨hmem, hsignificant⟩ := List.mem_filter.1 hs
      unfold Component.ofSegment at hseg
      split at hseg
      · cases hseg
      · split at hseg
        · cases hseg
        · rename_i hdot hdots
          obtain rfl := Component.name.inj hseg
          refine ⟨Text.not_mem_of_mem_split (List.fst_mem_of_mem_zipIdx hmem), ?_, hdot, hdots⟩
          rintro rfl
          simp [Path.isSignificant] at hsignificant
  · cases h

/-! ## Children -/

theorem significant_concat (segs : List String) (n : String) :
    (segs ++ [n]).zipIdx.filter isSignificant = segs.zipIdx.filter isSignificant ++
      if isSignificant (n, segs.length) then [(n, segs.length)] else [] := by
  rw [List.zipIdx_append, List.filter_append]
  congr 1
  simp [List.filter_cons]

theorem IsEntryName.isSignificant (h : IsEntryName n) (i : Nat) : isSignificant (n, i) = true := by
  simp [Path.isSignificant, h.ne_empty, h.ne_dot]

theorem split_join_name (h : IsEntryName n) (hdir : dir.text ≠ "") :
    ∃ front, Text.split '/' (dir.join ⟨n⟩).text = front ++ [n] ∧
      dir.segments.filter Path.isSignificant = front.zipIdx.filter Path.isSignificant := by
  unfold join
  rw [if_neg (by simp [h.isAbsolute, hdir])]
  split
  · rename_i hslash
    obtain ⟨r, hr⟩ := Text.endsWith_iff.1 hslash
    refine ⟨Text.split '/' r, ?_, ?_⟩
    · rw [hr, Text.split_slash, Text.split_eq_singleton h.noSlash]
    · have hsplit := Text.split_slash r ""
      rw [String.append_empty, ← hr] at hsplit
      rw [segments, hsplit]
      exact (significant_concat (Text.split '/' r) "").trans (List.append_nil _)
  · refine ⟨Text.split '/' dir.text, ?_, rfl⟩
    rw [Text.split_slash, Text.split_eq_singleton h.noSlash]

/-- A name that is joined to a path is one component more. -/
theorem components_join_name (h : IsEntryName n) (dir : Path) :
    (dir.join ⟨n⟩).components = dir.components ++ [.name n] := by
  have hname : Component.ofSegment n = .name n := by
    rw [Component.ofSegment, if_neg h.ne_dot, if_neg h.ne_dots]
  by_cases hdir : dir.text = ""
  · have hjoin : dir.join ⟨n⟩ = ⟨n⟩ := if_pos (.inr hdir)
    have hempty : dir = ⟨""⟩ := congrArg Path.mk hdir
    rw [hjoin, hempty, components, h.isAbsolute, segments, Text.split_eq_singleton h.noSlash]
    simp [h.isSignificant, hname]
    decide
  · obtain ⟨front, hsplit, hfront⟩ := split_join_name h hdir
    rw [components, components, isAbsolute_join h.isAbsolute, segments, hsplit, significant_concat,
      if_pos (h.isSignificant _), hfront]
    simp [hname]

/-- What a name in a directory leads to as an entry lies in that directory. -/
theorem route_of_join_name {d : Disk} {here parent r : Route} {i : Item} (h : IsEntryName n)
    (hdir : d.lookup here true dir = .ok (parent, .directory))
    (hfound : d.locate here .entry (dir.join ⟨n⟩) = .ok (.found r i)) : r = parent ++ [n] := by
  obtain ⟨left, hlead⟩ := Disk.exists_leads_of_join hdir h.isAbsolute (by simp [h.steps])
    (Disk.Extends.refl d) hfound
  rw [h.steps] at hlead
  cases hlead with
  | stay => exact absurd rfl h.ne_dot
  | climb => exact absurd rfl h.ne_dots
  | enter _ _ hrest =>
    cases hrest
    rfl
  | link => rfl
  | follow _ _ hfollows _ => exact absurd ⟨rfl, rfl⟩ hfollows
  | item => rfl

/-! ## The directory of a path -/

/-- Among segments there is a last one that counts, and only dots and empty ones follow it; or none
counts at all. -/
theorem exists_last_significant (segs : List String) :
    (segs.zipIdx.filter Path.isSignificant = [] ∧ ∀ s ∈ segs.filter (· != ""), s = ".") ∨
      ∃ before s i, segs.zipIdx.filter Path.isSignificant = before ++ [(s, i)] ∧ i < segs.length ∧
        ∀ t ∈ (segs.drop (i + 1)).filter (· != ""), t = "." := by
  induction segs using List.reverseRecOn with
  | nil => exact .inl ⟨rfl, by simp⟩
  | append_singleton segs n ih =>
    rw [significant_concat]
    by_cases hn : Path.isSignificant (n, segs.length) = true
    · exact .inr ⟨_, n, segs.length, by rw [if_pos hn], by simp, by simp⟩
    · have hdot : n ≠ "" → n = "." := by
        intro hne
        simp [Path.isSignificant, hne] at hn
        exact hn.1
      rw [if_neg hn, List.append_nil]
      rcases ih with ⟨hnone, hdots⟩ | ⟨before, s, i, hlast, hi, hdots⟩
      · refine .inl ⟨hnone, ?_⟩
        intro s hs
        rw [List.filter_append, List.mem_append] at hs
        rcases hs with hs | hs
        · exact hdots s hs
        · obtain ⟨hmem, hne⟩ := List.mem_filter.1 hs
          obtain rfl := List.mem_singleton.1 hmem
          exact hdot (by simpa using hne)
      · refine .inr ⟨before, s, i, hlast, by simp; omega, ?_⟩
        intro t ht
        rw [List.drop_append_of_le_length (by omega), List.filter_append, List.mem_append] at ht
        rcases ht with ht | ht
        · exact hdots t ht
        · obtain ⟨hmem, hne⟩ := List.mem_filter.1 ht
          obtain rfl := List.mem_singleton.1 hmem
          exact hdot (by simpa using hne)

/-- A path and the path of its last segment in the directory of it differ in dots only. -/
structure SameButDots (p q : Path) (n : String) : Prop where
  start : q.isAbsolute = p.isAbsolute
  along : ∃ front dots dots', steps p.text = front ++ (dots ++ [n]) ∧
    steps q.text = front ++ (dots' ++ [n]) ∧ (∀ s ∈ dots, s = ".") ∧ ∀ s ∈ dots', s = "."

theorem steps_directoryOf (h : IsEntryName n) (hlast : Text.afterLast '/' p.text = n) :
    SameButDots p ((directoryOf p).join ⟨n⟩) n := by
  have hsplit := Text.dropLast_concat_afterLast '/' p.text
  rw [hlast] at hsplit
  generalize (Text.split '/' p.text).dropLast = fronts at hsplit
  have hsegments : p.segments.filter Path.isSignificant =
      fronts.zipIdx.filter Path.isSignificant ++ [(n, fronts.length)] := by
    rw [segments, ← hsplit, significant_concat, if_pos (h.isSignificant _)]
  have hsteps : steps p.text = fronts.filter (· != "") ++ [n] := by
    rw [steps, ← hsplit, List.filter_append]
    simp [h.ne_empty]
  rcases exists_last_significant fronts with ⟨hnone, hdots⟩ | ⟨before, s, i, hsome, hi, hdots⟩
  · have hparent : p.parent? = some ⟨if p.isAbsolute then "/" else ""⟩ := by
      rw [parent?, hsegments, hnone]
      rfl
    cases habs : p.isAbsolute with
    | true =>
      have hdir : directoryOf p = ⟨"/"⟩ := by
        rw [directoryOf, hparent, habs]
        rfl
      have hslash : steps "/" = [] := by decide
      refine ⟨?_, [], fronts.filter (· != ""), [], hsteps, ?_, hdots, by simp⟩
      · rw [hdir, isAbsolute_join h.isAbsolute, habs]
        rfl
      · rw [hdir, steps_join h.isAbsolute, h.steps, hslash]
        rfl
    | false =>
      have hdir : directoryOf p = ⟨"."⟩ := by
        rw [directoryOf, hparent, habs]
        rfl
      have hdot : steps "." = ["."] := by decide
      refine ⟨?_, [], fronts.filter (· != ""), ["."], hsteps, ?_, hdots, by simp⟩
      · rw [hdir, isAbsolute_join h.isAbsolute, habs]
        rfl
      · rw [hdir, steps_join h.isAbsolute, h.steps, hdot]
        rfl
  · have hparent : p.parent? = some (p.upTo i) := by
      rw [parent?, hsegments, hsome]
      simp
    have hmem : (s, i) ∈ p.segments.filter Path.isSignificant := by
      rw [hsegments, hsome]
      simp
    have hne : (p.upTo i).text ≠ "" := by
      intro hempty
      refine steps_upTo_ne_nil hmem ?_
      rw [hempty]
      rfl
    have hdir : directoryOf p = p.upTo i := by
      rw [directoryOf, hparent]
      exact if_neg hne
    refine ⟨?_, (fronts.take (i + 1)).filter (· != ""), (fronts.drop (i + 1)).filter (· != ""), [],
      ?_, ?_, hdots, by simp⟩
    · rw [hdir, isAbsolute_join h.isAbsolute]
      exact (onTheWay_parent? hparent).start
    · rw [hsteps, ← List.append_assoc, ← List.filter_append, List.take_append_drop]
    · rw [hdir, steps_join h.isAbsolute, h.steps, steps_upTo, ← hsplit,
        List.take_append_of_le_length (by omega)]
      rfl

theorem asksDirectory_eq_false (hlast : Text.afterLast '/' p.text = n) (hne : n ≠ "") :
    asksDirectory p = false := by
  rw [asksDirectory, Bool.eq_false_iff]
  intro hslash
  obtain ⟨r, hr⟩ := Text.endsWith_iff.1 hslash
  have hempty := Text.afterLast_slash r ""
  rw [String.append_empty, ← hr, hlast] at hempty
  exact hne hempty

/-- Dots make no difference to where a path leads. -/
theorem SameButDots.found {q : Path} {d : Disk} {here : Route} {x y : Route × Item}
    (hsame : SameButDots p q n) (hp : asksDirectory p = false) (hq : asksDirectory q = false)
    (hx : d.lookup here true p = .ok x) (hy : d.lookup here true q = .ok y) : y = x := by
  obtain ⟨front, dots, dots', hsteps, hsteps', hdots, hdots'⟩ := hsame.along
  have hlocp := Disk.locate_eq_ok_iff.1 (Disk.lookup_eq_ok_iff.1 hx)
  have hlocq := Disk.locate_eq_ok_iff.1 (Disk.lookup_eq_ok_iff.1 hy)
  have hleadp := (Disk.follow_eq_ok_iff.1 hlocp.2).2
  have hleadq := (Disk.follow_eq_ok_iff.1 hlocq.2).2
  rw [Disk.LeadsTo, hsteps, hp, Disk.leads_append_iff (by simp)] at hleadp
  obtain ⟨left, r, hpass, hrest⟩ := hleadp
  rw [Disk.leads_dots_iff hdots, ← Disk.leads_dots_iff hdots'] at hrest
  have hleadq' := hpass.leads hrest (by simp)
  rw [Disk.LeadsTo, hsteps', hq, hsame.start] at hleadq
  have hspot := (Disk.resolve_eq_ok_iff.2 hleadq).symm.trans (Disk.resolve_eq_ok_iff.2 hleadq')
  obtain ⟨hroute, hitem⟩ := Disk.Spot.found.inj (Except.ok.inj hspot)
  exact Prod.ext hroute hitem

/-- The last segment of a path leads from the directory of it to the same place. -/
theorem lookup_in_directoryOf {d : Disk} {here : Route} {x y : Route × Item} (h : IsEntryName n)
    (hlast : Text.afterLast '/' p.text = n) (hx : d.lookup here true p = .ok x)
    (hy : d.lookup here true ((directoryOf p).join ⟨n⟩) = .ok y) : y = x := by
  refine (steps_directoryOf h hlast).found (asksDirectory_eq_false hlast h.ne_empty) ?_ hx hy
  refine asksDirectory_eq_false (n := n) ?_ h.ne_empty
  unfold join
  have hname := Text.afterLast_eq_self h.noSlash
  split
  · exact hname
  · split
    · rename_i hslash
      obtain ⟨r, hr⟩ := Text.endsWith_iff.1 hslash
      rw [hr, Text.afterLast_slash, hname]
    · rw [Text.afterLast_slash, hname]

end Path

end ClassViewer
