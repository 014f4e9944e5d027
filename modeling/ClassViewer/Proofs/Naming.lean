import ClassViewer.Naming
import ClassViewer.Proofs.ClassId
import ClassViewer.Proofs.Path

/-!
# Names behind build-output directories

A loose class file is named by the text of its path. `FollowsMarker` says what follows the first
build-output directory of a path, and the name is made of its segments; a path that nothing follows
such a directory in is named by its last segment (`isNamedBy_nameOfPath`). What stands in front of a
path does not count unless it has such a directory of its own (`nameOfPath_behind`), and an archive
member is named by its entry, whatever directories that leads through (`className_archived`).
`names_follow_first_marker` states all of this.
-/

namespace ClassViewer.Location

open Disk (steps)

/-! ## Segments behind a marker -/

theorem not_mem_of_marker {m : String} (hm : m ∈ outputMarkers) : '/' ∉ m.toList := by
  have hall : ∀ m ∈ outputMarkers, '/' ∉ m.toList := by decide
  exact hall m hm

theorem empty_not_mem_outputMarkers : "" ∉ outputMarkers := by decide

/-- Segments in front are passed over as long as none of them is a marker. -/
theorem segmentsAfterMarker_append {front : List String} (h : ∀ s ∈ front, s ∉ outputMarkers)
    (segs : List String) : segmentsAfterMarker (front ++ segs) = segmentsAfterMarker segs := by
  induction front with
  | nil => rfl
  | cons s front ih =>
    rw [List.cons_append, segmentsAfterMarker, if_neg fun hc => h s List.mem_cons_self hc.1]
    exact ih fun t ht => h t (List.mem_cons_of_mem s ht)

theorem segmentsAfterMarker_of_not_mem {segs : List String} (h : ∀ s ∈ segs, s ∉ outputMarkers) :
    segmentsAfterMarker segs = none := by
  rw [← List.append_nil segs, segmentsAfterMarker_append h]
  rfl

theorem segmentsAfterMarker_marker {m : String} (hm : m ∈ outputMarkers) {rest : List String}
    (hrest : rest.filter (· != "") ≠ []) :
    segmentsAfterMarker (m :: rest) = some (rest.filter (· != "")) := by
  obtain ⟨s, hs⟩ := List.exists_mem_of_ne_nil _ hrest
  rw [segmentsAfterMarker, if_pos ⟨hm, List.any_eq_true.2 ⟨s, List.mem_filter.1 hs⟩⟩]

/-- What is found stands behind the first marker of all. -/
theorem exists_of_segmentsAfterMarker {segs named : List String}
    (h : segmentsAfterMarker segs = some named) : ∃ front m rest, segs = front ++ m :: rest ∧
      m ∈ outputMarkers ∧ (∀ s ∈ front, s ∉ outputMarkers) ∧ named = rest.filter (· != "") ∧
      named ≠ [] := by
  induction segs with
  | nil => simp [segmentsAfterMarker] at h
  | cons s segs ih =>
    unfold segmentsAfterMarker at h
    split at h
    · rename_i hs
      obtain rfl := Option.some.inj h
      obtain ⟨t, ht, hne⟩ := List.any_eq_true.1 hs.2
      exact ⟨[], s, segs, rfl, hs.1, by simp, rfl,
        List.ne_nil_of_mem (List.mem_filter.2 ⟨ht, hne⟩)⟩
    · rename_i hs
      by_cases hm : s ∈ outputMarkers
      · -- only empty segments follow this marker, and none of them is one
        have hempty : ∀ t ∈ segs, t ∉ outputMarkers := by
          intro t ht hmem
          refine hs ⟨hm, List.any_eq_true.2 ⟨t, ht, ?_⟩⟩
          rw [bne_iff_ne]
          rintro rfl
          exact empty_not_mem_outputMarkers hmem
        rw [segmentsAfterMarker_of_not_mem hempty] at h
        cases h
      · obtain ⟨front, m, rest, rfl, hmark, hfront, hnamed⟩ := ih h
        exact ⟨s :: front, m, rest, rfl, hmark, List.forall_mem_cons.2 ⟨hm, hfront⟩, hnamed⟩

/-! ## Paths with a marker -/

/-- `post` is what follows the first marker of a path, and something is in it. -/
structure FollowsMarker (path post : String) : Prop where
  cut : ∃ m ∈ outputMarkers, path = m ++ "/" ++ post ∨
    ∃ pre, path = pre ++ "/" ++ m ++ "/" ++ post ∧ ∀ s ∈ Text.split '/' pre, s ∉ outputMarkers
  filled : steps post ≠ []

variable {path post : String}

theorem FollowsMarker.exists_split (h : FollowsMarker path post) :
    ∃ front m, Text.split '/' path = front ++ m :: Text.split '/' post ∧ m ∈ outputMarkers ∧
      ∀ s ∈ front, s ∉ outputMarkers := by
  obtain ⟨m, hm, rfl | ⟨pre, rfl, hpre⟩⟩ := h.cut
  · refine ⟨[], m, ?_, hm, by simp⟩
    rw [Text.split_slash, Text.split_eq_singleton (not_mem_of_marker hm)]
    rfl
  · refine ⟨Text.split '/' pre, m, ?_, hm, hpre⟩
    rw [Text.split_slash, Text.split_slash, Text.split_eq_singleton (not_mem_of_marker hm),
      List.append_assoc]
    rfl

theorem FollowsMarker.segmentsAfterMarker_split (h : FollowsMarker path post) :
    segmentsAfterMarker (Text.split '/' path) = some (steps post) := by
  obtain ⟨front, m, hsplit, hm, hfront⟩ := h.exists_split
  rw [hsplit, segmentsAfterMarker_append hfront, segmentsAfterMarker_marker hm h.filled]
  rfl

theorem head?_join_steps (t : String) : (Text.join "/" (steps t)).toList.head? ≠ some '/' := by
  cases hs : steps t with
  | nil => exact nofun
  | cons a rest =>
    have hmem : a ∈ steps t := by
      rw [hs]
      exact List.mem_cons_self
    obtain ⟨hsplit, hne⟩ := List.mem_filter.1 hmem
    have hslash := Text.not_mem_of_mem_split hsplit
    cases ha : a.toList with
    | nil => simp [String.toList_eq_nil_iff.1 ha] at hne
    | cons c cs =>
      have hc : c ≠ '/' := by
        rintro rfl
        exact hslash (by rw [ha]; exact List.mem_cons_self)
      cases rest with
      | nil => simpa [Text.join, ha] using hc
      | cons b rest => simpa [Text.join_cons_cons, ha] using hc

/-- A path with a marker among its segments is cut there. -/
theorem followsMarker_of_split {front rest : List String} {m : String}
    (hsplit : Text.split '/' path = front ++ m :: rest) (hm : m ∈ outputMarkers)
    (hfront : ∀ s ∈ front, s ∉ outputMarkers) (hrest : rest.filter (· != "") ≠ []) :
    FollowsMarker path (Text.join "/" rest) ∧ Text.split '/' (Text.join "/" rest) = rest := by
  have hne : rest ≠ [] := fun hnil => hrest (by rw [hnil]; rfl)
  have hslash : ∀ s ∈ front ++ m :: rest, '/' ∉ s.toList := fun s hs =>
    Text.not_mem_of_mem_split (hsplit ▸ hs)
  have hback : Text.split '/' (Text.join "/" rest) = rest :=
    Text.split_join hne fun s hs => hslash s (by simp [hs])
  have hpath : path = Text.join "/" (front ++ m :: rest) := by
    rw [← hsplit]
    exact (Text.join_split '/' path).symm
  obtain ⟨r, rs, rfl⟩ := List.exists_cons_of_ne_nil hne
  refine ⟨⟨⟨m, hm, ?_⟩, by rwa [steps, hback]⟩, hback⟩
  by_cases hnil : front = []
  · subst hnil
    exact .inl (hpath.trans (Text.join_cons_cons ..))
  · refine .inr ⟨Text.join "/" front, ?_, ?_⟩
    · rw [hpath, Text.join_append hnil (by simp), Text.join_cons_cons]
      simp only [String.append_assoc]
    · have hpre : Text.split '/' (Text.join "/" front) = front :=
        Text.split_join hnil fun s hs => hslash s (by simp [hs])
      rwa [hpre]

/-! ## Names by paths -/

/-- A class is named by a path : by what follows the first marker, if anything does, and else by the
last segment. -/
structure IsNamedBy (id : ClassId) (path : String) : Prop where
  marked : ∀ post, FollowsMarker path post → id = ClassId.ofName (Text.join "/" (steps post))
  bare : (∀ post, ¬FollowsMarker path post) → id = ClassId.ofName (Text.afterLast '/' path)

theorem segmentsAfterMarker_of_length_le {segs : List String} (h : segs.length ≤ 1) :
    segmentsAfterMarker segs = none := by
  cases hn : segmentsAfterMarker segs with
  | none => rfl
  | some named =>
    obtain ⟨front, m, rest, rfl, -, -, rfl, hne⟩ := exists_of_segmentsAfterMarker hn
    have hrest : rest ≠ [] := fun hnil => hne (by rw [hnil]; rfl)
    have hlength := List.length_pos_iff.2 hrest
    rw [List.length_append, List.length_cons] at h
    omega

/-- A path of one segment needs no case of its own. -/
theorem nameOfPath_eq (path : String) : nameOfPath path =
    match segmentsAfterMarker (Text.split '/' path) with
    | some named => ClassId.ofName (Text.join "/" named)
    | none => ClassId.ofName (Text.afterLast '/' path) := by
  unfold nameOfPath
  dsimp only
  cases hnamed : segmentsAfterMarker (Text.split '/' path) with
  | none => rw [ite_self]
  | some named =>
    have hlong : ¬(Text.split '/' path).length ≤ 1 := by
      intro hone
      rw [segmentsAfterMarker_of_length_le hone] at hnamed
      cases hnamed
    rw [if_neg hlong]

theorem isNamedBy_nameOfPath (path : String) : IsNamedBy (nameOfPath path) path where
  marked post h := by
    rw [nameOfPath_eq, h.segmentsAfterMarker_split]
  bare h := by
    rw [nameOfPath_eq]
    split
    · rename_i named hnamed
      obtain ⟨front, m, rest, hsplit, hm, hfront, rfl, hne⟩ := exists_of_segmentsAfterMarker hnamed
      exact absurd (followsMarker_of_split hsplit hm hfront hne).1 (h _)
    · rfl

/-- What stands in front of a path does not count if it has no marker. -/
theorem nameOfPath_behind {front : String} (h : ∀ s ∈ Text.split '/' front, s ∉ outputMarkers)
    (path : String) : nameOfPath (front ++ "/" ++ path) = nameOfPath path := by
  rw [nameOfPath_eq, nameOfPath_eq, Text.split_slash, segmentsAfterMarker_append h,
    Text.afterLast_slash]

/-! ## Names of locations -/

/-- The text a loose class file is named by : that of its path with slashes only, less the
suffix. -/
def stem (path : String) : String := Text.dropTail classSuffix (Text.replaceChar '\\' '/' path)

theorem className_file (path : String) : className (.file ⟨path⟩) = nameOfPath (stem path) := rfl

/-- Every loose class file is named by an identifier of some name. -/
theorem exists_className (path : String) :
    ∃ name, className (.file ⟨path⟩) = ClassId.ofName name := by
  rw [className_file, nameOfPath_eq]
  split
  · exact ⟨_, rfl⟩
  · exact ⟨_, rfl⟩

theorem stem_behind (front path : String) :
    stem (front ++ "/" ++ path) = Text.replaceChar '\\' '/' front ++ "/" ++ stem path := by
  have hslash : Text.replaceChar '\\' '/' "/" = "/" :=
    (Text.replaceChar_eq_self_iff (by decide)).2 (by decide)
  have hsuffix : '/' ∉ classSuffix.toList := by decide
  have hdrop : Text.dropTail classSuffix
      (Text.replaceChar '\\' '/' front ++ "/" ++ Text.replaceChar '\\' '/' path) = _ :=
    Text.dropTail_append_sep classSuffix_ne_empty hsuffix _ _
  rw [stem, Text.replaceChar_append, Text.replaceChar_append, hslash, hdrop]
  rfl

theorem className_archived_eq (archive : Option Path) (entry : String) :
    className (.archived archive entry) =
      match (Text.dropTail? classSuffix entry).filter (· != "") with
      | some name => ClassId.ofName name
      | none => nameOfPath (Text.dropTail classSuffix entry) := rfl

/-- A class file in an archive is named by its entry without the suffix. -/
theorem className_archived (archive : Option Path) (name : String) :
    className (.archived archive (name ++ classSuffix)) = ClassId.ofName name := by
  rw [className_archived_eq, Text.dropTail?_append]
  by_cases hn : name = ""
  · subst hn
    show nameOfPath (Text.dropTail classSuffix ("" ++ classSuffix)) = ClassId.ofName ""
    decide +kernel
  · have hf : (some name).filter (· != "") = some name := by simp [hn]
    rw [hf]

/-- An entry is named by its path unless it has something in front of the suffix. -/
theorem className_archived_of_not_class (archive : Option Path) {entry : String}
    (h : ∀ s, s ≠ "" → entry ≠ s ++ classSuffix) :
    className (.archived archive entry) = nameOfPath (Text.dropTail classSuffix entry) := by
  have hnone : (Text.dropTail? classSuffix entry).filter (· != "") = none := by
    cases hd : Text.dropTail? classSuffix entry with
    | none => rfl
    | some s =>
      have hs : s = "" := Decidable.byContradiction fun hne =>
        h s hne (Text.dropTail?_eq_some_iff.1 hd)
      simp [hs]
  rw [className_archived_eq, hnone]

/-- A loose class file is named by what follows the first marker of its path or else by the last
segment, and what stands in front of the path makes no difference if it has no marker. An archive
member is named by its entry less the suffix, and by the path of its entry if that has no suffix or
nothing else. -/
theorem names_follow_first_marker :
    (∀ path, IsNamedBy (className (.file ⟨path⟩)) (stem path)) ∧
      (∀ front path,
        (∀ s ∈ Text.split '/' (Text.replaceChar '\\' '/' front), s ∉ outputMarkers) →
          className (.file ⟨front ++ "/" ++ path⟩) = className (.file ⟨path⟩)) ∧
      (∀ archive s, s ≠ "" → className (.archived archive (s ++ classSuffix)) = ClassId.ofName s) ∧
      ∀ archive entry, (∀ s, s ≠ "" → entry ≠ s ++ classSuffix) →
        IsNamedBy (className (.archived archive entry)) (Text.dropTail classSuffix entry) := by
  refine ⟨fun path => isNamedBy_nameOfPath (stem path), fun front path h => ?_,
    fun archive s _ => className_archived archive s, fun archive entry h => ?_⟩
  · rw [className_file, className_file, stem_behind, nameOfPath_behind h]
  · rw [className_archived_of_not_class archive h]
    exact isNamedBy_nameOfPath _

/-- A class below `build` is named by what follows, whatever stands in front, also if that was
written with backslashes; a member below `bin` keeps the directory in its name, unless its entry has
no suffix. -/
theorem built_classes_named_behind_build :
    (FollowsMarker (stem "build\\a//B.class") "a//B" ∧
        className (.file ⟨"build\\a//B.class"⟩) = ⟨"a/B"⟩) ∧
      ((∀ s ∈ Text.split '/' (Text.replaceChar '\\' '/' "C:\\out"), s ∉ outputMarkers) ∧
        className (.file ⟨"C:\\out" ++ "/" ++ "build\\a//B.class"⟩) = ⟨"a/B"⟩) ∧
      ("bin/B" ≠ "" ∧ className (.archived none ("bin/B" ++ classSuffix)) = ⟨"bin/B"⟩) ∧
      ((∀ s, s ≠ "" → "bin/B" ≠ s ++ classSuffix) ∧
        className (.archived none "bin/B") = ⟨"B"⟩) := by
  obtain ⟨hfile, hfront, hclass, hentry⟩ := names_follow_first_marker
  have hstem : stem "build\\a//B.class" = "build/a//B" ∧
      Text.dropTail classSuffix "bin/B" = "bin/B" ∧ steps "a//B" = ["a", "B"] ∧
      steps "B" = ["B"] := by
    decide +kernel
  have hname : ClassId.ofName (Text.join "/" ["a", "B"]) = ⟨"a/B"⟩ ∧
      ClassId.ofName (Text.join "/" ["B"]) = ⟨"B"⟩ ∧ ClassId.ofName "bin/B" = ⟨"bin/B"⟩ := by
    decide +kernel
  have hbuild : FollowsMarker (stem "build\\a//B.class") "a//B" :=
    ⟨⟨"build", by decide, .inl (by rw [hstem.1]; rfl)⟩, by simp [hstem]⟩
  have hbin : FollowsMarker (Text.dropTail classSuffix "bin/B") "B" :=
    ⟨⟨"bin", by decide, .inl (by rw [hstem.2.1]; rfl)⟩, by simp [hstem]⟩
  have hplain : ∀ s ∈ Text.split '/' (Text.replaceChar '\\' '/' "C:\\out"), s ∉ outputMarkers := by
    decide +kernel
  have hbare : ∀ s, s ≠ "" → "bin/B" ≠ s ++ classSuffix := fun s _ =>
    Text.dropTail?_eq_none_iff.1 (by decide +kernel) s
  have hmarked : className (.file ⟨"build\\a//B.class"⟩) = ⟨"a/B"⟩ := by
    rw [(hfile _).marked _ hbuild, hstem.2.2.1, hname.1]
  refine ⟨⟨hbuild, hmarked⟩, ⟨hplain, (hfront _ _ hplain).trans hmarked⟩,
    ⟨by decide, (hclass none _ (by decide)).trans hname.2.2⟩, hbare, ?_⟩
  rw [(hentry none _ hbare).marked _ hbin, hstem.2.2.2, hname.2.1]

end ClassViewer.Location
