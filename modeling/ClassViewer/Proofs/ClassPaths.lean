import ClassViewer.Proofs.PrimaryFirst

/-!
# Paths answered with the primary class

Vineflower asks for class files by paths outside, and its engine answers some of them with the class
being decompiled. `lastSegment?` is the name such a path ends in. A path that was found by its
segments ends in the simple name of the class (`lastSegment?_of_run`), and so does one that was
found by its file name (`lastSegment?_of_fileName`). A path that ends in the class path ends in that
name with something in front of it if the class has no package (`lastSegment?_of_classPath`) : the
file of another class is then answered with the primary class.
-/

namespace ClassViewer.Vineflower

/-- The segments of a path that are not empty, less a class suffix at the end of the path. -/
def segments (path : String) : List String :=
  (Text.split '/' (Text.dropTail classSuffix (Text.replaceChar '\\' '/' path))).filter (· != "")

/-- The last of the segments of a path. -/
def lastSegment? (path : String) : Option String := (segments path).getLast?

theorem lastSegment?_eq {path stem : String}
    (h : Text.dropTail classSuffix (Text.replaceChar '\\' '/' path) = stem)
    (hne : Text.afterLast '/' stem ≠ "") :
    lastSegment? path = some (Text.afterLast '/' stem) := by
  have hkept : [Text.afterLast '/' stem].filter (· != "") = [Text.afterLast '/' stem] := by
    simp [hne]
  rw [lastSegment?, segments, h, ← Text.dropLast_concat_afterLast, List.filter_append, hkept]
  exact List.getLast?_concat

theorem lastSegment?_ne_empty (path : String) : lastSegment? path ≠ some "" := by
  intro h
  have hkept := (List.mem_filter.1 (List.mem_of_getLast? h)).2
  simp at hkept

/-! ## Paths that are matched as text -/

section

variable {id : ClassId} {path : String}

/-- A file name is found at the end of its path. -/
theorem lastSegment?_of_fileName (hne : id.simpleName ≠ "")
    (h : simpleName (Text.replaceChar '\\' '/' path) = id.simpleName ++ classSuffix) :
    lastSegment? path = some id.simpleName := by
  obtain ⟨front, hfront⟩ := Text.exists_append_afterLast '/' (Text.replaceChar '\\' '/' path)
  have hname : Text.afterLast '/' (Text.replaceChar '\\' '/' path) =
      id.simpleName ++ classSuffix := h
  rw [hname, ← String.append_assoc] at hfront
  have hstem : Text.dropTail classSuffix (Text.replaceChar '\\' '/' path) =
      front ++ id.simpleName := by
    rw [hfront, Text.dropTail_append]
  have hlast : Text.afterLast '/' (front ++ id.simpleName) = id.simpleName := by
    have hsuffix : '/' ∉ classSuffix.toList := by decide
    have happend := Text.afterLast_append '/' (front ++ id.simpleName) classSuffix
    rw [← hfront, hname, if_neg hsuffix] at happend
    simpa using (congrArg (Text.dropTail classSuffix) happend).symm
  rw [lastSegment?_eq hstem (hlast.symm ▸ hne), hlast]

/-- A class path is found at the end of a path, but not always as whole segments. -/
theorem lastSegment?_of_classPath (hne : id.simpleName ≠ "")
    (h : Text.endsWith id.classPath (Text.replaceChar '\\' '/' path) = true) :
    ∃ front, lastSegment? path = some (front ++ id.simpleName) ∧
      (id.package? ≠ none → front = "") := by
  obtain ⟨r, hr⟩ := Text.endsWith_iff.1 h
  have hstem : Text.dropTail classSuffix (Text.replaceChar '\\' '/' path) = r ++ id.text := by
    rw [hr, ClassId.classPath, ← String.append_assoc, Text.dropTail_append]
  have hlast := Text.afterLast_append '/' r id.text
  by_cases hpackage : '/' ∈ id.text.toList
  · have hname : Text.afterLast '/' (r ++ id.text) = "" ++ id.simpleName := by
      rw [hlast, if_pos hpackage, String.empty_append]
      rfl
    refine ⟨"", ?_, fun _ => rfl⟩
    rw [lastSegment?_eq hstem (by simpa [hname] using hne), hname]
  · have htext : id.simpleName = id.text := Text.afterLast_eq_self hpackage
    have hname : Text.afterLast '/' (r ++ id.text) = Text.afterLast '/' r ++ id.simpleName := by
      rw [hlast, if_neg hpackage, htext]
    refine ⟨Text.afterLast '/' r, ?_, ?_⟩
    · rw [lastSegment?_eq hstem (by simp [hname, hne]), hname]
    · exact fun hsome => absurd (ClassId.package?_eq_none_iff.2 hpackage) hsome

end

/-! ## Paths that are found by their segments -/

theorem mem_trailingRuns {run segs : List String} (h : run ∈ trailingRuns segs) :
    run ≠ [] ∧ run <:+ segs := by
  induction segs with
  | nil => cases h
  | cons seg rest ih =>
    rcases List.mem_cons.1 h with rfl | h
    · exact ⟨List.cons_ne_nil _ _, List.suffix_refl _⟩
    · obtain ⟨hne, hsuffix⟩ := ih h
      exact ⟨hne, hsuffix.trans (List.suffix_cons seg rest)⟩

/-- Segments that make up a name end in its last segment. -/
theorem getLast?_eq_simpleName {run : List String} (hne : run ≠ [])
    (hrun : ∀ seg ∈ run, '/' ∉ seg.toList) :
    run.getLast? = some (simpleName (Text.join "/" run)) := by
  have hsplit : Text.split '/' (Text.join "/" run) = run := Text.split_join hne hrun
  rw [simpleName, Text.afterLast, hsplit, List.getLast?_eq_some_getLast hne]
  rfl

theorem lastSegment?_of_run {path name : String} {canLoad : String → Bool}
    (hfound : ((trailingRuns (segments path)).map (Text.join "/")).find? canLoad = some name) :
    lastSegment? path = some (simpleName name) := by
  obtain ⟨run, hrun, rfl⟩ := List.mem_map.1 (List.mem_of_find?_eq_some hfound)
  obtain ⟨hne, before, hsegs⟩ := mem_trailingRuns hrun
  have hslash : ∀ seg ∈ run, '/' ∉ seg.toList := by
    intro seg hseg
    have hmem := List.mem_append_right before hseg
    rw [hsegs] at hmem
    exact Text.not_mem_of_mem_split (List.mem_filter.1 hmem).1
  rw [lastSegment?, ← hsegs, List.getLast?_append, getLast?_eq_simpleName hne hslash,
    Option.some_or]

/-! ## Paths that are answered -/

section

variable {scope : Scope} {id : ClassId} {h : Host} {path : String}

/-- A path that is answered with a class ends in its simple name, with text in front of it only if
the class has no package. -/
theorem exists_lastSegment? (hne : id.simpleName ≠ "")
    (hanswer : classForPath scope id h path = some id.text) :
    ∃ front, lastSegment? path = some (front ++ id.simpleName) ∧
      (id.package? ≠ none → front = "") := by
  unfold classForPath at hanswer
  dsimp only at hanswer
  split at hanswer
  · rename_i hnames
    rcases Bool.or_eq_true_iff.1 hnames with hpath | hname
    · exact lastSegment?_of_classPath hne hpath
    · refine ⟨"", ?_, fun _ => rfl⟩
      rw [String.empty_append]
      exact lastSegment?_of_fileName hne (beq_iff_eq.1 hname)
  · refine ⟨"", ?_, fun _ => rfl⟩
    rw [String.empty_append]
    exact lastSegment?_of_run hanswer

/-- Whatever stands in front of a class path, it is answered with the class. -/
theorem classForPath_append_classPath (name front : String) :
    classForPath scope (.ofName name) h (front ++ (ClassId.ofName name).classPath) =
      some (ClassId.ofName name).text := by
  have hends : Text.endsWith (ClassId.ofName name).classPath
      (Text.replaceChar '\\' '/' (front ++ (ClassId.ofName name).classPath)) = true := by
    rw [Text.replaceChar_append, ClassId.replaceChar_classPath, Text.endsWith_iff]
    exact ⟨_, rfl⟩
  simp only [classForPath, namesPrimary, hends, Bool.true_or, if_true]

/-- The class path of a class without a package may stand behind the beginning of a name. -/
theorem lastSegment?_append_classPath {name front : String}
    (hname : '/' ∉ (ClassId.ofName name).text.toList)
    (hfront : '/' ∉ front.toList ∧ '\\' ∉ front.toList) (hne : front ≠ "") :
    lastSegment? (front ++ (ClassId.ofName name).classPath) =
      some (front ++ (ClassId.ofName name).text) := by
  have hstem : Text.dropTail classSuffix
      (Text.replaceChar '\\' '/' (front ++ (ClassId.ofName name).classPath)) =
        front ++ (ClassId.ofName name).text := by
    rw [Text.replaceChar_append, ClassId.replaceChar_classPath,
      (Text.replaceChar_eq_self_iff (by decide)).2 hfront.2, ClassId.classPath,
      ← String.append_assoc, Text.dropTail_append]
  have hlast : Text.afterLast '/' (front ++ (ClassId.ofName name).text) =
      front ++ (ClassId.ofName name).text := by
    rw [Text.afterLast_append, if_neg hname, Text.afterLast_eq_self hfront.1]
  rw [lastSegment?_eq hstem (by simp [hlast, hne]), hlast]

end

/-- The paths that are answered with the class being decompiled all end in its simple name exactly
if the class has a package and its simple name is not empty. Otherwise they may have more in front
of the name in their last segment, and they are given the bytes of the class whatever the scope has
for them. -/
theorem answered_paths_end_in_name (name : String) :
    let id := ClassId.ofName name
    ((∀ (bytes : ByteArray) (scope : Scope) (h : Host) (path : String),
        classForPath (scope.primaryFirst id bytes) id h path = some id.text →
          lastSegment? path = some id.simpleName) ↔
      id.package? ≠ none ∧ id.simpleName ≠ "") ∧
    ∀ (bytes : ByteArray) (scope : Scope) (h : Host),
      (∀ path, id.simpleName ≠ "" →
        classForPath (scope.primaryFirst id bytes) id h path = some id.text →
        ∃ front, lastSegment? path = some (front ++ id.simpleName)) ∧
      ∀ front, bytecodeIn (scope.primaryFirst id bytes) id h (front ++ id.classPath) =
        .ok (some bytes) := by
  intro id
  refine ⟨⟨fun hall => ?_, fun ⟨hpackage, hne⟩ bytes scope h path hanswer => ?_⟩,
    fun bytes scope h => ⟨fun path hne hanswer => ?_, fun front => ?_⟩⟩
  · have hends : ∀ front, lastSegment? (front ++ id.classPath) = some id.simpleName :=
      fun front =>
        hall ByteArray.empty .nothing default _ (classForPath_append_classPath name front)
    have hne : id.simpleName ≠ "" := by
      intro hempty
      exact lastSegment?_ne_empty _ (hempty ▸ hends "")
    refine ⟨fun hpackage => ?_, hne⟩
    have hslash := ClassId.package?_eq_none_iff.1 hpackage
    have hbehind : lastSegment? ("A" ++ id.classPath) = some ("A" ++ id.text) :=
      lastSegment?_append_classPath hslash (by decide) (by decide)
    have hsame : "A" ++ id.text = id.text := by
      rw [← Option.some_inj, ← hbehind, hends, ClassId.simpleName, simpleName,
        Text.afterLast_eq_self hslash]
    have hlength := congrArg (·.toList.length) hsame
    simp [String.toList_append] at hlength
  · obtain ⟨front, hlast, hfront⟩ := exists_lastSegment? hne hanswer
    rw [hlast, hfront hpackage, String.empty_append]
  · obtain ⟨front, hlast, -⟩ := exists_lastSegment? hne hanswer
    exact ⟨front, hlast⟩
  · rw [bytecodeIn, classForPath_append_classPath]
    simp only [id, Scope.load_primaryFirst_self]
    rfl

/-- A path on another system, answered with a class of a package. -/
theorem packaged_class_answered_by_name :
    let scope := Scope.nothing.primaryFirst ⟨"a/B"⟩ ByteArray.empty
    classForPath scope ⟨"a/B"⟩ default "C:\\out\\B.class" = some "a/B" ∧
      (ClassId.mk "a/B").package? ≠ none ∧ (ClassId.mk "a/B").simpleName ≠ "" ∧
      lastSegment? "C:\\out\\B.class" = some (ClassId.mk "a/B").simpleName := by
  intro scope
  have hid : ClassId.ofName "a/B" = ⟨"a/B"⟩ := by decide +kernel
  obtain ⟨hiff, -⟩ := answered_paths_end_in_name "a/B"
  rw [hid] at hiff
  have hanswer : classForPath scope ⟨"a/B"⟩ default "C:\\out\\B.class" = some "a/B" := by
    decide +kernel
  have hpackage : (ClassId.mk "a/B").package? ≠ none := by decide
  have hname : (ClassId.mk "a/B").simpleName ≠ "" := by decide
  exact ⟨hanswer, hpackage, hname, hiff.2 ⟨hpackage, hname⟩ _ _ _ _ hanswer⟩

/-- A scope with a class whose name ends in that of another. -/
def neighbourScope : Scope where
  canLoad _ name := name == "AB"
  load _ name :=
    if name = "AB" then .ok ⟨⟨"AB"⟩, "dependency".toUTF8⟩ else .error (.notFound ⟨name⟩)
  classNames _ := [⟨"AB"⟩]
  archivePath := none

/-- The file of the one class is answered with the other. -/
theorem neighbour_answered_with_primary :
    let scope := neighbourScope.primaryFirst ⟨"B"⟩ "primary".toUTF8
    neighbourScope.Offers default "AB" "dependency".toUTF8 ∧
      lastSegment? "/lib/AB.class" = some "AB" ∧ (ClassId.mk "B").simpleName = "B" ∧
      classForPath scope ⟨"B"⟩ default "/lib/AB.class" = some "B" ∧
      bytecodeIn scope ⟨"B"⟩ default "/lib/AB.class" = .ok (some "primary".toUTF8) := by
  intro scope
  have hanswer : classForPath scope ⟨"B"⟩ default "/lib/AB.class" = some "B" := by decide +kernel
  have hload : scope.load default "B" = .ok ⟨⟨"B"⟩, "primary".toUTF8⟩ :=
    Scope.load_primaryFirst_self ..
  refine ⟨⟨rfl, ⟨"AB"⟩, rfl⟩, by decide +kernel, by decide, hanswer, ?_⟩
  rw [bytecodeIn, hanswer]
  simp only [hload]
  rfl

end ClassViewer.Vineflower
