import ClassViewer.Proofs.ClassPaths

/-!
# The longest run that can be loaded

A path outside that is not taken for that of the class being decompiled stands for a class by the
segments at its end. The runs are tried from the longest to the shortest, so the one that is found
is the longest that can be loaded (`find?_trailingRuns_eq_some_iff`), and none is found only if none
can be loaded (`find?_trailingRuns_eq_none_iff`). The bytes are then those of that class, unless the
scope claims the class and fails to load it (`bytecode_of_claimed`). `longest_loadable_run_answers`
puts this together.
-/

namespace ClassViewer.Vineflower

/-- A run of segments at the end whose name is accepted, where no longer run is. -/
structure IsLongestRun (accepts : String → Bool) (segs run : List String) : Prop where
  ne_nil : run ≠ []
  suffix : run <:+ segs
  accepted : accepts (Text.join "/" run) = true
  longest : ∀ longer, longer <:+ segs → run.length < longer.length →
    accepts (Text.join "/" longer) = false

/-! ## Runs from the longest to the shortest -/

section

variable {accepts : String → Bool} {segs run : List String}

theorem mem_trailingRuns_iff : run ∈ trailingRuns segs ↔ run ≠ [] ∧ run <:+ segs := by
  refine ⟨mem_trailingRuns, ?_⟩
  rintro ⟨hne, hsuffix⟩
  induction segs with
  | nil => exact absurd (List.suffix_nil.1 hsuffix) hne
  | cons seg rest ih =>
    rcases List.suffix_cons_iff.1 hsuffix with rfl | hsuffix
    · exact List.mem_cons_self
    · exact List.mem_cons_of_mem _ (ih hsuffix)

theorem isLongestRun_cons_of_accepts {seg : String} {rest : List String}
    (h : accepts (Text.join "/" (seg :: rest)) = true) :
    IsLongestRun accepts (seg :: rest) run ↔ seg :: rest = run := by
  constructor
  · intro hrun
    rcases List.suffix_cons_iff.1 hrun.suffix with heq | hsuffix
    · exact heq.symm
    · have hlonger := hrun.longest _ (List.suffix_refl _)
        (Nat.lt_succ_of_le hsuffix.length_le)
      rw [h] at hlonger
      cases hlonger
  · rintro rfl
    exact ⟨List.cons_ne_nil _ _, List.suffix_refl _, h,
      fun longer hlonger hlt => absurd hlonger.length_le (Nat.not_le_of_lt hlt)⟩

theorem isLongestRun_cons_of_not_accepts {seg : String} {rest : List String}
    (h : accepts (Text.join "/" (seg :: rest)) = false) :
    IsLongestRun accepts (seg :: rest) run ↔ IsLongestRun accepts rest run := by
  constructor
  · intro hrun
    refine ⟨hrun.ne_nil, ?_, hrun.accepted, fun longer hlonger hlt => ?_⟩
    · rcases List.suffix_cons_iff.1 hrun.suffix with rfl | hsuffix
      · rw [hrun.accepted] at h
        cases h
      · exact hsuffix
    · exact hrun.longest longer (hlonger.trans (List.suffix_cons seg rest)) hlt
  · intro hrun
    refine ⟨hrun.ne_nil, hrun.suffix.trans (List.suffix_cons seg rest), hrun.accepted,
      fun longer hlonger hlt => ?_⟩
    rcases List.suffix_cons_iff.1 hlonger with rfl | hlonger
    · exact h
    · exact hrun.longest longer hlonger hlt

/-- The first run that is accepted is the longest. -/
theorem find?_trailingRuns_eq_some_iff :
    (trailingRuns segs).find? (fun run => accepts (Text.join "/" run)) = some run ↔
      IsLongestRun accepts segs run := by
  induction segs with
  | nil =>
    refine ⟨fun h => (Option.some_ne_none run h.symm).elim, fun h => ?_⟩
    exact absurd (List.suffix_nil.1 h.suffix) h.ne_nil
  | cons seg rest ih =>
    cases h : accepts (Text.join "/" (seg :: rest)) with
    | true =>
      simp only [trailingRuns, List.find?_cons, h, Option.some.injEq]
      exact (isLongestRun_cons_of_accepts h).symm
    | false =>
      simp only [trailingRuns, List.find?_cons, h, ih]
      exact (isLongestRun_cons_of_not_accepts h).symm

theorem find?_trailingRuns_eq_none_iff :
    (trailingRuns segs).find? (fun run => accepts (Text.join "/" run)) = none ↔
      ∀ run, run ≠ [] → run <:+ segs → accepts (Text.join "/" run) = false := by
  rw [List.find?_eq_none]
  refine forall_congr' fun run => ?_
  rw [mem_trailingRuns_iff, and_imp, Bool.not_eq_true]

end

/-! ## Paths of other classes -/

section

variable {id : ClassId} {path : String} (scope : Scope) (h : Host)

/-- A path that is not that of the class being decompiled stands for the first run whose class can
be loaded. -/
theorem classForPath_of_not_namesPrimary
    (hother : namesPrimary id (Text.replaceChar '\\' '/' path) = false) :
    classForPath scope id h path = ((trailingRuns (segments path)).find? fun run =>
      scope.canLoad h (Text.join "/" run)).map (Text.join "/") := by
  simp only [classForPath, hother, Bool.false_eq_true, if_false]
  exact List.find?_map

theorem canLoad_of_classForPath
    (hother : namesPrimary id (Text.replaceChar '\\' '/' path) = false) {name : String}
    (hname : classForPath scope id h path = some name) : scope.canLoad h name = true := by
  rw [classForPath_of_not_namesPrimary scope h hother] at hname
  obtain ⟨run, hrun, rfl⟩ := Option.map_eq_some_iff.1 hname
  exact (find?_trailingRuns_eq_some_iff.1 hrun).accepted

/-- What the provider answers is what the scope has for the path. -/
theorem run_bytecode (id : ClassId) (path : String) :
    ((Provider.ofScope scope id).bytecode path).run h =
      ((bytecodeIn scope id h path).mapError Failure.ofError, h) := by
  simp only [Provider.ofScope, StateT.run_bind, StateT.run_get, pure_bind]
  cases bytecodeIn scope id h path <;> rfl

/-- A class that is claimed is loaded and gives its bytes, or the scope fails to load it, and it is
not the class being decompiled. -/
theorem bytecode_of_claimed (bytes : ByteArray) {name : String}
    (hclaim : (scope.primaryFirst id bytes).canLoad h name = true)
    (hname : classForPath (scope.primaryFirst id bytes) id h path = some name) :
    (∃ blob, (scope.primaryFirst id bytes).load h name = .ok blob ∧
      bytecodeIn (scope.primaryFirst id bytes) id h path = .ok (some blob.bytes)) ∨
    ∃ e, name ≠ id.text ∧ scope.canLoad h name = true ∧ scope.load h name = .error e ∧
      bytecodeIn (scope.primaryFirst id bytes) id h path = .error e := by
  rw [bytecodeIn, hname]
  cases hload : (scope.primaryFirst id bytes).load h name with
  | ok blob => exact .inl ⟨blob, rfl, by simp only [hload]; rfl⟩
  | error e =>
    have hne : name ≠ id.text := by
      rintro rfl
      rw [Scope.load_primaryFirst_self] at hload
      cases hload
    have hscope : scope.canLoad h name = true := by
      simpa [Scope.primaryFirst, hne] using hclaim
    have hfails : scope.load h name = .error e := by
      rwa [Scope.load_primaryFirst_of_ne id bytes scope h hne] at hload
    exact .inr ⟨e, hne, hscope, hfails, by simp only [hload]; rfl⟩

end

/-- A path outside that is not taken for that of the class being decompiled stands for the longest
run of segments at its end that can be loaded, and for nothing if none can. The provider gives the
bytes that are loaded for this run, or nothing. It fails only if the scope claims the class and
fails to load it. -/
theorem longest_loadable_run_answers (id : ClassId) (bytes : ByteArray) (scope : Scope) (h : Host)
    {path : String} (hother : namesPrimary id (Text.replaceChar '\\' '/' path) = false) :
    let full := scope.primaryFirst id bytes
    let asked := ((Provider.ofScope full id).bytecode path).run h
    (∀ name, classForPath full id h path = some name ↔
      ∃ run, IsLongestRun (full.canLoad h) (segments path) run ∧ Text.join "/" run = name) ∧
    (classForPath full id h path = none ↔
      ∀ run, run ≠ [] → run <:+ segments path → full.canLoad h (Text.join "/" run) = false) ∧
    (classForPath full id h path = none → asked = (.ok none, h)) ∧
    ∀ name, classForPath full id h path = some name →
      (∃ blob, full.load h name = .ok blob ∧ asked = (.ok (some blob.bytes), h)) ∨
      ∃ e, name ≠ id.text ∧ scope.canLoad h name = true ∧ scope.load h name = .error e ∧
        asked = (.error (Failure.ofError e), h) := by
  intro full asked
  have hasked : asked = ((bytecodeIn full id h path).mapError Failure.ofError, h) :=
    run_bytecode full h id path
  refine ⟨fun name => ?_, ?_, fun hnone => ?_, fun name hname => ?_⟩
  · rw [classForPath_of_not_namesPrimary full h hother, Option.map_eq_some_iff]
    exact exists_congr fun run => and_congr_left fun _ => find?_trailingRuns_eq_some_iff
  · rw [classForPath_of_not_namesPrimary full h hother, Option.map_eq_none_iff]
    exact find?_trailingRuns_eq_none_iff
  · rw [hasked, bytecodeIn, hnone]
    rfl
  · have hclaim := canLoad_of_classForPath full h hother hname
    rcases bytecode_of_claimed scope h bytes hclaim hname with
      ⟨blob, hload, hbytes⟩ | ⟨e, hne, hscope, hfails, hbytes⟩
    · exact .inl ⟨blob, hload, by rw [hasked, hbytes]; rfl⟩
    · exact .inr ⟨e, hne, hscope, hfails, by rw [hasked, hbytes]; rfl⟩

/-- A scope with a class in a package, which also claims a class of the same name outside. -/
def packageScope : Scope where
  canLoad _ name := name == "C" || name == "b/C"
  load _ name :=
    if name = "b/C" then .ok ⟨⟨"b/C"⟩, "packaged".toUTF8⟩ else .error (.notFound ⟨name⟩)
  classNames _ := []
  archivePath := none

theorem packaged_class_found_by_longest_run :
    let full := packageScope.primaryFirst ⟨"x/P"⟩ "primary".toUTF8
    let path := "/lib\\a//b/C.class"
    namesPrimary ⟨"x/P"⟩ (Text.replaceChar '\\' '/' path) = false ∧
      (∃ run, IsLongestRun (full.canLoad default) ["lib", "a", "b", "C"] run ∧
        Text.join "/" run = "b/C") ∧
      ((Provider.ofScope full ⟨"x/P"⟩).bytecode path).run default =
        (.ok (some "packaged".toUTF8), default) := by
  intro full path
  have hother : namesPrimary ⟨"x/P"⟩ (Text.replaceChar '\\' '/' path) = false := by
    decide +kernel
  have hsegs : segments path = ["lib", "a", "b", "C"] := by decide +kernel
  have hname : classForPath full ⟨"x/P"⟩ default path = some "b/C" := by decide +kernel
  have hload : full.load default "b/C" = .ok ⟨⟨"b/C"⟩, "packaged".toUTF8⟩ := rfl
  obtain ⟨hfound, -, -, hbytes⟩ :=
    longest_loadable_run_answers ⟨"x/P"⟩ "primary".toUTF8 packageScope default hother
  refine ⟨hother, hsegs ▸ (hfound "b/C").1 hname, ?_⟩
  rcases hbytes "b/C" hname with ⟨blob, hblob, hasked⟩ | ⟨e, -, -, hfails, -⟩
  · obtain rfl := Except.ok.inj (hload.symm.trans hblob)
    exact hasked
  · cases hfails

end ClassViewer.Vineflower
