import ClassViewer.Proofs.Disk.Walk
import ClassViewer.Proofs.LoggedProblems
import Mathlib.Data.Set.List

/-!
# The source files of Vineflower

Vineflower leaves source files in its output directory and complaints on its standard error. Where
no ignore file rules, the walk through the directory comes upon every source file; if all are UTF-8
they are some list of names and texts in path order (`Leaves`, `exists_leaves`). They are saved
without line numbers, and so the engine shows their texts one after the other, or the complaints if
that makes no text (`finish_reportOf`).
-/

namespace ClassViewer.Vineflower

open Disk (IsKindBelow Unruled pathBelow)

/-- At the names below the output directory lies a source file with that text. -/
structure IsSource (h : Host) (out : Path) (place : Route) (f : Route × String) : Prop where
  isKindBelow : h.disk.IsKindBelow h.here sourceExtension out place f.1
  reads : h.readText (pathBelow out f.1) = .ok f.2

/-- No ignore file lies in the output directory or above it, and its source files, which all are
UTF-8, are these in path order. -/
structure Leaves (h : Host) (out : Path) (place : Route) (files : List (Route × String)) :
    Prop where
  proper : h.disk.Proper
  leads : h.disk.lookup h.here true out = .ok (place, .directory)
  unruled : h.disk.Unruled place
  utf8 : ∀ names, h.disk.IsKindBelow h.here sourceExtension out place names →
    ∃ text, h.readText (pathBelow out names) = .ok text
  ordered : files.Pairwise fun f g =>
    Path.componentsBefore (f.1.map .name) (g.1.map .name) = true
  mem_iff : ∀ f, f ∈ files ↔ IsSource h out place f

/-- The lines of the standard error without white space around them, blank ones left out. -/
def complaints (stderr : ByteArray) : List String :=
  ((Text.outputLines (Text.Utf8.decodeLossy stderr)).map Text.trim).filter (· ≠ "")

/-- What is shown of the source files and the standard error. -/
def shown (files : List (Route × String)) (stderr : ByteArray) : String :=
  let text := Text.join "" (files.map Prod.snd)
  if text = "" then
    "// Decompilation produced no output\n" ++
      Text.join "" ((complaints stderr).map fun line => "// WARN: " ++ line ++ "\n")
  else text

variable {h : Host} {out : Path} {place : Route} {files : List (Route × String)}

/-! ## Finding the files -/

/-- Source files are named as their directory names them. -/
theorem IsSource.isEntryName (hd : h.disk.Proper) {f : Route × String}
    (hf : IsSource h out place f) : ∀ n ∈ f.1, Path.IsEntryName n :=
  Disk.isEntryName_of_mem hd
    (Disk.mem_entriesBelow_iff.2 ⟨hf.isKindBelow.ne_nil, hf.isKindBelow.lies⟩)

/-- The order of the names is that of the paths. -/
theorem IsSource.before_iff (hd : h.disk.Proper) {f g : Route × String}
    (hf : IsSource h out place f) (hg : IsSource h out place g) :
    (pathBelow out f.1).before (pathBelow out g.1) = true ↔
      Path.componentsBefore (f.1.map .name) (g.1.map .name) = true := by
  rw [Path.before, Disk.components_pathBelow (hf.isEntryName hd),
    Disk.components_pathBelow (hg.isEntryName hd), Path.componentsBefore_append_left]

namespace Leaves

theorem filesOfKind_eq (hl : Leaves h out place files) (hout : out.same ⟨"-"⟩ = false) :
    h.disk.filesOfKind h.here sourceExtension out = .ok (files.map fun f => pathBelow out f.1) := by
  obtain ⟨paths, hpaths, hordered, hmem⟩ :=
    Disk.lists_filesOfKind hl.proper hl.leads hout sourceExtension
  have hbefore : (files.map fun f => pathBelow out f.1).Pairwise fun p q => p.before q = true :=
    List.pairwise_map.2 (hl.ordered.imp_of_mem fun {f g} hf hg =>
      (((hl.mem_iff f).1 hf).before_iff hl.proper ((hl.mem_iff g).1 hg)).2)
  rw [hpaths, Path.eq_of_mem_iff hordered hbefore fun p => ?_]
  rw [hmem, List.mem_map]
  constructor
  · rintro ⟨names, hkind, -, rfl⟩
    obtain ⟨text, htext⟩ := hl.utf8 names hkind
    exact ⟨(names, text), (hl.mem_iff _).2 ⟨hkind, htext⟩, rfl⟩
  · rintro ⟨f, hf, rfl⟩
    exact ⟨f.1, ((hl.mem_iff f).1 hf).isKindBelow,
      Disk.not_hides_of_unruled hl.unruled out f.1, rfl⟩

theorem walkProblems_eq_nil (hl : Leaves h out place files) :
    h.disk.walkProblems h.here out = [] := by
  unfold Disk.walkProblems
  rw [hl.leads]
  refine List.flatMap_eq_nil_iff.2 fun above habove => ?_
  obtain ⟨n, -, rfl⟩ := List.mem_map.1 (List.mem_reverse.1 (List.mem_reverse.1 habove))
  rw [Disk.ignoreFile_of_none (hl.unruled _ (.inl (List.take_prefix _ _)))]
  rfl

end Leaves

/-- Wherever no ignore file lies and every source file is UTF-8, there are such files. -/
theorem exists_leaves (hd : h.disk.Proper)
    (hplace : h.disk.lookup h.here true out = .ok (place, .directory))
    (hunruled : h.disk.Unruled place) (hout : out.same ⟨"-"⟩ = false)
    (hutf8 : ∀ names, h.disk.IsKindBelow h.here sourceExtension out place names →
      ∃ text, h.readText (pathBelow out names) = .ok text) :
    ∃ files, Leaves h out place files := by
  obtain ⟨paths, -, hordered, hmem⟩ := Disk.lists_filesOfKind hd hplace hout sourceExtension
  have hsources : paths ∈ Set.range
      (List.map fun f : Subtype (IsSource h out place) => pathBelow out f.1.1) := by
    rw [Set.range_list_map]
    intro p hp
    obtain ⟨names, hkind, -, rfl⟩ := (hmem p).1 hp
    obtain ⟨text, htext⟩ := hutf8 names hkind
    exact ⟨⟨(names, text), hkind, htext⟩, rfl⟩
  obtain ⟨sources, rfl⟩ := hsources
  refine ⟨sources.map Subtype.val, hd, hplace, hunruled, hutf8, ?_, fun f => ?_⟩
  · exact List.pairwise_map.2 ((List.pairwise_map.1 hordered).imp fun {f g} =>
      (f.2.before_iff hd g.2).1)
  · rw [List.mem_map]
    constructor
    · rintro ⟨source, -, rfl⟩
      exact source.2
    · intro hf
      have hlisted := (hmem (pathBelow out f.1)).2
        ⟨f.1, hf.isKindBelow, Disk.not_hides_of_unruled hunruled out f.1, rfl⟩
      obtain ⟨source, hsource, hpath⟩ := List.mem_map.1 hlisted
      have hnames : source.1.1 = f.1 := Disk.components_pathBelow_injective
        (source.2.isEntryName hd) (hf.isEntryName hd) (congrArg Path.components hpath)
      have htext : source.1.2 = f.2 :=
        Except.ok.inj (source.2.reads.symm.trans (hnames ▸ hf.reads))
      exact ⟨source, hsource, Prod.ext hnames htext⟩

/-! ## Saving the files -/

/-- How a source file is saved. -/
def savedFile (out : Path) (f : Route × String) : Saved :=
  ⟨(pathBelow out f.1).text, qualifiedName (entryName out (pathBelow out f.1)),
    entryName out (pathBelow out f.1), f.2, none⟩

theorem readOutput_of_reads (hreads : ∀ f ∈ files, h.readText (pathBelow out f.1) = .ok f.2) :
    readOutput h out (files.map fun f => pathBelow out f.1) =
      ⟨files.map fun f => .save (savedFile out f), .ok ()⟩ := by
  induction files with
  | nil => rfl
  | cons f files ih =>
    obtain ⟨hf, hrest⟩ := List.forall_mem_cons.1 hreads
    rw [List.map_cons, readOutput, hf, ih hrest]
    rfl

theorem collectOutput_of_leaves (hl : Leaves h out place files) (hout : out.same ⟨"-"⟩ = false) :
    collectOutput h out = ⟨files.map fun f => .save (savedFile out f), .ok ()⟩ := by
  rw [collectOutput, hl.walkProblems_eq_nil, hl.filesOfKind_eq hout]
  exact readOutput_of_reads fun f hf => ((hl.mem_iff f).1 hf).reads

/-! ## Showing the files -/

theorem warnings_eq (stderr : ByteArray) :
    warnings stderr = (complaints stderr).map (.log .warn) := by
  unfold warnings complaints
  induction (Text.outputLines (Text.Utf8.decodeLossy stderr)).map Text.trim with
  | nil => rfl
  | cons line lines ih => by_cases hline : line = "" <;> simp [hline, ih]

section Calls

variable (out files) (stderr : ByteArray)

/-- The calls for the complaints and the files. -/
def outputCalls : List Call :=
  warnings stderr ++ files.map fun f => .save (savedFile out f)

theorem saved_outputCalls : (outputCalls out files stderr).filterMap Call.saved? =
    files.map (savedFile out) := by
  have hwarnings : (warnings stderr).filterMap Call.saved? = [] := by
    simp [warnings_eq, Call.saved?]
  have hfiles : (files.map fun f => Call.save (savedFile out f)).filterMap Call.saved? =
      files.map (savedFile out) := by
    simp [List.filterMap_map, Function.comp_def, Call.saved?]
  rw [outputCalls, List.filterMap_append, hwarnings, hfiles, List.nil_append]

theorem contents_outputCalls : contents (outputCalls out files stderr) = files.map Prod.snd := by
  rw [contents, saved_outputCalls, List.map_map]
  rfl

theorem problems_outputCalls : problems (outputCalls out files stderr) =
    (complaints stderr).map fun line => (.warn, line) := by
  have hfiles : (files.map fun f => Call.save (savedFile out f)).filterMap Call.problem? = [] := by
    simp [Call.problem?]
  rw [problems, outputCalls, List.filterMap_append, hfiles, List.append_nil, warnings_eq]
  simp [List.filterMap_map, Function.comp_def, Call.problem?]

/-- The files are shown without a line number, and so it makes no difference whether lines are
preserved. -/
theorem render_outputCalls (preserve : Bool) :
    render preserve (outputCalls out files stderr) = shown files stderr := by
  have hsame : render preserve (outputCalls out files stderr) =
      render false (outputCalls out files stderr) := by
    cases preserve with
    | false => rfl
    | true =>
      refine render_true_of_noneUsable fun s flat hs hflat => ?_
      have hsaved : s ∈ (outputCalls out files stderr).filterMap Call.saved? :=
        List.mem_filterMap.2 ⟨_, hs, rfl⟩
      rw [saved_outputCalls] at hsaved
      obtain ⟨f, -, rfl⟩ := List.mem_map.1 hsaved
      cases hflat
  have hmark : mark .warn = "// WARN: " := by decide
  have hproblems : Text.join "" ((outputCalls out files stderr).map Call.problem) =
      Text.join "" ((complaints stderr).map fun line => "// WARN: " ++ line ++ "\n") := by
    rw [join_problem, problems_outputCalls, List.map_map]
    simp only [Function.comp_def, entry, hmark]
  rw [hsame]
  unfold render noOutput shown
  rw [savedTexts_false, contents_outputCalls, hproblems]

end Calls

/-- The engine shows the source files that a successful run has left, or its complaints. -/
theorem finish_reportOf (hl : Leaves h out place files) (hout : out.same ⟨"-"⟩ = false)
    {finished : Finished} (hsuccess : finished.status.isSuccess = true) (preserve : Bool) :
    finish preserve (reportOf h out finished) =
      .ok (withFooter (shown files finished.stderr) descriptor) := by
  rw [reportOf, if_pos hsuccess, collectOutput_of_leaves hl hout,
    ← render_outputCalls out files finished.stderr preserve]
  rfl

end ClassViewer.Vineflower
