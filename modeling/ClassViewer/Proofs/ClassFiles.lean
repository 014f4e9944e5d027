import ClassViewer.CommandLine.Program
import ClassViewer.Proofs.Disk.Direct
import ClassViewer.Proofs.Disk.Walk

/-!
# The class files below a directory

The class files that are listed for a directory are those a walk through it reaches, and the walk
goes by the ignore files it comes across. The list is in path order and without repetition, and it
has every class file below the directory but those that a rule hides (`classFiles_listed`), so that
it is complete exactly if no rule hides one (`ListsClassFiles.complete_iff`), and wherever there are
no ignore files. A rule for a class file takes it out of the list (`ruled_class_left_out`).
-/

namespace ClassViewer.CommandLine

open Disk (Hides Unruled pathBelow)

/-- At the names below the place lies a class file. -/
def IsClassFile (h : Host) (root : Path) (place names : Route) : Prop :=
  h.disk.IsKindBelow h.here "class" root place names

/-- The list is in path order without repetition, and what it has are the class files that are not
hidden. These are all class files exactly if none is hidden, and so where no ignore file lies. -/
structure ListsClassFiles (h : Host) (root : Path) (place : Route) : Prop where
  ordered : (classFiles h root).Pairwise fun p q => p.before q = true
  mem_iff : ∀ p, p ∈ classFiles h root ↔ ∃ names, IsClassFile h root place names ∧
    ¬h.disk.Hides root place names ∧ p = pathBelow root names
  complete_iff : (∀ p, p ∈ classFiles h root ↔
      ∃ names, IsClassFile h root place names ∧ p = pathBelow root names) ↔
    ∀ names, IsClassFile h root place names → ¬h.disk.Hides root place names
  complete_of_unruled : h.disk.Unruled place → ∀ p, p ∈ classFiles h root ↔
    ∃ names, IsClassFile h root place names ∧ p = pathBelow root names

/-- The class files listed for a directory are those below it that no ignore rule hides. -/
theorem classFiles_listed (h : Host) (root : Path) {place : Route} (hd : h.disk.Proper)
    (hplace : h.disk.lookup h.here true root = .ok (place, .directory))
    (hroot : root.same ⟨"-"⟩ = false) : ListsClassFiles h root place := by
  obtain ⟨files, hfiles, hordered, hmem⟩ := Disk.lists_filesOfKind hd hplace hroot "class"
  obtain rfl : classFiles h root = files := by
    rw [classFiles, hfiles]
  have hcomplete : (∀ names, IsClassFile h root place names → ¬h.disk.Hides root place names) →
      ∀ p, p ∈ classFiles h root ↔
        ∃ names, IsClassFile h root place names ∧ p = pathBelow root names := by
    intro hshown p
    rw [hmem]
    constructor
    · rintro ⟨names, hclass, -, hp⟩
      exact ⟨names, hclass, hp⟩
    · rintro ⟨names, hclass, hp⟩
      exact ⟨names, hclass, hshown names hclass, hp⟩
  refine ⟨hordered, hmem, ⟨fun hall names hclass => ?_, hcomplete⟩, fun hunruled =>
    hcomplete fun names _ => Disk.not_hides_of_unruled hunruled root names⟩
  obtain ⟨names', hclass', hshown, hpath⟩ := (hmem _).1 ((hall _).2 ⟨names, hclass, rfl⟩)
  obtain rfl : names = names' := Disk.components_pathBelow_injective
    (Disk.isEntryName_of_mem hd (Disk.mem_entriesBelow_iff.2 ⟨hclass.ne_nil, hclass.lies⟩))
    (Disk.isEntryName_of_mem hd (Disk.mem_entriesBelow_iff.2 ⟨hclass'.ne_nil, hclass'.lies⟩))
    (congrArg Path.components hpath)
  exact hshown

/-! ## A directory with one class file -/

/-- A directory with a class file, and another file beside it. -/
def besideHost (name : String) (bytes : ByteArray) : Host :=
  { (default : Host) with
    disk := ⟨[(["d"], .directory), (["d", "B.class"], .file "x".toUTF8 .nobody),
      (["d", name], .file bytes .nobody)], []⟩ }

section Beside

variable (name : String) (bytes : ByteArray)

theorem lookup_beside :
    (besideHost name bytes).disk.lookup [] true ⟨"d"⟩ = .ok (["d"], .directory) := by
  refine Disk.lookup_of_leadsDirectly ?_
  rfl

theorem isClassFile_beside : IsClassFile (besideHost name bytes) ⟨"d"⟩ ["d"] ["B.class"] where
  ne_nil := by simp
  lies := rfl
  isFile := by
    have hlookup : (besideHost name bytes).disk.lookup [] true (pathBelow ⟨"d"⟩ ["B.class"]) =
        .ok (["d", "B.class"], .file "x".toUTF8 .nobody) := by
      refine Disk.lookup_of_leadsDirectly ?_
      rfl
    exact Disk.isFile_of_lookup hlookup
  extension := by decide

theorem proper_beside (hname : Path.IsEntryName name) (hne : name ≠ "B.class") :
    (besideHost name bytes).disk.Proper := by
  have hnamed : ∀ n ∈ ["d", "B.class"], Path.IsEntryName n := by decide
  constructor
  · simp [besideHost, Ne.symm hne]
  · simp only [besideHost, List.forall_mem_cons]
    simp_all

end Beside

/-- Beside a file of another kind the class file is listed. -/
theorem class_file_listed :
    (⟨"d/B.class"⟩ : Path) ∈ classFiles (besideHost "notes.txt" ByteArray.empty) ⟨"d"⟩ := by
  have hproper : (besideHost "notes.txt" ByteArray.empty).disk.Proper :=
    proper_beside _ _ (by decide) (by decide)
  have hunruled : (besideHost "notes.txt" ByteArray.empty).disk.Unruled ["d"] :=
    Disk.unruled_of_forall (by simp [besideHost, Ignore.fileName]) _
  have hlisted := classFiles_listed (besideHost "notes.txt" ByteArray.empty) ⟨"d"⟩ hproper
    (lookup_beside _ _) (by decide)
  exact (hlisted.complete_of_unruled hunruled _).2 ⟨["B.class"], isClassFile_beside _ _, rfl⟩

/-- An ignore file beside the class file. -/
def ruledHost : Host := besideHost ".ignore" "B.class\n".toUTF8

theorem hides_ruled : ruledHost.disk.Hides ⟨"d"⟩ ["d"] ["B.class"] := by
  have hread : ruledHost.disk.ignoreFile ["d"] = Ignore.Content.ofBytes "B.class\n".toUTF8 := by
    have hlookup : ruledHost.disk.lookup ["d"] true ⟨Ignore.fileName⟩ =
        .ok (["d", ".ignore"], .file "B.class\n".toUTF8 .nobody) := by
      refine Disk.lookup_of_leadsDirectly ?_
      rfl
    rw [Disk.ignoreFile, Disk.read, hlookup]
  generalize hcontent : Ignore.Content.ofBytes "B.class\n".toUTF8 = content at hread
  have hverdict : (Ignore.Book.mk ⟨"d"⟩ content.rules).verdict ⟨"d/B.class"⟩ false = some true := by
    subst hcontent
    decide +kernel
  refine Disk.hides_of_verdict ?_
  rw [hread]
  exact hverdict

/-- Beside an ignore file that names it, the class file is not listed. -/
theorem ruled_class_left_out : IsClassFile ruledHost ⟨"d"⟩ ["d"] ["B.class"] ∧
    classFiles ruledHost ⟨"d"⟩ = [] := by
  refine ⟨isClassFile_beside _ _, ?_⟩
  have hproper : ruledHost.disk.Proper :=
    proper_beside _ _ (by decide) (by decide)
  obtain ⟨files, hfiles, -, hmem⟩ := Disk.lists_filesOfKind hproper
    (lookup_beside ".ignore" "B.class\n".toUTF8) (by decide) "class"
  have hlisted : classFiles ruledHost ⟨"d"⟩ = files := by
    unfold classFiles
    rw [show ruledHost.disk.filesOfKind ruledHost.here "class" ⟨"d"⟩ = .ok files from hfiles]
  rw [hlisted, List.eq_nil_iff_forall_not_mem]
  intro p hp
  obtain ⟨names, hkind, hshown, -⟩ := (hmem p).1 hp
  have hentries : ruledHost.disk.entriesBelow ["d"] = [["B.class"], [".ignore"]] := rfl
  have hnames := Disk.mem_entriesBelow_iff.2 ⟨hkind.ne_nil, hkind.lies⟩
  rw [hentries] at hnames
  obtain rfl | rfl : names = ["B.class"] ∨ names = [".ignore"] := by simpa using hnames
  · exact hshown hides_ruled
  · exact absurd hkind.extension (by decide)

end ClassViewer.CommandLine
