import ClassViewer.Decompiler
import ClassViewer.Proofs.ArchiveIndex
import ClassViewer.Proofs.Disk.Changes
import ClassViewer.Proofs.Naming

/-!
# The member that is decompiled

An archive member is asked for by the name of its entry and looked up by the identifier made of that
name. The two agree exactly for names that have no backslash and no second class suffix. For any
other name the member that is decompiled is the one of the normal name, if the archive has it, and
none otherwise (`archived_member_by_normal_name`).
-/

namespace ClassViewer

open Archive

/-- An entry inside the archive root does not begin with a slash. -/
theorem Archive.Entry.head?_ne_of_isEnclosed {e : Entry} (he : e.isEnclosed = true) :
    e.name.toList.head? ≠ some '/' := by
  intro hh
  have habs : Path.isAbsolute ⟨e.name⟩ = true := by simp [Path.isAbsolute, hh]
  simp [Entry.isEnclosed, Path.components, habs, depthBelowRoot] at he

/-- The normal name of a class file is that of its entry exactly if the name was normal before. -/
theorem classPath_ofName_eq_iff {e : Entry} (hc : e.isClass = true) {name : String}
    (hname : e.name = name ++ classSuffix) :
    (ClassId.ofName name).classPath = e.name ↔ ClassId.IsNormal name := by
  simp only [Entry.isClass, Bool.and_eq_true] at hc
  have hhead : name.toList.head? ≠ some '/' := by
    intro hh
    apply Entry.head?_ne_of_isEnclosed hc.1.2
    rw [hname, String.toList_append, List.head?_append, hh]
    rfl
  rw [ClassId.IsNormal, ← ClassId.ofName_text_eq_self_iff hhead, hname, ClassId.classPath]
  exact ⟨fun h => by simpa using h, fun h => by rw [h]⟩

/-- A class file among entries without a fault can be read. -/
theorem content_of_no_fault {entries : List (Except ArchiveError Entry)}
    (hf : entries.findSome? fault? = none) {e : Entry} (he : .ok e ∈ entries)
    (hc : e.isClass = true) : ∃ bytes, e.content = .ok bytes := by
  have hnone := List.findSome?_eq_none_iff.1 hf _ he
  cases hb : e.content with
  | ok bytes => exact ⟨bytes, rfl⟩
  | error a => simp [fault?, hb, hc] at hnone

/-- What is decompiled for a class file of an archive : the last class file that has the normal
name, or nothing if there is none. -/
theorem tryDecompile_archived {h : Host} {p : Path} {data : ByteArray}
    {entries : List (Except ArchiveError Entry)} (hfile : h.isFile p = true)
    (hread : h.readMapped p = .ok data) (hent : Archive.entries data = .ok entries)
    (hf : entries.findSome? fault? = none) (name : String) :
    ∃ scope, ∀ (r : Registry) (o : Overrides),
      (r.tryDecompile (.archived (some p) (name ++ classSuffix)) o).run h =
        match lastBytes? entries (ClassId.ofName name).classPath with
        | some bytes => (r.run o ⟨ClassId.ofName name, bytes, scope⟩).run h
        | none => (.error (.notFound (ClassId.ofName name)), h) := by
  obtain ⟨classes, hcol, hlook⟩ := ArchiveIndex.collect_of_no_fault hf []
  have hindex : ArchiveIndex.ofFile h p = .ok ⟨classes, some p⟩ := by
    simp [ArchiveIndex.ofFile, ArchiveIndex.ofBytes, hread, hent, hcol, Except.map]
  have hget : (ArchiveIndex.mk classes (some p)).get? (ClassId.ofName name).text =
      lastBytes? entries (ClassId.ofName name).classPath := by
    rw [ArchiveIndex.get?, hlook, List.lookup_nil, Option.or_none]
    rfl
  have hsub : (Location.archived (some p) (name ++ classSuffix)).subject h =
      match lastBytes? entries (ClassId.ofName name).classPath with
      | some bytes => .ok ⟨ClassId.ofName name, bytes, (ArchiveIndex.mk classes (some p)).scope⟩
      | none => .error (.notFound (ClassId.ofName name)) := by
    cases hb : lastBytes? entries (ClassId.ofName name).classPath <;>
      simp [Location.subject, Location.archiveFile, hfile, Location.className_archived, hindex,
        bind, Except.bind, hget, hb]
  refine ⟨(ArchiveIndex.mk classes (some p)).scope, fun r o => ?_⟩
  simp only [Registry.tryDecompile, StateT.run_bind, StateT.run_get, pure_bind, hsub]
  cases lastBytes? entries (ClassId.ofName name).classPath <;> rfl

/-- For a class file of a readable archive, asked for by the name of its entry, the engine is given
the bytes of the last entry that has this name exactly as far as the name is normal. Any other name
is taken for its normal one, which the entry does not have : the bytes of another class file are
given if there is one of that name, and the class is not found otherwise. -/
theorem archived_member_by_normal_name {h : Host} {p : Path} {data : ByteArray}
    {entries : List (Except ArchiveError Entry)} (hfile : h.isFile p = true)
    (hread : h.readMapped p = .ok data) (hent : Archive.entries data = .ok entries)
    (hf : entries.findSome? fault? = none) {e : Entry} (he : .ok e ∈ entries)
    (hc : e.isClass = true) {name : String} (hname : e.name = name ++ classSuffix) :
    ∃ last bytes scope, IsLastNamed entries e.name last ∧ last.content = .ok bytes ∧
      (ClassId.IsNormal name → ∀ (r : Registry) (o : Overrides),
        (r.tryDecompile (.archived (some p) e.name) o).run h =
          (r.run o ⟨ClassId.ofName name, bytes, scope⟩).run h) ∧
      (¬ClassId.IsNormal name → (ClassId.ofName name).classPath ≠ e.name ∧
        ∀ (r : Registry) (o : Overrides),
          (r.tryDecompile (.archived (some p) e.name) o).run h =
            match lastBytes? entries (ClassId.ofName name).classPath with
            | some other => (r.run o ⟨ClassId.ofName name, other, scope⟩).run h
            | none => (.error (.notFound (ClassId.ofName name)), h)) := by
  obtain ⟨last, hlast⟩ := exists_isLastNamed ⟨e, he, rfl⟩
  have hlc : last.isClass = true := (Entry.isClass_congr hlast.1).trans hc
  have hmem : .ok last ∈ entries := by
    obtain ⟨-, front, back, rfl, -⟩ := hlast
    simp
  obtain ⟨bytes, hbytes⟩ := content_of_no_fault hf hmem hlc
  obtain ⟨scope, hrun⟩ := tryDecompile_archived hfile hread hent hf name
  have hpath := classPath_ofName_eq_iff hc hname
  refine ⟨last, bytes, scope, hlast, hbytes, fun hn r o => ?_, fun hn => ⟨?_, fun r o => ?_⟩⟩
  · rw [hname, hrun, hpath.2 hn, lastBytes?_of_isLastNamed hlast hlc hbytes]
  · exact fun hp => hn (hpath.1 hp)
  · rw [hname, hrun]

/-! ## An archive with names that are not normal -/

/-- An archive with the members `B.class.class`, `B.class` and `a\C.class`, which hold one of the
letters `X`, `Y` and `Z` each. -/
def sampleArchive : ByteArray := ⟨#[
    80, 75, 3, 4, 20, 0, 0, 0, 0, 0, 0, 0, 0, 0, 75, 54, 178, 183, 1, 0, 0, 0, 1, 0, 0, 0, 13, 0,
    0, 0, 66, 46, 99, 108, 97, 115, 115, 46, 99, 108, 97, 115, 115, 88,
    80, 75, 3, 4, 20, 0, 0, 0, 0, 0, 0, 0, 0, 0, 221, 6, 181, 192, 1, 0, 0, 0, 1, 0, 0, 0, 7, 0,
    0, 0, 66, 46, 99, 108, 97, 115, 115, 89,
    80, 75, 3, 4, 20, 0, 0, 0, 0, 0, 0, 0, 0, 0, 103, 87, 188, 89, 1, 0, 0, 0, 1, 0, 0, 0, 9, 0,
    0, 0, 97, 92, 67, 46, 99, 108, 97, 115, 115, 90,
    80, 75, 1, 2, 20, 0, 20, 0, 0, 0, 0, 0, 0, 0, 0, 0, 75, 54, 178, 183, 1, 0, 0, 0, 1, 0, 0, 0,
    13, 0, 0, 0, 0, 0, 0, 0, 0, 0, 0, 0, 0, 0, 0, 0, 0, 0, 66, 46, 99, 108, 97, 115, 115, 46, 99,
    108, 97, 115, 115,
    80, 75, 1, 2, 20, 0, 20, 0, 0, 0, 0, 0, 0, 0, 0, 0, 221, 6, 181, 192, 1, 0, 0, 0, 1, 0, 0, 0,
    7, 0, 0, 0, 0, 0, 0, 0, 0, 0, 0, 0, 0, 0, 44, 0, 0, 0, 66, 46, 99, 108, 97, 115, 115,
    80, 75, 1, 2, 20, 0, 20, 0, 0, 0, 0, 0, 0, 0, 0, 0, 103, 87, 188, 89, 1, 0, 0, 0, 1, 0, 0, 0,
    9, 0, 0, 0, 0, 0, 0, 0, 0, 0, 0, 0, 0, 0, 82, 0, 0, 0, 97, 92, 67, 46, 99, 108, 97, 115, 115,
    80, 75, 5, 6, 0, 0, 0, 0, 3, 0, 3, 0, 167, 0, 0, 0, 122, 0, 0, 0, 0, 0]⟩

/-- A machine with the archive in the directory it works in. -/
def sampleHost : Host :=
  { (default : Host) with disk := Disk.holding "lib.jar" sampleArchive }

theorem sampleHost_reads : sampleHost.isFile ⟨"lib.jar"⟩ = true ∧
    sampleHost.readMapped ⟨"lib.jar"⟩ = .ok sampleArchive := by
  have hplain : Disk.isPlain "lib.jar" = true := by decide +kernel
  have hlookup : sampleHost.disk.lookup sampleHost.here true ⟨"lib.jar"⟩ =
      .ok (["lib.jar"], .file sampleArchive .nobody) := Disk.lookup_holding hplain _
  simp [Host.isFile, Host.readMapped, Disk.isFile, Disk.readMapped, hlookup]

theorem entries_sampleArchive : ∃ entries, Archive.entries sampleArchive = .ok entries ∧
    entries.findSome? fault? = none ∧ lastBytes? entries "B.class.class" = some "X".toUTF8 ∧
    lastBytes? entries "B.class" = some "Y".toUTF8 ∧
    lastBytes? entries "a\\C.class" = some "Z".toUTF8 ∧ lastBytes? entries "a/C.class" = none := by
  have hall : ((Archive.entries sampleArchive).toOption.map fun entries =>
      (entries.findSome? fault?, lastBytes? entries "B.class.class", lastBytes? entries "B.class",
        lastBytes? entries "a\\C.class", lastBytes? entries "a/C.class")) =
      some (none, some "X".toUTF8, some "Y".toUTF8, some "Z".toUTF8, none) := by
    decide +kernel
  generalize Archive.entries sampleArchive = read at hall
  cases read with
  | error e => cases hall
  | ok entries => exact ⟨entries, rfl, by simpa [Except.toOption] using hall⟩

/-- The members `B.class.class` and `a\C.class` have the bytes `X` and `Z` : the engine is given `Y`
for the first, and the other is not found. -/
theorem sample_members_lost :
    ∃ entries, Archive.entries sampleArchive = .ok entries ∧
      lastBytes? entries "B.class.class" = some "X".toUTF8 ∧
      lastBytes? entries "a\\C.class" = some "Z".toUTF8 ∧
      (∃ scope, ∀ (r : Registry) (o : Overrides),
        (r.tryDecompile (.archived (some ⟨"lib.jar"⟩) "B.class.class") o).run sampleHost =
          (r.run o ⟨⟨"B"⟩, "Y".toUTF8, scope⟩).run sampleHost) ∧
      (∀ (r : Registry) (o : Overrides),
        (r.tryDecompile (.archived (some ⟨"lib.jar"⟩) "a\\C.class") o).run sampleHost =
          (.error (.notFound ⟨"a/C"⟩), sampleHost)) := by
  obtain ⟨entries, hent, hf, hx, hy, hz, hnone⟩ := entries_sampleArchive
  obtain ⟨hfile, hread⟩ := sampleHost_reads
  have hdoubled : "B.class" ++ classSuffix = "B.class.class" ∧
      ClassId.ofName "B.class" = ⟨"B"⟩ ∧ ClassId.classPath ⟨"B"⟩ = "B.class" := by decide +kernel
  have hback : "a\\C" ++ classSuffix = "a\\C.class" ∧
      ClassId.ofName "a\\C" = ⟨"a/C"⟩ ∧ ClassId.classPath ⟨"a/C"⟩ = "a/C.class" := by
    decide +kernel
  obtain ⟨scope, hrun⟩ := tryDecompile_archived hfile hread hent hf "B.class"
  obtain ⟨_, hrun'⟩ := tryDecompile_archived hfile hread hent hf "a\\C"
  simp only [hdoubled, hy] at hrun
  simp only [hback, hnone] at hrun'
  exact ⟨entries, hent, hx, hz, ⟨scope, hrun⟩, hrun'⟩

/-- The member `B.class` has the bytes `Y`, and the engine is given them. -/
theorem sample_member_given : ∃ scope, ∀ (r : Registry) (o : Overrides),
    (r.tryDecompile (.archived (some ⟨"lib.jar"⟩) "B.class") o).run sampleHost =
      (r.run o ⟨⟨"B"⟩, "Y".toUTF8, scope⟩).run sampleHost := by
  obtain ⟨entries, hent, hf, -, hy, -, -⟩ := entries_sampleArchive
  obtain ⟨hfile, hread⟩ := sampleHost_reads
  obtain ⟨e, he, hc, hn⟩ := exists_of_lastBytes? hy
  have hname : "B.class" = "B" ++ classSuffix ∧ ClassId.ofName "B" = ⟨"B"⟩ := by decide +kernel
  have hnormal : ClassId.IsNormal "B" := ⟨by decide, by decide +kernel⟩
  obtain ⟨last, bytes, scope, hlast, hbytes, hgiven, -⟩ :=
    archived_member_by_normal_name hfile hread hent hf he hc (hn.trans hname.1)
  have hlc : last.isClass = true := (Entry.isClass_congr hlast.1).trans hc
  have hlb := lastBytes?_of_isLastNamed hlast hlc hbytes
  rw [hn, hy] at hlb
  obtain rfl := Option.some.inj hlb
  rw [hn, hname.2] at hgiven
  exact ⟨scope, hgiven hnormal⟩

end ClassViewer
