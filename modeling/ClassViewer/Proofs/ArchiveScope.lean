import ClassViewer.Proofs.ArchiveMember
import Mathlib.Data.Set.Card

/-!
# What an archive answers

An archive cannot be indexed if an entry cannot be opened or a class file among the entries cannot
be read; the first such entry says why (`ofEntries_eq_error_iff`). Otherwise its scope has exactly
the class files among the entries, each under its name without the suffix and with the bytes of the
last entry of the name (`ArchiveIndex.Serves`). The names are kept apart as the entries write them,
but listed as identifiers : a class is listed twice if two names have one identifier.
`archive_serves_its_class_files` puts this together.
-/

namespace ClassViewer

open Archive

namespace Archive

/-- The entry is the class file of that name : no directory, inside the root, and named so with the
suffix. -/
structure Entry.IsClassOf (e : Entry) (name : String) : Prop where
  isDirectory : e.isDirectory = false
  isEnclosed : e.isEnclosed = true
  name_eq : e.name = name ++ classSuffix

/-- There is a class file of that name among the entries. -/
def HasClass (entries : List (Except ArchiveError Entry)) (name : String) : Prop :=
  ∃ e, .ok e ∈ entries ∧ e.IsClassOf name

/-- The entry is the last class file of that name. -/
def IsLastClassOf (entries : List (Except ArchiveError Entry)) (name : String) (e : Entry) : Prop :=
  e.IsClassOf name ∧ ∃ front back, entries = front ++ .ok e :: back ∧
    ∀ e', .ok e' ∈ back → ¬e'.IsClassOf name

/-- The first entry that is at fault fails the archive with this error. -/
def FirstFault (entries : List (Except ArchiveError Entry)) (e : DecompileError) : Prop :=
  ∃ front x back, entries = front ++ x :: back ∧ fault? x = some e ∧ ∀ y ∈ front, fault? y = none

variable {entries : List (Except ArchiveError Entry)} {name : String} {e : Entry}

theorem Entry.isClassOf_iff :
    e.IsClassOf name ↔ e.isClass = true ∧ e.name = name ++ classSuffix := by
  constructor
  · rintro ⟨hd, hin, hname⟩
    have hend : Text.endsWith classSuffix e.name = true := Text.endsWith_iff.2 ⟨name, hname⟩
    exact ⟨by simp [isClass, hd, hin, hend], hname⟩
  · rintro ⟨hc, hname⟩
    simp only [isClass, Bool.and_eq_true, Bool.not_eq_true'] at hc
    exact ⟨hc.1.1, hc.1.2, hname⟩

/-- Whether an entry is a class file depends on its name only. -/
theorem Entry.IsClassOf.congr {e' : Entry} (h : e.IsClassOf name) (hname : e'.name = e.name) :
    e'.IsClassOf name := by
  rw [Entry.isClassOf_iff] at h ⊢
  rwa [hname, Entry.isClass_congr hname]

theorem IsLastClassOf.isLastNamed (h : IsLastClassOf entries name e) :
    IsLastNamed entries (name ++ classSuffix) e := by
  obtain ⟨hc, front, back, hsplit, hback⟩ := h
  refine ⟨hc.name_eq, front, back, hsplit, fun e' he' hname => hback e' he' ?_⟩
  exact hc.congr (hname.trans hc.name_eq.symm)

/-- Where there is a class file of a name, there is a last one. -/
theorem HasClass.exists_last (h : HasClass entries name) : ∃ e, IsLastClassOf entries name e := by
  obtain ⟨e, he, hc⟩ := h
  obtain ⟨last, hname, front, back, hsplit, hback⟩ := exists_isLastNamed ⟨e, he, hc.name_eq⟩
  refine ⟨last, hc.congr (hname.trans hc.name_eq.symm), front, back, hsplit, fun e' he' hc' => ?_⟩
  exact hback e' he' hc'.name_eq

/-- Without a fault, the last class file of a name gives the bytes for the name. -/
theorem IsLastClassOf.exists_bytes (h : IsLastClassOf entries name e)
    (hf : entries.findSome? fault? = none) :
    ∃ bytes, e.content = .ok bytes ∧ lastBytes? entries (name ++ classSuffix) = some bytes := by
  have hc := (Entry.isClassOf_iff.1 h.1).1
  have hmem : .ok e ∈ entries := by
    obtain ⟨-, front, back, rfl, -⟩ := h
    simp
  obtain ⟨bytes, hbytes⟩ := content_of_no_fault hf hmem hc
  exact ⟨bytes, hbytes, lastBytes?_of_isLastNamed h.isLastNamed hc hbytes⟩

/-- Without a fault, there are bytes for exactly the names of class files. -/
theorem isSome_lastBytes?_iff (hf : entries.findSome? fault? = none) :
    (lastBytes? entries (name ++ classSuffix)).isSome = true ↔ HasClass entries name := by
  constructor
  · intro h
    obtain ⟨bytes, hbytes⟩ := Option.isSome_iff_exists.1 h
    obtain ⟨e, he, hc, hname⟩ := exists_of_lastBytes? hbytes
    exact ⟨e, he, Entry.isClassOf_iff.2 ⟨hc, hname⟩⟩
  · intro h
    obtain ⟨e, he⟩ := h.exists_last
    obtain ⟨bytes, -, hbytes⟩ := he.exists_bytes hf
    rw [hbytes]
    rfl

end Archive

namespace ArchiveIndex

/-- The index of a sequence of entries. -/
def ofEntries (entries : List (Except ArchiveError Entry)) : Except DecompileError ArchiveIndex :=
  (collect [] entries).map fun classes => ⟨classes, none⟩

/-- The index has the class files among the entries, and its scope answers for them. -/
structure Serves (index : ArchiveIndex) (entries : List (Except ArchiveError Entry)) : Prop where
  /-- A class has bytes if there is a class file of its name. -/
  isSome_get?_iff : ∀ name, (index.get? name).isSome = true ↔ HasClass entries name
  canLoad_iff : ∀ h name, index.scope.canLoad h name = true ↔ HasClass entries name
  load_iff : ∀ h name, (∃ blob, index.scope.load h name = .ok blob) ↔ HasClass entries name
  /-- The bytes are those of the last class file of the name. -/
  last : ∀ {name e}, IsLastClassOf entries name e → ∃ bytes, e.content = .ok bytes ∧
    index.get? name = some bytes ∧
    ∀ h, index.scope.load h name = .ok ⟨ClassId.ofName name, bytes⟩
  /-- Any other class is not found, and is named by its identifier. -/
  notFound : ∀ h {name}, ¬HasClass entries name →
    index.scope.load h name = .error (.notFound (ClassId.ofName name))
  /-- There are as many classes as names of class files. -/
  size : (index.size : ℕ∞) = {name | HasClass entries name}.encard
  sorted : ∀ h, (index.scope.classNames h).Pairwise fun a b => a.text ≤ b.text
  /-- One class is listed for each name, and it is the identifier of the name. -/
  length_classNames : ∀ h, (index.scope.classNames h).length = index.size
  mem_classNames_iff : ∀ h id, id ∈ index.scope.classNames h ↔
    ∃ name, HasClass entries name ∧ ClassId.ofName name = id
  /-- If the names are identifiers themselves, each is listed once and can be loaded. -/
  distinct : (∀ name, HasClass entries name → (ClassId.ofName name).text = name) → ∀ h,
    (index.scope.classNames h).Nodup ∧
      ∀ id ∈ index.scope.classNames h, ∃ bytes, index.scope.load h id.text = .ok ⟨id, bytes⟩

/-- The classes are listed by the identifiers of their names, in order. -/
theorem perm_classNames (index : ArchiveIndex) (h : Host) : (index.scope.classNames h).Perm
    ((index.classes.map Prod.fst).map ClassId.ofName) := by
  rw [List.map_map]
  exact ClassId.perm_sort _

variable {entries : List (Except ArchiveError Entry)}

/-- The index of an archive is that of its entries. -/
theorem ofBytes_of_entries {data : ByteArray} (h : Archive.entries data = .ok entries) :
    ofBytes data = ofEntries entries := by
  rw [ofBytes, h]
  rfl

theorem ofEntries_eq_error_iff {e : DecompileError} :
    ofEntries entries = .error e ↔ FirstFault entries e := by
  rw [FirstFault, ← List.findSome?_eq_some_iff]
  cases hf : entries.findSome? fault? with
  | some e' =>
    rw [ofEntries, collect_of_fault hf, Except.map, Except.error.injEq, Option.some.injEq]
  | none =>
    obtain ⟨classes, hcol, -⟩ := collect_of_no_fault hf []
    simp [ofEntries, hcol, Except.map]

/-- Collecting keeps the names apart. -/
theorem nodup_collect {acc classes : List (String × ByteArray)} (hacc : (acc.map Prod.fst).Nodup)
    (h : collect acc entries = .ok classes) : (classes.map Prod.fst).Nodup := by
  induction entries generalizing acc with
  | nil =>
    obtain rfl := Except.ok.inj h
    exact hacc
  | cons x rest ih =>
    match x with
    | .error a => cases h
    | .ok entry =>
      cases hc : entry.isClass with
      | false =>
        rw [collect_cons_of_not_isClass hc] at h
        exact ih hacc h
      | true =>
        obtain ⟨name, hname⟩ := exists_name_of_isClass hc
        rw [collect_cons_of_isClass hc hname] at h
        cases hcont : entry.content with
        | error a =>
          rw [hcont] at h
          cases h
        | ok bytes =>
          rw [hcont] at h
          refine ih ?_ h
          rw [List.map_cons, List.nodup_cons]
          refine ⟨fun hmem => ?_, hacc.sublist (List.filter_sublist.map Prod.fst)⟩
          obtain ⟨c, hmem, rfl⟩ := List.mem_map.1 hmem
          simpa using (List.mem_filter.1 hmem).2

/-- What was collected from entries without a fault : the names are kept apart, and each has the
bytes of the last class file of the name. -/
structure Collects (index : ArchiveIndex) (entries : List (Except ArchiveError Entry)) : Prop where
  faultless : entries.findSome? fault? = none
  nodup : (index.classes.map Prod.fst).Nodup
  get?_eq : ∀ name, index.get? name = lastBytes? entries (name ++ classSuffix)

theorem exists_collects (hf : entries.findSome? fault? = none) :
    ∃ index, ofEntries entries = .ok index ∧ index.Collects entries := by
  obtain ⟨classes, hcol, hlookup⟩ := collect_of_no_fault hf []
  refine ⟨⟨classes, none⟩, by rw [ofEntries, hcol]; rfl, hf, ?_, fun name => ?_⟩
  · have hempty : (([] : List (String × ByteArray)).map Prod.fst).Nodup := List.nodup_nil
    exact nodup_collect hempty hcol
  · rw [get?, hlookup, List.lookup_nil, Option.or_none]

namespace Collects

variable {index : ArchiveIndex} (hi : index.Collects entries) {name : String}

include hi

theorem isSome_get?_iff : (index.get? name).isSome = true ↔ HasClass entries name := by
  rw [hi.get?_eq]
  exact isSome_lastBytes?_iff hi.faultless

theorem mem_names_iff : name ∈ index.classes.map Prod.fst ↔ HasClass entries name := by
  rw [← hi.isSome_get?_iff, get?, List.lookup_isSome_iff, List.mem_map]
  refine exists_congr fun c => and_congr_right fun _ => ?_
  rw [beq_iff_eq, eq_comm]

theorem exists_bytes {e : Entry} (he : IsLastClassOf entries name e) :
    ∃ bytes, e.content = .ok bytes ∧ index.get? name = some bytes := by
  obtain ⟨bytes, hbytes, hlast⟩ := he.exists_bytes hi.faultless
  exact ⟨bytes, hbytes, (hi.get?_eq name).trans hlast⟩

theorem load_of_hasClass (h : Host) (hc : HasClass entries name) :
    ∃ bytes, index.scope.load h name = .ok ⟨ClassId.ofName name, bytes⟩ := by
  obtain ⟨bytes, hbytes⟩ := Option.isSome_iff_exists.1 (hi.isSome_get?_iff.2 hc)
  exact ⟨bytes, by simp only [scope, hbytes]⟩

theorem load_of_not_hasClass (h : Host) (hc : ¬HasClass entries name) :
    index.scope.load h name = .error (.notFound (ClassId.ofName name)) := by
  have hnone : index.get? name = none := by
    rw [← Option.not_isSome_iff_eq_none]
    exact fun hsome => hc (hi.isSome_get?_iff.1 hsome)
  simp only [scope, hnone]

theorem size_eq : (index.size : ℕ∞) = {name | HasClass entries name}.encard := by
  have hnames : {name | HasClass entries name} =
      ((index.classes.map Prod.fst).toFinset : Set String) := by
    refine Set.ext fun name => ?_
    rw [Finset.mem_coe, List.mem_toFinset, hi.mem_names_iff]
    rfl
  rw [hnames, Set.encard_coe_eq_coe_finsetCard, List.toFinset_card_of_nodup hi.nodup,
    List.length_map, size]

theorem mem_classNames_iff (h : Host) (id : ClassId) : id ∈ index.scope.classNames h ↔
    ∃ name, HasClass entries name ∧ ClassId.ofName name = id := by
  rw [(index.perm_classNames h).mem_iff, List.mem_map]
  exact exists_congr fun name => and_congr_left fun _ => hi.mem_names_iff

/-- Identifiers of different names are different if they have the names for their text. -/
theorem nodup_classNames (h : Host)
    (hfixed : ∀ name, HasClass entries name → (ClassId.ofName name).text = name) :
    (index.scope.classNames h).Nodup := by
  rw [(index.perm_classNames h).nodup_iff]
  refine hi.nodup.map_on fun name hname other hother heq => ?_
  rw [← hfixed name (hi.mem_names_iff.1 hname), heq, hfixed other (hi.mem_names_iff.1 hother)]

theorem serves : index.Serves entries where
  isSome_get?_iff _ := hi.isSome_get?_iff
  canLoad_iff _ _ := hi.isSome_get?_iff
  load_iff h name := by
    constructor
    · rintro ⟨blob, hblob⟩
      by_contra hc
      rw [hi.load_of_not_hasClass h hc] at hblob
      cases hblob
    · intro hc
      obtain ⟨bytes, hbytes⟩ := hi.load_of_hasClass h hc
      exact ⟨_, hbytes⟩
  last he := by
    obtain ⟨bytes, hbytes, hget⟩ := hi.exists_bytes he
    exact ⟨bytes, hbytes, hget, fun h => by simp only [scope, hget]⟩
  notFound h _ hc := hi.load_of_not_hasClass h hc
  size := hi.size_eq
  sorted _ := ClassId.pairwise_sort _
  length_classNames h := by
    rw [(index.perm_classNames h).length_eq, List.length_map, List.length_map, size]
  mem_classNames_iff := hi.mem_classNames_iff
  distinct hfixed h := by
    refine ⟨hi.nodup_classNames h hfixed, fun id hid => ?_⟩
    obtain ⟨name, hc, rfl⟩ := (hi.mem_classNames_iff h id).1 hid
    rw [hfixed name hc]
    exact hi.load_of_hasClass h hc

end Collects

/-- An archive is indexed unless an entry cannot be opened or a class file in it cannot be read, and
then the first such entry tells why. The scope of the index has exactly the class files, with the
bytes of the last one of each name. -/
theorem archive_serves_its_class_files (entries : List (Except ArchiveError Entry)) :
    (∀ data, Archive.entries data = .ok entries → ofBytes data = ofEntries entries) ∧
    (∀ e, ofEntries entries = .error e ↔ FirstFault entries e) ∧
    ((∀ x ∈ entries, fault? x = none) →
      ∃ index, ofEntries entries = .ok index ∧ index.Serves entries) := by
  refine ⟨fun _ h => ofBytes_of_entries h, fun _ => ofEntries_eq_error_iff, fun hnone => ?_⟩
  obtain ⟨index, hindex, hi⟩ := exists_collects (List.findSome?_eq_none_iff.2 hnone)
  exact ⟨index, hindex, hi.serves⟩

/-- Two names may have one identifier. They are kept apart, and the identifier is listed twice. -/
example :
    let read := ofEntries
      [.ok ⟨"B.class.class", .ok "X".toUTF8⟩, .ok ⟨"B.class", .ok "Y".toUTF8⟩]
    (read.map fun index => (index.get? "B.class", index.get? "B",
        index.classes.map fun c => ClassId.ofName c.1)).toOption =
      some (some "X".toUTF8, some "Y".toUTF8, [⟨"B"⟩, ⟨"B"⟩]) := by
  decide +kernel

end ArchiveIndex

end ClassViewer
