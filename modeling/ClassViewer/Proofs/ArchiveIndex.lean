import ClassViewer.Scope
import ClassViewer.Proofs.ClassId
import ClassViewer.Proofs.Lookup

/-!
# The index of an archive

An archive is indexed if every entry can be opened and every class file among them be read. The
index then holds under a name the bytes of the last class file whose entry has the name and the
suffix (`collect_of_no_fault`). Otherwise the first fault is that of the whole (`collect_of_fault`).
-/

namespace ClassViewer

namespace Archive

/-- Whether an entry is a class file of the archive : no directory, inside the root, and with the
suffix. All of it is decided by the name. -/
def Entry.isClass (e : Entry) : Bool :=
  !e.isDirectory && e.isEnclosed && Text.endsWith classSuffix e.name

theorem Entry.isClass_congr {e e' : Entry} (h : e.name = e'.name) : e.isClass = e'.isClass := by
  simp [isClass, isDirectory, isEnclosed, h]

/-- Why an archive with this entry cannot be indexed, if it cannot. -/
def fault? : Except ArchiveError Entry → Option DecompileError
  | .error e => some (.archive e)
  | .ok entry =>
    match entry.content with
    | .error e => if entry.isClass then some (.io e) else none
    | .ok _ => none

/-- The bytes an entry gives for a class file of that name. -/
def bytesFor? (name : String) : Except ArchiveError Entry → Option ByteArray
  | .error _ => none
  | .ok entry => if entry.isClass && entry.name == name then entry.content.toOption else none

/-- The bytes of the last class file of that name. -/
def lastBytes? (entries : List (Except ArchiveError Entry)) (name : String) : Option ByteArray :=
  (entries.filterMap (bytesFor? name)).getLast?

theorem lastBytes?_cons (x : Except ArchiveError Entry)
    (entries : List (Except ArchiveError Entry)) (name : String) :
    lastBytes? (x :: entries) name = (lastBytes? entries name).or (bytesFor? name x) := by
  unfold lastBytes?
  cases hx : bytesFor? name x with
  | none => rw [List.filterMap_cons_none hx, Option.or_none]
  | some b => rw [List.filterMap_cons_some hx, getLast?_cons_or]

theorem exists_of_lastBytes? {entries : List (Except ArchiveError Entry)} {name : String}
    {bytes : ByteArray} (h : lastBytes? entries name = some bytes) :
    ∃ e, .ok e ∈ entries ∧ e.isClass = true ∧ e.name = name := by
  obtain ⟨x, hx, hb⟩ := List.mem_filterMap.1 (List.mem_of_getLast? h)
  cases x with
  | error e => cases hb
  | ok e =>
    rw [bytesFor?] at hb
    split at hb
    · rename_i hc
      rw [Bool.and_eq_true, beq_iff_eq] at hc
      exact ⟨e, hx, hc.1, hc.2⟩
    · cases hb

/-- The entry is the last one that has the name. -/
def IsLastNamed (entries : List (Except ArchiveError Entry)) (name : String) (e : Entry) : Prop :=
  e.name = name ∧ ∃ front back, entries = front ++ .ok e :: back ∧
    ∀ e', .ok e' ∈ back → e'.name ≠ name

theorem exists_isLastNamed {entries : List (Except ArchiveError Entry)} {name : String}
    (h : ∃ e, .ok e ∈ entries ∧ e.name = name) : ∃ last, IsLastNamed entries name last := by
  induction entries with
  | nil =>
    obtain ⟨e, he, -⟩ := h
    cases he
  | cons x rest ih =>
    by_cases hr : ∃ e, .ok e ∈ rest ∧ e.name = name
    · obtain ⟨last, hn, front, back, rfl, hback⟩ := ih hr
      exact ⟨last, hn, x :: front, back, rfl, hback⟩
    · obtain ⟨e, he, hn⟩ := h
      rcases List.mem_cons.1 he with rfl | he
      · exact ⟨e, hn, [], rest, rfl, fun e' he' hn' => hr ⟨e', he', hn'⟩⟩
      · exact absurd ⟨e, he, hn⟩ hr

/-- The bytes of the last class file of a name are those of the last entry that has the name. -/
theorem lastBytes?_of_isLastNamed {entries : List (Except ArchiveError Entry)} {name : String}
    {e : Entry} (hl : IsLastNamed entries name e) (hc : e.isClass = true) {bytes : ByteArray}
    (hb : e.content = .ok bytes) : lastBytes? entries name = some bytes := by
  obtain ⟨hn, front, back, rfl, hback⟩ := hl
  have hnone : back.filterMap (bytesFor? name) = [] := by
    rw [List.filterMap_eq_nil_iff]
    intro x hx
    match x, hx with
    | .error _, _ => rfl
    | .ok e', hx => simp [bytesFor?, hback e' hx]
  have hsome : bytesFor? name (.ok e) = some bytes := by
    simp [bytesFor?, hc, hn, hb, Except.toOption]
  rw [lastBytes?, List.filterMap_append, List.filterMap_cons_some hsome, hnone,
    List.getLast?_concat]

end Archive

open Archive

namespace ArchiveIndex

theorem collect_cons_of_not_isClass {entry : Entry} (hc : entry.isClass = false)
    (acc : List (String × ByteArray)) (rest : List (Except ArchiveError Entry)) :
    collect acc (.ok entry :: rest) = collect acc rest := by
  unfold Entry.isClass at hc
  rw [collect]
  split
  · rfl
  · rename_i hd
    split
    · rfl
    · rename_i name hname
      have hend := Text.endsWith_iff.2 ⟨name, Text.dropTail?_eq_some_iff.1 hname⟩
      simp only [Bool.or_eq_true, Bool.not_eq_true', not_or, Bool.not_eq_false] at hd
      simp [hend, hd] at hc

theorem collect_cons_of_isClass {entry : Entry} (hc : entry.isClass = true) {name : String}
    (hname : entry.name = name ++ classSuffix) (acc : List (String × ByteArray))
    (rest : List (Except ArchiveError Entry)) :
    collect acc (.ok entry :: rest) =
      match entry.content with
      | .error e => .error (.io e)
      | .ok bytes => collect ((name, bytes) :: acc.filter (·.1 != name)) rest := by
  simp only [Entry.isClass, Bool.and_eq_true, Bool.not_eq_true'] at hc
  rw [collect, hc.1.1, hc.1.2, Text.dropTail?_eq_some_iff.2 hname]
  rfl

theorem exists_name_of_isClass {entry : Entry} (hc : entry.isClass = true) :
    ∃ name, entry.name = name ++ classSuffix := by
  simp only [Entry.isClass, Bool.and_eq_true] at hc
  exact Text.endsWith_iff.1 hc.2

/-- The first fault among the entries fails the whole. -/
theorem collect_of_fault {entries : List (Except ArchiveError Entry)} {e : DecompileError}
    (hf : entries.findSome? fault? = some e) (acc : List (String × ByteArray)) :
    collect acc entries = .error e := by
  induction entries generalizing acc with
  | nil => simp at hf
  | cons x rest ih =>
    rw [List.findSome?_cons] at hf
    match x with
    | .error a =>
      obtain rfl := Option.some.inj hf
      rfl
    | .ok entry =>
      cases hc : entry.isClass with
      | false =>
        rw [collect_cons_of_not_isClass hc]
        refine ih ?_ acc
        cases hcont : entry.content <;> simpa [fault?, hcont, hc] using hf
      | true =>
        obtain ⟨name, hname⟩ := exists_name_of_isClass hc
        rw [collect_cons_of_isClass hc hname]
        cases hcont : entry.content with
        | error a =>
          simp only [fault?, hcont, hc] at hf
          obtain rfl := Option.some.inj hf
          rfl
        | ok bytes =>
          simp only [fault?, hcont] at hf
          exact ih hf _

/-- Without a fault there is an index, and it holds for each name what the last class file of the
name has, or what was there before. -/
theorem collect_of_no_fault {entries : List (Except ArchiveError Entry)}
    (hf : entries.findSome? fault? = none) (acc : List (String × ByteArray)) :
    ∃ classes, collect acc entries = .ok classes ∧ ∀ name,
      classes.lookup name = (lastBytes? entries (name ++ classSuffix)).or (acc.lookup name) := by
  induction entries generalizing acc with
  | nil => exact ⟨acc, rfl, fun name => rfl⟩
  | cons x rest ih =>
    rw [List.findSome?_cons] at hf
    match x with
    | .error a => cases hf
    | .ok entry =>
      cases hc : entry.isClass with
      | false =>
        have hrest : rest.findSome? fault? = none := by
          cases hcont : entry.content <;> simpa [fault?, hcont, hc] using hf
        obtain ⟨classes, hcol, hlook⟩ := ih hrest acc
        refine ⟨classes, by rw [collect_cons_of_not_isClass hc, hcol], fun name => ?_⟩
        rw [hlook, lastBytes?_cons]
        simp [bytesFor?, hc]
      | true =>
        obtain ⟨name, hname⟩ := exists_name_of_isClass hc
        cases hcont : entry.content with
        | error a => simp [fault?, hcont, hc] at hf
        | ok bytes =>
          simp only [fault?, hcont] at hf
          obtain ⟨classes, hcol, hlook⟩ := ih hf ((name, bytes) :: acc.filter (·.1 != name))
          refine ⟨classes, ?_, fun other => ?_⟩
          · rw [collect_cons_of_isClass hc hname, hcont]
            exact hcol
          · rw [hlook, lastBytes?_cons, Option.or_assoc]
            congr 1
            by_cases ho : other = name
            · subst ho
              simp [bytesFor?, hc, hname, hcont, Except.toOption]
            · have hb : bytesFor? (other ++ classSuffix) (.ok entry) = none := by
                simp [bytesFor?, hname, Ne.symm ho]
              rw [hb, lookup_cons_of_ne ho, lookup_filter (· != name)]
              simp [ho]

end ArchiveIndex

end ClassViewer
