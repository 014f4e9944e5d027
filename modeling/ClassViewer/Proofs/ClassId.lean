import ClassViewer.ClassId
import ClassViewer.Proofs.Text

/-!
# Normal class names

`ClassId.ofName` gives names without backslashes that do not begin with a slash. A name that does
not begin with a slash is its own identifier exactly when it has no backslash and does not end in
the class suffix (`ofName_text_eq_self_iff`). Read the other way, an identifier is spelled with
slashes in front and the class suffix behind it, and `ofName` is the only way to read a spelling
(`ofName_eq_iff`). So the class path of an identifier spells it, and its text spells it exactly when
that does not end in the class suffix (`identifiers_are_normal`).
-/

namespace ClassViewer

theorem classSuffix_ne_empty : classSuffix ≠ "" := by decide

/-- Backslashes become slashes before the suffix as they do behind it. -/
theorem replaceChar_classSuffix : Text.replaceChar '\\' '/' classSuffix = classSuffix :=
  (Text.replaceChar_eq_self_iff (by decide)).2 (by decide)

namespace ClassId

@[ext] theorem ext {a b : ClassId} (h : a.text = b.text) : a = b := by
  cases a
  cases b
  exact congrArg mk h

theorem text_ofName (name : String) : (ofName name).text =
    Text.dropLeading '/' (Text.dropTail classSuffix (Text.replaceChar '\\' '/' name)) :=
  rfl

/-- A name without a slash has no package. -/
theorem package?_eq_none_iff {id : ClassId} : id.package? = none ↔ '/' ∉ id.text.toList := by
  have hparts : id.package? = none ↔ (Text.split '/' id.text).length ≤ 1 := by
    unfold package?
    dsimp only
    split <;> simp [*]
  rw [hparts]
  constructor
  · intro hone hm
    obtain ⟨front, hfront⟩ := Text.exists_eq_append_afterLast hm
    have hfirst := List.length_pos_iff.2 (Text.split_ne_nil '/' front)
    have hlast := List.length_pos_iff.2 (Text.split_ne_nil '/' (Text.afterLast '/' id.text))
    rw [hfront, Text.split_append_sep, List.length_append] at hone
    omega
  · intro hm
    rw [Text.split_eq_singleton hm]
    exact Nat.le_refl 1

theorem not_mem_ofName (name : String) : '\\' ∉ (ofName name).text.toList := by
  intro h
  have h := Text.mem_of_mem_dropTail (Text.mem_of_mem_dropLeading h)
  exact Text.not_mem_replaceChar (by decide) name h

/-- A name that does not begin with a slash is its own identifier exactly when it has no backslash
and does not end in the class suffix. -/
theorem ofName_text_eq_self_iff {name : String} (h : name.toList.head? ≠ some '/') :
    (ofName name).text = name ↔ '\\' ∉ name.toList ∧ Text.endsWith classSuffix name = false := by
  constructor
  · intro hn
    have hb : '\\' ∉ name.toList := hn ▸ not_mem_ofName name
    refine ⟨hb, Bool.eq_false_iff.2 fun hs => ?_⟩
    obtain ⟨r, rfl⟩ := Text.endsWith_iff.1 hs
    rw [text_ofName, (Text.replaceChar_eq_self_iff (by decide)).2 hb, Text.dropTail_append] at hn
    have hl := Text.length_dropLeading_le '/' r
    rw [hn, String.toList_append, List.length_append] at hl
    have hc : classSuffix.toList.length = 6 := by decide
    omega
  · rintro ⟨hb, hs⟩
    rw [text_ofName, (Text.replaceChar_eq_self_iff (by decide)).2 hb,
      (Text.dropTail_eq_self_iff classSuffix_ne_empty).2 hs, Text.dropLeading_eq_self h]

/-- A name is normal if it has no backslash and does not end in the class suffix. -/
def IsNormal (name : String) : Prop :=
  '\\' ∉ name.toList ∧ Text.endsWith classSuffix name = false

theorem head?_ofName (name : String) : (ofName name).text.toList.head? ≠ some '/' :=
  Text.head?_dropLeading '/' _

/-- All that is taken from a name without backslashes that does not begin with a slash is the
suffix. -/
theorem text_ofName_of_clean {name : String} (hb : '\\' ∉ name.toList)
    (hh : name.toList.head? ≠ some '/') : (ofName name).text = Text.dropTail classSuffix name := by
  rw [text_ofName, (Text.replaceChar_eq_self_iff (by decide)).2 hb,
    Text.dropLeading_eq_self fun hc => hh (Text.head?_of_dropTail hc)]

/-! ## Packages -/

/-- The name of a class in a package, or without one. -/
def inPackage (package : Option String) (name : String) : String :=
  match package with
  | some p => p ++ "/" ++ name
  | none => name

/-- An identifier is its package and its simple name. -/
theorem text_eq_inPackage (id : ClassId) : id.text = inPackage id.package? id.simpleName := by
  by_cases hs : '/' ∈ id.text.toList
  · cases hp : id.package? with
    | none => exact absurd hs (package?_eq_none_iff.1 hp)
    | some p =>
      have hjoin : p = Text.join "/" (Text.split '/' id.text).dropLast ∧
          (Text.split '/' id.text).dropLast ≠ [] := by
        unfold package? at hp
        dsimp only at hp
        split at hp
        · cases hp
        · rename_i hmore
          refine ⟨(Option.some.inj hp).symm, List.ne_nil_of_length_pos ?_⟩
          rw [List.length_dropLast]
          omega
      have htext : Text.join "/" (Text.split '/' id.text) = id.text := Text.join_split '/' id.text
      rw [← Text.dropLast_concat_afterLast, Text.join_concat hjoin.2, ← hjoin.1] at htext
      exact htext.symm
  · rw [package?_eq_none_iff.2 hs]
    exact (Text.afterLast_eq_self hs).symm

/-- A simple name is one segment. -/
theorem not_mem_simpleName (id : ClassId) : '/' ∉ id.simpleName.toList :=
  Text.not_mem_afterLast '/' id.text

/-! ## Spellings -/

/-- A name spells an identifier that does not begin with a slash : it is any number of slashes, the
text of the identifier and the class suffix, which may be missing from a name that does not end in
it. Every slash may be a backslash. -/
def Spells (name : String) (id : ClassId) : Prop :=
  id.text.toList.head? ≠ some '/' ∧
    ∃ (slashes : Nat) (stem : String),
      stem.toList = List.replicate slashes '/' ++ id.text.toList ∧
      (Text.replaceChar '\\' '/' name = stem ++ classSuffix ∨
        Text.replaceChar '\\' '/' name = stem ∧
          Text.endsWith classSuffix (Text.replaceChar '\\' '/' name) = false)

/-- The identifier of a name is the one that it spells. -/
theorem ofName_eq_iff {name : String} {id : ClassId} : ofName name = id ↔ Spells name id := by
  rw [ClassId.ext_iff, text_ofName, Text.dropLeading_eq_iff, Spells]
  refine and_congr_right fun _ => exists_congr fun slashes => ?_
  constructor
  · intro hstem
    exact ⟨_, hstem, Text.dropTail_eq_iff.1 rfl⟩
  · rintro ⟨stem, hstem, hname⟩
    rw [Text.dropTail_eq_iff.2 hname]
    exact hstem

/-- The class path of an identifier without backslashes spells it. -/
theorem spells_classPath {id : ClassId} (hb : '\\' ∉ id.text.toList)
    (hh : id.text.toList.head? ≠ some '/') : Spells id.classPath id := by
  refine ⟨hh, 0, id.text, rfl, .inl ?_⟩
  rw [classPath, Text.replaceChar_append, replaceChar_classSuffix,
    (Text.replaceChar_eq_self_iff (by decide)).2 hb]

/-- A name is read as the identifier that it spells, and no other. An identifier has no backslash
and does not begin with a slash, is read back from its class path, and is a package and a simple
name in it. It is read back from its text exactly when that does not end in the class suffix. -/
theorem identifiers_are_normal (name : String) :
    (∀ id, ofName name = id ↔ Spells name id) ∧
    '\\' ∉ (ofName name).text.toList ∧
    (ofName name).text.toList.head? ≠ some '/' ∧
    ofName (ofName name).classPath = ofName name ∧
    (ofName name).text = inPackage (ofName name).package? (ofName name).simpleName ∧
    ((ofName name).package? = none ↔ '/' ∉ (ofName name).text.toList) ∧
    '/' ∉ (ofName name).simpleName.toList ∧
    (ofName (ofName name).text = ofName name ↔
      Text.endsWith classSuffix (ofName name).text = false) := by
  have hb := not_mem_ofName name
  have hh := head?_ofName name
  refine ⟨fun id => ofName_eq_iff, hb, hh, ofName_eq_iff.2 (spells_classPath hb hh),
    text_eq_inPackage _, package?_eq_none_iff, not_mem_simpleName _, ?_⟩
  rw [ClassId.ext_iff, ofName_text_eq_self_iff hh]
  exact and_iff_right hb

/-- One suffix is taken off each time a name is read. -/
example : ofName "\\a/B.class.class" = ⟨"a/B.class"⟩ ∧ ofName "a/B.class" = ⟨"a/B"⟩ := by
  decide +kernel

/-! ## Sorted identifiers -/

theorem pairwise_sort (ids : List ClassId) :
    (ClassId.sort ids).Pairwise fun a b => a.text ≤ b.text := by
  have hsorted : (ClassId.sort ids).Pairwise fun a b => decide (a.text ≤ b.text) = true := by
    refine List.pairwise_mergeSort (fun a b c hab hbc => ?_) (fun a b => ?_) ids
    · simp only [decide_eq_true_eq] at hab hbc ⊢
      exact String.le_trans hab hbc
    · simp only [Bool.or_eq_true, decide_eq_true_eq]
      exact String.le_total a.text b.text
  exact hsorted.imp of_decide_eq_true

theorem perm_sort (ids : List ClassId) : (ClassId.sort ids).Perm ids :=
  List.mergeSort_perm ids _

end ClassId

end ClassViewer
