import ClassViewer.Proofs.Lines.Realign

/-!
# Blank lines

`Spaced ls ms` says that the lines `ms` are the lines `ls` with blank ones put between them, and
`Respaced s t` says it of the lines of two texts. Realigning a text respaces it
(`respaced_realign`), and texts that end their last line can be respaced one by one
(`Respaced.append`).
-/

namespace ClassViewer

/-! ## Lines -/

/-- The lines on the right are those on the left, in their order, with blank lines put in. -/
inductive Spaced : List String → List String → Prop
  | nil : Spaced [] []
  | blank {ls ms : List String} : Spaced ls ms → Spaced ls ("" :: ms)
  | line {ls ms : List String} (l : String) : Spaced ls ms → Spaced (l :: ls) (l :: ms)

namespace Spaced

variable {ls ms ls' ms' : List String}

theorem refl (ls : List String) : Spaced ls ls := by
  induction ls with
  | nil => exact .nil
  | cons l ls ih => exact .line l ih

theorem append (h : Spaced ls ms) (h' : Spaced ls' ms') : Spaced (ls ++ ls') (ms ++ ms') := by
  induction h with
  | nil => exact h'
  | blank _ ih => exact .blank ih
  | line l _ ih => exact .line l ih

theorem blanks_append (n : Nat) (h : Spaced ls ms) : Spaced ls (List.replicate n "" ++ ms) := by
  induction n with
  | zero => exact h
  | succ n ih => exact .blank ih

/-- Every line is one of those there were, or blank. -/
theorem mem (h : Spaced ls ms) {m : String} (hm : m ∈ ms) : m = "" ∨ m ∈ ls := by
  induction h with
  | nil => cases hm
  | blank _ ih =>
    rcases List.mem_cons.1 hm with rfl | hm
    · exact .inl rfl
    · exact ih hm
  | line l _ ih =>
    rcases List.mem_cons.1 hm with rfl | hm
    · exact .inr List.mem_cons_self
    · exact (ih hm).imp_right (List.mem_cons_of_mem l)

theorem ne_nil (h : Spaced ls ms) (hne : ls ≠ []) : ms ≠ [] := by
  cases h with
  | nil => exact absurd rfl hne
  | blank _ => simp
  | line _ _ => simp

/-- A blank line there was may be taken for one that was put in. -/
theorem of_cons_blank (h : Spaced ("" :: ls) ms) : Spaced ls ms := by
  generalize hl : "" :: ls = all at h
  induction h with
  | nil => cases hl
  | blank _ ih => exact .blank (ih hl)
  | line l h _ =>
    obtain ⟨rfl, rfl⟩ := List.cons.inj hl
    exact .blank h

theorem reverse (h : Spaced ls ms) : Spaced ls.reverse ms.reverse := by
  induction h with
  | nil => exact .nil
  | blank _ ih =>
    rw [List.reverse_cons, ← List.append_nil (List.reverse _)]
    exact ih.append (.blank .nil)
  | line l _ ih =>
    rw [List.reverse_cons, List.reverse_cons]
    exact ih.append (refl [l])

/-- If the last line was blank, it still is, and the others are spaced by themselves. -/
theorem exists_of_concat_blank (h : Spaced (ls ++ [""]) ms) :
    ∃ front, ms = front ++ [""] ∧ Spaced ls front := by
  have hrev := h.reverse
  rw [List.reverse_append, List.reverse_singleton, List.singleton_append] at hrev
  have hms : ∃ back, ms.reverse = "" :: back ∧ Spaced ls.reverse back := by
    generalize ms.reverse = back at hrev
    cases hrev with
    | blank h => exact ⟨_, rfl, h.of_cons_blank⟩
    | line _ h => exact ⟨_, rfl, h⟩
  obtain ⟨back, hback, hs⟩ := hms
  refine ⟨back.reverse, ?_, by simpa using hs.reverse⟩
  rw [← List.reverse_cons, ← hback, List.reverse_reverse]

end Spaced

/-- Placing lines puts blank lines between them. -/
theorem spaced_placeLines (m : LineMapping) (count : Nat) (output : LineNumber)
    (lines : List String) : Spaced lines (placeLines m count output [] lines) := by
  induction lines generalizing count output with
  | nil => exact .nil
  | cons line rest ih =>
    rw [placeLines, placeLines_acc, List.reverse_cons, List.append_nil, List.reverse_replicate,
      List.append_assoc]
    exact ((ih _ _).line line).blanks_append _

/-- Without entries, lines are placed one below the other. -/
theorem placeLines_of_isEmpty {m : LineMapping} (h : m.isEmpty = true) (count : Nat)
    (output : LineNumber) (lines : List String) : placeLines m count output [] lines = lines := by
  have hget : ∀ index, m.get? index = none := by
    intro index
    rw [LineMapping.get?, List.isEmpty_iff.1 h]
    rfl
  induction lines generalizing count output with
  | nil => rfl
  | cons line rest ih =>
    rw [placeLines, placeLines_acc, padding, hget, ih]
    rfl

/-! ## Texts -/

/-- The lines of the second text are those of the first, with blank lines put in. -/
def Respaced (s t : String) : Prop := Spaced (Text.newlineSplit s) (Text.newlineSplit t)

theorem Respaced.refl (s : String) : Respaced s s := Spaced.refl _

theorem newlineSplit_append_newline (s t : String) :
    Text.newlineSplit (s ++ "\n" ++ t) = Text.newlineSplit s ++ Text.newlineSplit t :=
  Text.split_append_sep '\n' s t

/-- Behind a newline at the end there is one more line, which is empty. -/
theorem newlineSplit_newline (s : String) :
    Text.newlineSplit (s ++ "\n") = Text.newlineSplit s ++ [""] := by
  have hempty := newlineSplit_append_newline s ""
  rwa [String.append_empty] at hempty

/-- Text behind a newline is respaced by itself. -/
theorem Respaced.append_newline {s t : String} (h : Respaced s t) {u v : String}
    (h' : Respaced u v) : Respaced (s ++ "\n" ++ u) (t ++ "\n" ++ v) := by
  rw [Respaced, newlineSplit_append_newline, newlineSplit_append_newline]
  exact Spaced.append h h'

/-- A text that ends its last line still does so when it is respaced. -/
theorem Respaced.exists_of_newline {s t : String} (h : Respaced (s ++ "\n") t) :
    ∃ front, t = front ++ "\n" ∧ Respaced s front := by
  rw [Respaced, newlineSplit_newline] at h
  obtain ⟨front, hfront, hsp⟩ := h.exists_of_concat_blank
  have hne : front ≠ [] := hsp.ne_nil (Text.split_ne_nil '\n' s)
  have hpieces : ∀ p ∈ front, '\n' ∉ p.toList := by
    intro p hp
    have hmem : p ∈ Text.newlineSplit t := by
      rw [hfront]
      exact List.mem_append_left _ hp
    exact Text.not_mem_of_mem_split hmem
  refine ⟨Text.join "\n" front, ?_, ?_⟩
  · have ht : Text.join "\n" (Text.newlineSplit t) = t := Text.join_split '\n' t
    rw [hfront, Text.join_concat hne, String.append_empty] at ht
    exact ht.symm
  · have hsplit : Text.newlineSplit (Text.join "\n" front) = front := Text.split_join hne hpieces
    rw [Respaced, hsplit]
    exact hsp

/-- Texts of which the first ends its last line are respaced one by one. -/
theorem Respaced.append {s t u v : String} (h : Respaced s t) (hs : Text.endsWith "\n" s = true)
    (h' : Respaced u v) : Respaced (s ++ u) (t ++ v) := by
  obtain ⟨s, rfl⟩ := Text.endsWith_iff.1 hs
  obtain ⟨t, rfl, hst⟩ := h.exists_of_newline
  exact hst.append_newline h'

/-- The lines of a realigned text are the lines of the text as they are placed. -/
theorem newlineSplit_realign (text : String) (m : LineMapping) :
    Text.newlineSplit (realign text m) = placeLines m 0 1 [] (Text.newlineSplit text) := by
  unfold realign
  split
  · rename_i h
    exact (placeLines_of_isEmpty h 0 1 _).symm
  · have hsp := spaced_placeLines m 0 1 (Text.newlineSplit text)
    generalize placeLines m 0 1 [] (Text.newlineSplit text) = placed at hsp
    have hpieces : ∀ p ∈ placed, '\n' ∉ p.toList := by
      intro p hp
      rcases hsp.mem hp with rfl | hp
      · simp
      · exact Text.not_mem_of_mem_split hp
    exact Text.split_join (hsp.ne_nil (Text.split_ne_nil '\n' text)) hpieces

/-- Realigning a text puts blank lines in and does nothing else. -/
theorem respaced_realign (text : String) (m : LineMapping) : Respaced text (realign text m) := by
  rw [Respaced, newlineSplit_realign]
  exact spaced_placeLines m 0 1 _

end ClassViewer
