import ClassViewer.Lines.Realign
import ClassViewer.Proofs.Text

/-!
# What realignment keeps

Realigning puts blank lines between the lines of a text and takes none away
(`sublist_placeLines`), so a text that is not empty does not become empty (`realign_ne_empty`).
-/

namespace ClassViewer

/-- What was placed before stays in front. -/
theorem placeLines_acc (m : LineMapping) (count : Nat) (output : LineNumber)
    (acc lines : List String) :
    placeLines m count output acc lines = acc.reverse ++ placeLines m count output [] lines := by
  induction lines generalizing count output acc with
  | nil => simp [placeLines]
  | cons line rest ih =>
    simp only [placeLines]
    rw [ih, ih _ _ (line :: (_ ++ []))]
    simp

/-- The lines of the text are among those of the output, in their order. -/
theorem sublist_placeLines (m : LineMapping) (count : Nat) (output : LineNumber)
    (lines : List String) : lines.Sublist (placeLines m count output [] lines) := by
  induction lines generalizing count output with
  | nil => exact List.nil_sublist _
  | cons line rest ih =>
    rw [placeLines, placeLines_acc, List.reverse_cons, List.append_assoc]
    exact ((ih _ _).cons_cons line).trans (List.sublist_append_right _ _)

theorem join_newline_eq_empty {lines : List String} (h : Text.join "\n" lines = "") :
    lines = [] ∨ lines = [""] := by
  match lines, h with
  | [], _ => exact Or.inl rfl
  | [line], h =>
    rw [Text.join, String.intercalate_singleton] at h
    exact Or.inr (by rw [h])
  | a :: b :: rest, h =>
    rw [Text.join, String.intercalate_cons_cons] at h
    have hl := congrArg (fun s => s.toList.length) h
    simp [String.toList_append] at hl

/-- A text that is not empty does not become empty. -/
theorem realign_ne_empty {text : String} (ht : text ≠ "") (m : LineMapping) :
    realign text m ≠ "" := by
  unfold realign
  split
  · exact ht
  · intro h
    have hsub := sublist_placeLines m 0 1 (Text.newlineSplit text)
    have hjoin : Text.join "\n" (Text.newlineSplit text) = text := Text.join_split '\n' text
    have hne := Text.split_ne_nil '\n' text
    rcases join_newline_eq_empty h with h | h
    · rw [h] at hsub
      exact hne (List.sublist_nil.1 hsub)
    · rw [h] at hsub
      have hone := hsub.eq_of_length_le (List.length_pos_iff.2 hne)
      rw [hone, Text.join, String.intercalate_singleton] at hjoin
      exact ht hjoin.symm

end ClassViewer
