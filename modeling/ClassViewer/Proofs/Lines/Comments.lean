import ClassViewer.Proofs.Lines.Spacing

/-!
# Comment lines

`CommentOnly text` says that a text is made of whole lines that are all comments. Such texts can be
put one behind the other (`CommentOnly.append`). A line break inside a comment ends it unless the
next line is marked as one too : `isComment_of_mem_marked` says that marking every line behind the
first is enough. `WithoutCode text` says that no line of a text is anything but blank or a comment,
which for a text in a comment is a matter of its lines behind the first (`withoutCode_comment_iff`).
-/

namespace ClassViewer

/-- A line that is a comment. -/
def IsComment (line : String) : Prop := Text.startsWith "//" line = true

instance : DecidablePred IsComment := fun _ => inferInstanceAs (Decidable (_ = true))

theorem IsComment.append {s : String} (h : IsComment s) (t : String) : IsComment (s ++ t) := by
  obtain ⟨r, rfl⟩ := Text.startsWith_iff.1 h
  exact Text.startsWith_iff.2 ⟨r ++ t, String.append_assoc ..⟩

/-- A text of comments only : it ends in a newline, and every line before that is a comment. -/
structure CommentOnly (text : String) : Prop where
  ended : Text.endsWith "\n" text = true
  lines : ∀ l ∈ (Text.newlineSplit text).dropLast, IsComment l

theorem commentOnly_newline_iff {s : String} :
    CommentOnly (s ++ "\n") ↔ ∀ l ∈ Text.newlineSplit s, IsComment l := by
  have hlines : (Text.newlineSplit (s ++ "\n")).dropLast = Text.newlineSplit s := by
    rw [newlineSplit_newline, List.dropLast_concat]
  constructor
  · intro h l hl
    exact h.lines l (hlines ▸ hl)
  · intro h
    exact ⟨Text.endsWith_iff.2 ⟨s, rfl⟩, fun l hl => h l (hlines ▸ hl)⟩

/-- A comment that is one line. -/
theorem commentOnly_line {s : String} (hs : '\n' ∉ s.toList) (h : IsComment s) :
    CommentOnly (s ++ "\n") := by
  rw [commentOnly_newline_iff, Text.newlineSplit, Text.split_eq_singleton hs]
  exact List.forall_mem_singleton.2 h

theorem CommentOnly.append {s t : String} (hs : CommentOnly s) (ht : CommentOnly t) :
    CommentOnly (s ++ t) := by
  obtain ⟨s, rfl⟩ := Text.endsWith_iff.1 hs.ended
  obtain ⟨t, rfl⟩ := Text.endsWith_iff.1 ht.ended
  rw [← String.append_assoc, commentOnly_newline_iff, newlineSplit_append_newline]
  intro l hl
  rcases List.mem_append.1 hl with hl | hl
  · exact commentOnly_newline_iff.1 hs l hl
  · exact commentOnly_newline_iff.1 ht l hl

/-! ## Marked lines -/

/-- A mark behind every separator stands in front of every piece but the first. -/
theorem join_append_eq (sep mark p : String) (ps : List String) :
    Text.join (sep ++ mark) (p :: ps) = Text.join sep (p :: ps.map (mark ++ ·)) := by
  induction ps generalizing p with
  | nil => simp [Text.join]
  | cons q ps ih =>
    have hmark := ih q
    rw [List.map_cons, Text.join_cons_cons, Text.join_cons_cons, hmark]
    cases ps with
    | nil => simp [Text.join, String.append_assoc]
    | cons r ps => simp only [List.map_cons, Text.join_cons_cons, String.append_assoc]

/-- With a mark behind every line break, every line but the first is marked. -/
theorem newlineSplit_marked {mark : String} (hmark : '\n' ∉ mark.toList) (s : String) :
    ∃ first rest, Text.newlineSplit s = first :: rest ∧
      Text.newlineSplit (Text.expandChar '\n' ("\n" ++ mark) s) =
        first :: rest.map (mark ++ ·) := by
  obtain ⟨first, rest, hsplit⟩ := List.exists_cons_of_ne_nil (Text.split_ne_nil '\n' s)
  refine ⟨first, rest, hsplit, ?_⟩
  have hpieces : ∀ p ∈ first :: rest, '\n' ∉ p.toList := by
    intro p hp
    rw [← hsplit] at hp
    exact Text.not_mem_of_mem_split hp
  rw [Text.expandChar_eq_join, hsplit, join_append_eq]
  refine Text.split_join (List.cons_ne_nil _ _) ?_
  intro p hp
  rcases List.mem_cons.1 hp with rfl | hp
  · exact hpieces _ List.mem_cons_self
  · obtain ⟨q, hq, rfl⟩ := List.mem_map.1 hp
    rw [String.toList_append, List.mem_append, not_or]
    exact ⟨hmark, hpieces q (List.mem_cons_of_mem first hq)⟩

/-- Behind the beginning of a comment, a text with marked lines stays a comment. -/
theorem isComment_of_mem_marked {head mark : String} (hhead : '\n' ∉ head.toList)
    (hh : IsComment head) (hmark : '\n' ∉ mark.toList) (hm : IsComment mark) (s : String) :
    ∀ l ∈ Text.newlineSplit (head ++ Text.expandChar '\n' ("\n" ++ mark) s), IsComment l := by
  obtain ⟨first, rest, -, hmarked⟩ := newlineSplit_marked hmark s
  have hlines : Text.newlineSplit (head ++ Text.expandChar '\n' ("\n" ++ mark) s) =
      (head ++ first) :: rest.map (mark ++ ·) := by
    rw [Text.newlineSplit, Text.split_append_of_not_mem hhead]
    exact congrArg (List.modifyHead (head ++ ·)) hmarked
  rw [hlines]
  intro l hl
  rcases List.mem_cons.1 hl with rfl | hl
  · exact hh.append first
  · obtain ⟨q, -, rfl⟩ := List.mem_map.1 hl
    exact hm.append q

/-! ## Texts without code -/

/-- Every line of a text is blank or a comment. -/
def WithoutCode (text : String) : Prop := ∀ l ∈ Text.newlineSplit text, l ≠ "" → IsComment l

instance (text : String) : Decidable (WithoutCode text) :=
  List.decidableBAll _ (Text.newlineSplit text)

theorem withoutCode_append_newline_iff {s t : String} :
    WithoutCode (s ++ "\n" ++ t) ↔ WithoutCode s ∧ WithoutCode t := by
  rw [WithoutCode, newlineSplit_append_newline]
  exact List.forall_mem_append

/-- Behind the beginning of a comment, a text can only leave it with a later line. -/
theorem withoutCode_comment_iff {head : String} (hhead : '\n' ∉ head.toList)
    (hh : IsComment head) (s : String) :
    WithoutCode (head ++ s) ↔ ∀ l ∈ (Text.newlineSplit s).tail, l ≠ "" → IsComment l := by
  obtain ⟨first, rest, hsplit⟩ := List.exists_cons_of_ne_nil (Text.split_ne_nil '\n' s)
  have hlines : Text.newlineSplit (head ++ s) = (head ++ first) :: rest := by
    rw [Text.newlineSplit, Text.split_append_of_not_mem hhead, hsplit, List.modifyHead_cons]
  rw [WithoutCode, hlines, Text.newlineSplit, hsplit, List.tail_cons, List.forall_mem_cons]
  exact and_iff_right fun _ => hh.append first

end ClassViewer
