import ClassViewer.Proofs.Text

/-!
# Printed text and its lines

The lines of what a tool prints, printed again one by one, give the text back with the line ends of
the host (`unixText`) and an end for its last line (`endLine`). `join_outputLines` says so of every
text : it is cut behind its first line (`exists_firstLine`), where the lines, the text with other
line ends and the text with its last line ended are those of the line and of the rest.
-/

namespace ClassViewer.Text

/-- Every carriage return before a newline is taken out. -/
def unixLines : List Char → List Char
  | '\r' :: '\n' :: cs => '\n' :: unixLines cs
  | c :: cs => c :: unixLines cs
  | [] => []

/-- The text with newlines alone as line ends. -/
def unixText (s : String) : String := String.ofList (unixLines s.toList)

/-- The text with its last line ended : a text that is not empty and does not end in a newline gets
one. -/
def endLine (s : String) : String := if s = "" ∨ endsWith "\n" s = true then s else s ++ "\n"

/-! ## First lines -/

/-- A text is one line, or has a first line with more text behind it. -/
theorem exists_firstLine (s : String) : '\n' ∉ s.toList ∨
    ∃ line rest, s = line ++ "\n" ++ rest ∧ '\n' ∉ line.toList := by
  by_cases h : '\n' ∈ s.toList
  · obtain ⟨front, back, hs, hfront⟩ := List.eq_append_cons_of_mem h
    refine .inr ⟨String.ofList front, String.ofList back, ?_, by simpa using hfront⟩
    apply String.toList_injective
    simp [String.toList_append, hs]
  · exact .inl h

/-- A claim about texts that holds of one line, and of a line with more text behind it if it holds
of that text, holds of every text. -/
theorem firstLineInduction {P : String → Prop} (last : ∀ s, '\n' ∉ s.toList → P s)
    (line : ∀ s t, '\n' ∉ s.toList → P t → P (s ++ "\n" ++ t)) (s : String) : P s := by
  rcases exists_firstLine s with h | ⟨front, rest, hs, h⟩
  · exact last s h
  · have hlength : rest.toList.length < s.toList.length := by
      rw [hs]
      simp [String.toList_append]
      omega
    rw [hs]
    exact line front rest h (firstLineInduction last line rest)
  termination_by s.toList.length

/-! ## Lines one by one -/

theorem unixLines_cons {c : Char} {cs : List Char} (h : c = '\r' → cs.head? ≠ some '\n') :
    unixLines (c :: cs) = c :: unixLines cs := by
  rw [unixLines]
  rintro ds hc rfl
  exact h hc rfl

theorem unixLines_of_not_mem {cs : List Char} (h : '\n' ∉ cs) : unixLines cs = cs := by
  induction cs with
  | nil => rfl
  | cons c cs ih =>
    obtain ⟨-, hcs⟩ := not_or.1 (mt List.mem_cons.2 h)
    rw [unixLines_cons fun _ hhead => hcs (List.mem_of_head? hhead), ih hcs]

theorem unixLines_append_return {cs : List Char} (h : '\n' ∉ cs) (ds : List Char) :
    unixLines (cs ++ '\r' :: '\n' :: ds) = cs ++ '\n' :: unixLines ds := by
  induction cs with
  | nil => rfl
  | cons c cs ih =>
    obtain ⟨-, hcs⟩ := not_or.1 (mt List.mem_cons.2 h)
    have hhead : (cs ++ '\r' :: '\n' :: ds).head? ≠ some '\n' := by
      cases cs with
      | nil => simp
      | cons d cs => simpa [eq_comm] using (not_or.1 (mt List.mem_cons.2 hcs)).1
    rw [List.cons_append, unixLines_cons fun _ => hhead, ih hcs, List.cons_append]

theorem unixLines_append_newline {cs : List Char} (h : '\n' ∉ cs) (hr : cs.getLast? ≠ some '\r')
    (ds : List Char) : unixLines (cs ++ '\n' :: ds) = cs ++ '\n' :: unixLines ds := by
  induction cs with
  | nil => exact unixLines_cons nofun
  | cons c cs ih =>
    obtain ⟨-, hcs⟩ := not_or.1 (mt List.mem_cons.2 h)
    have hhead : c = '\r' → (cs ++ '\n' :: ds).head? ≠ some '\n' := by
      cases cs with
      | nil => exact fun hc => absurd hc (by simpa using hr)
      | cons d cs => exact fun _ => by simpa [eq_comm] using (not_or.1 (mt List.mem_cons.2 hcs)).1
    have hlast : cs.getLast? ≠ some '\r' := by
      cases cs with
      | nil => simp
      | cons d cs => simpa using hr
    rw [List.cons_append, unixLines_cons hhead, ih hcs hlast, List.cons_append]

/-- A line loses the carriage return at its end. -/
theorem unixText_line {s : String} (h : '\n' ∉ s.toList) (t : String) :
    unixText (s ++ "\n" ++ t) = dropTail "\r" s ++ "\n" ++ unixText t := by
  apply String.toList_injective
  cases hs : dropTail? "\r" s with
  | none =>
    have hlast : s.toList.getLast? ≠ some '\r' := by
      intro hlast
      obtain ⟨front, hfront⟩ := List.getLast?_eq_some_iff.1 hlast
      refine dropTail?_eq_none_iff.1 hs (String.ofList front) (String.toList_injective ?_)
      simp [String.toList_append, hfront]
    simp [unixText, dropTail, hs, String.toList_append, unixLines_append_newline h hlast]
  | some r =>
    obtain rfl := dropTail?_eq_some_iff.1 hs
    have hr : '\n' ∉ r.toList := fun hm => h (by simp [String.toList_append, hm])
    simp [unixText, String.toList_append, unixLines_append_return hr]

theorem outputLines_line {s : String} (h : '\n' ∉ s.toList) (t : String) :
    outputLines (s ++ "\n" ++ t) = dropTail "\r" s :: outputLines t := by
  have hsplit : newlineSplit (s ++ "\n" ++ t) = s :: newlineSplit t := by
    rw [newlineSplit, show "\n" = String.singleton '\n' from rfl, split_append_sep,
      split_eq_singleton h]
    rfl
  obtain ⟨p, ps, hp⟩ := List.exists_cons_of_ne_nil (split_ne_nil '\n' t)
  have hp' : newlineSplit t = p :: ps := hp
  unfold outputLines
  simp only [hsplit, hp', List.dropLast_cons_cons, List.getLast?_cons_cons, List.map_cons]
  cases (p :: ps).getLast? with
  | none => rfl
  | some last =>
    by_cases hlast : last = ""
    · simp [hlast]
    · simp [hlast]

theorem endsWith_newline_iff {s : String} :
    endsWith "\n" s = true ↔ s.toList.getLast? = some '\n' := by
  rw [endsWith_iff, List.getLast?_eq_some_iff]
  constructor
  · rintro ⟨r, rfl⟩
    exact ⟨r.toList, by simp [String.toList_append]⟩
  · rintro ⟨front, hfront⟩
    exact ⟨String.ofList front, String.toList_injective (by simp [String.toList_append, hfront])⟩

/-- What stands in front of a line makes no difference to how the last line ends. -/
theorem endLine_line (s t : String) : endLine (s ++ "\n" ++ t) = s ++ "\n" ++ endLine t := by
  have hne : s ++ "\n" ++ t ≠ "" := by simp
  by_cases ht : t = ""
  · subst ht
    have hends : endsWith "\n" (s ++ "\n" ++ "") = true :=
      endsWith_iff.2 ⟨s, by rw [String.append_empty]⟩
    rw [endLine, if_pos (.inr hends), endLine, if_pos (.inl rfl)]
  · have hends : endsWith "\n" (s ++ "\n" ++ t) = endsWith "\n" t := by
      have hlist : t.toList ≠ [] := fun hnil => ht (String.toList_injective hnil)
      obtain ⟨c, hc⟩ := Option.isSome_iff_exists.1 (List.getLast?_isSome.2 hlist)
      rw [Bool.eq_iff_iff, endsWith_newline_iff, endsWith_newline_iff, String.toList_append,
        List.getLast?_append, hc, Option.some_or]
    unfold endLine
    simp only [hne, ht, hends, false_or]
    split
    · rfl
    · rw [String.append_assoc]

/-- The lines of a printed text, each ended by a newline. -/
theorem join_outputLines (s : String) :
    join "" ((outputLines s).map (· ++ "\n")) = endLine (unixText s) := by
  induction s using firstLineInduction with
  | last s h =>
    have hsplit : newlineSplit s = [s] := split_eq_singleton h
    have hunix : unixText s = s := by
      rw [unixText, unixLines_of_not_mem h, String.ofList_toList]
    have hends : endsWith "\n" s = false := Bool.eq_false_iff.2 fun hc =>
      h (List.mem_of_getLast? (endsWith_newline_iff.1 hc))
    by_cases hs : s = ""
    · subst hs
      rfl
    · simp [outputLines, hsplit, hunix, endLine, hs, hends, join]
  | line s t h ih =>
    rw [outputLines_line h, unixText_line h, endLine_line, List.map_cons, join_empty_cons, ih]

example : join "" ((outputLines "a\r\n\rb").map (· ++ "\n")) = "a\n\rb\n" := by decide

end ClassViewer.Text
