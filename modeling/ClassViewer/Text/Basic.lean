/-!
# Text

Splitting, joining and trimming of text. Everything is stated on the list of characters of a
string, so that a law about a string is a law about a list.

`pieces` cuts a list at a separator and `List.intercalate` undoes it (`intercalate_pieces`): a text
has exactly one more piece than it has separators, and no piece holds one.
-/

namespace ClassViewer.Text

/-! ## Pieces between separators -/

/-- The pieces of `cs` between the occurrences of `sep`; the empty list has one empty piece. -/
def pieces (sep : Char) (cs : List Char) : List (List Char) :=
  cs.foldr (fun c acc =>
    if c = sep then [] :: acc
    else match acc with
      | [] => [[c]]
      | p :: ps => (c :: p) :: ps) [[]]

@[simp] theorem pieces_nil (sep : Char) : pieces sep [] = [[]] := rfl

theorem pieces_cons_sep (sep : Char) (cs : List Char) :
    pieces sep (sep :: cs) = [] :: pieces sep cs := by
  simp [pieces]

theorem pieces_ne_nil (sep : Char) (cs : List Char) : pieces sep cs ≠ [] := by
  cases cs with
  | nil => simp
  | cons c cs =>
    simp only [pieces, List.foldr_cons]
    split
    · simp
    · split <;> simp

theorem pieces_cons_of_ne {sep c : Char} (h : c ≠ sep) (cs : List Char) :
    ∃ p ps, pieces sep cs = p :: ps ∧ pieces sep (c :: cs) = (c :: p) :: ps := by
  cases hp : pieces sep cs with
  | nil => exact absurd hp (pieces_ne_nil sep cs)
  | cons p ps =>
    refine ⟨p, ps, rfl, ?_⟩
    have hp' := hp
    simp only [pieces] at hp'
    simp [pieces, h, hp']

/-- Joining the pieces again gives the text back. -/
theorem intercalate_pieces (sep : Char) (cs : List Char) :
    List.intercalate [sep] (pieces sep cs) = cs := by
  induction cs with
  | nil => simp [List.intercalate]
  | cons c cs ih =>
    by_cases h : c = sep
    · subst h
      rw [pieces_cons_sep]
      cases hp : pieces c cs with
      | nil => exact absurd hp (pieces_ne_nil c cs)
      | cons p ps =>
        rw [hp] at ih
        rw [List.intercalate_cons_cons, ih]
        simp
    · obtain ⟨p, ps, h₁, h₂⟩ := pieces_cons_of_ne h cs
      rw [h₂]
      rw [h₁] at ih
      cases ps with
      | nil =>
        simp [List.intercalate] at ih ⊢
        exact ih
      | cons q qs =>
        rw [List.intercalate_cons_cons] at ih ⊢
        simpa using ih

/-- No piece holds the separator. -/
theorem not_mem_of_mem_pieces {sep : Char} {cs p : List Char} (hp : p ∈ pieces sep cs) :
    sep ∉ p := by
  induction cs generalizing p with
  | nil => simp at hp; simp [hp]
  | cons c cs ih =>
    by_cases h : c = sep
    · subst h
      rw [pieces_cons_sep] at hp
      rcases List.mem_cons.1 hp with rfl | hp
      · simp
      · exact ih hp
    · obtain ⟨q, qs, h₁, h₂⟩ := pieces_cons_of_ne h cs
      rw [h₂] at hp
      rcases List.mem_cons.1 hp with rfl | hp
      · have := ih (p := q) (by simp [h₁])
        simp [this, Ne.symm h]
      · exact ih (by simp [h₁, hp])

/-! ## Strings -/

/-- The pieces of a text between the occurrences of a character. -/
def split (sep : Char) (s : String) : List String :=
  (pieces sep s.toList).map String.ofList

/-- The texts of `parts` with `sep` between any two neighbours. -/
def join (sep : String) (parts : List String) : String := sep.intercalate parts

/-- What follows the last `sep`; the whole text if there is none. -/
def afterLast (sep : Char) (s : String) : String := (split sep s).getLast?.getD s

/-- Every `old` character turned into `new`. -/
def replaceChar (old new : Char) (s : String) : String :=
  s.map fun c => if c = old then new else c

/-- Every `old` character turned into the text `new`. -/
def expandChar (old : Char) (new : String) (s : String) : String :=
  String.ofList (s.toList.flatMap fun c => if c = old then new.toList else [c])

/-- The text before a trailing `tail`, if it ends in it. -/
def dropTail? (tail s : String) : Option String :=
  if tail.toList.isSuffixOf s.toList then
    some (String.ofList (s.toList.take (s.toList.length - tail.toList.length)))
  else none

/-- The text without one trailing `tail`, or as it is when it does not end in it. -/
def dropTail (tail s : String) : String := (dropTail? tail s).getD s

/-- The text after a leading `head`, if it begins with it. -/
def dropHead? (head s : String) : Option String :=
  if head.toList.isPrefixOf s.toList then
    some (String.ofList (s.toList.drop head.toList.length))
  else none

/-- The text without its leading `c` characters. -/
def dropLeading (c : Char) (s : String) : String :=
  String.ofList (s.toList.dropWhile (· == c))

/-- The text without any repetition of `tail` at its end; `n` bounds the repetitions. -/
def dropTails (tail : String) : Nat → String → String
  | 0, s => s
  | n + 1, s =>
    match dropTail? tail s with
    | some r => dropTails tail n r
    | none => s

def endsWith (tail s : String) : Bool := tail.toList.isSuffixOf s.toList

def startsWith (head s : String) : Bool := head.toList.isPrefixOf s.toList

/-- Whether the character occurs in the text. -/
def holds (c : Char) (s : String) : Bool := s.toList.contains c

/-- The two parts around the last occurrence of the pair `a b`, working on the reversed text:
the characters after the pair are collected in `tail`. -/
def cutAtLastPair (a b : Char) : List Char → List Char → Option (List Char × List Char)
  | y :: x :: rest, tail =>
    if x = a ∧ y = b then some (rest.reverse, tail) else cutAtLastPair a b (x :: rest) (y :: tail)
  | _, _ => none

/-- The parts before and after the last occurrence of the two characters `a b`. -/
def splitAtLastPair? (a b : Char) (s : String) : Option (String × String) :=
  (cutAtLastPair a b s.toList.reverse []).map fun p => (String.ofList p.1, String.ofList p.2)

/-- The text `n` times over. -/
def repeated (s : String) (n : Nat) : String :=
  n.fold (fun _ _ acc => acc ++ s) ""

/-! ## Lines -/

/-- The newline-separated lines; a text always has at least one. -/
def newlineSplit (s : String) : List String := split '\n' s

/-- The lines of tool output: a final newline ends the last line instead of beginning another, and
a carriage return before a newline belongs to the line end. -/
def outputLines (s : String) : List String :=
  let ps := newlineSplit s
  let ended := ps.dropLast.map (dropTail "\r")
  match ps.getLast? with
  | some last => if last = "" then ended else ended ++ [last]
  | none => ended

end ClassViewer.Text
