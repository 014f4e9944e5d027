import ClassViewer.Text.Blank

/-!
# Laws of text

What the operations on text do, stated on the text itself. Taking a tail off undoes appending it
(`dropTail?_eq_some_iff`), turning one character into another changes nothing exactly when the
character does not occur (`replaceChar_eq_self_iff`), and joining the lines of a text gives the text
back (`join_split`). Trimming takes off all white space at the end and nothing else
(`exists_trimEnd`, `endsInInk_trimEnd`). A text with a separator in it has the pieces before and
behind it (`split_append_sep`), and the pieces of joined pieces are these (`split_join`). Text
without a separator goes to the first piece behind it (`split_append_of_not_mem`) and to the last
piece before it (`split_append_last`), and putting a text in place of every separator joins the
pieces by it (`expandChar_eq_join`). What follows the last separator of two texts follows that of
the second, if it has one (`afterLast_append`).
-/

namespace ClassViewer.Text

/-! ## Tails -/

theorem dropTail?_append (tail s : String) : dropTail? tail (s ++ tail) = some s := by
  have h : tail.toList <:+ s.toList ++ tail.toList := List.suffix_append _ _
  simp [dropTail?, String.toList_append, h]

/-- A text ends in `tail` after `s` exactly when taking `tail` off leaves `s`. -/
theorem dropTail?_eq_some_iff {tail s r : String} :
    dropTail? tail s = some r ↔ s = r ++ tail := by
  constructor
  · intro h
    unfold dropTail? at h
    split at h
    · rename_i hs
      obtain ⟨front, hf⟩ := List.isSuffixOf_iff_suffix.1 hs
      obtain rfl := Option.some.inj h
      apply String.toList_injective
      simp [← hf, String.toList_append]
    · cases h
  · rintro rfl
    exact dropTail?_append tail r

@[simp] theorem dropTail_append (tail s : String) : dropTail tail (s ++ tail) = s := by
  simp [dropTail, dropTail?_append]

theorem dropTail?_eq_none_iff {tail s : String} :
    dropTail? tail s = none ↔ ∀ r, s ≠ r ++ tail := by
  constructor
  · rintro h r rfl
    simp [dropTail?_append] at h
  · intro h
    cases hd : dropTail? tail s with
    | none => rfl
    | some r => exact absurd (dropTail?_eq_some_iff.1 hd) (h r)

theorem endsWith_iff {tail s : String} : endsWith tail s = true ↔ ∃ r, s = r ++ tail := by
  rw [endsWith, List.isSuffixOf_iff_suffix]
  constructor
  · rintro ⟨front, hf⟩
    exact ⟨String.ofList front, String.toList_injective (by simp [String.toList_append, hf])⟩
  · rintro ⟨r, rfl⟩
    exact ⟨r.toList, by simp [String.toList_append]⟩

/-- Taking a tail off changes nothing exactly when the text does not end in it. -/
theorem dropTail_eq_self_iff {tail s : String} (ht : tail ≠ "") :
    dropTail tail s = s ↔ endsWith tail s = false := by
  rw [← Bool.not_eq_true, endsWith_iff, not_exists, dropTail]
  cases hd : dropTail? tail s with
  | none => exact ⟨fun _ => dropTail?_eq_none_iff.1 hd, fun _ => rfl⟩
  | some r =>
    obtain rfl := dropTail?_eq_some_iff.1 hd
    refine ⟨fun h => ?_, fun h => absurd rfl (h r)⟩
    have hl := congrArg (fun t => t.toList.length) h
    simp only [Option.getD_some, String.toList_append, List.length_append] at hl
    have h0 : tail.toList = [] := List.length_eq_zero_iff.1 (by omega)
    exact absurd (String.toList_injective (by simpa using h0)) ht

/-- What is left without a tail is the text before it, or all of a text that does not end in it. -/
theorem dropTail_eq_iff {tail s r : String} :
    dropTail tail s = r ↔ s = r ++ tail ∨ s = r ∧ endsWith tail s = false := by
  unfold dropTail
  cases hd : dropTail? tail s with
  | none =>
    have hall := dropTail?_eq_none_iff.1 hd
    have hend : endsWith tail s = false := by
      rw [← Bool.not_eq_true, endsWith_iff, not_exists]
      exact hall
    simp [hall r, hend]
  | some q =>
    obtain rfl := dropTail?_eq_some_iff.1 hd
    have hend : endsWith tail (q ++ tail) = true := endsWith_iff.2 ⟨q, rfl⟩
    simp [hend]

theorem startsWith_iff {head s : String} : startsWith head s = true ↔ ∃ r, s = head ++ r := by
  rw [startsWith, List.isPrefixOf_iff_prefix]
  constructor
  · rintro ⟨back, hb⟩
    exact ⟨String.ofList back, String.toList_injective (by simp [String.toList_append, hb])⟩
  · rintro ⟨r, rfl⟩
    exact ⟨r.toList, by simp [String.toList_append]⟩

/-! ## Heads -/

theorem dropHead?_append (head s : String) : dropHead? head (head ++ s) = some s := by
  have h : head.toList <+: head.toList ++ s.toList := List.prefix_append _ _
  simp [dropHead?, String.toList_append, h]

theorem dropHead?_eq_none_iff {head s : String} :
    dropHead? head s = none ↔ startsWith head s = false := by
  unfold dropHead? startsWith
  cases head.toList.isPrefixOf s.toList <;> simp

/-- A text begins with `head` before `r` exactly when taking the head off leaves `r`. -/
theorem dropHead?_eq_some_iff {head s r : String} :
    dropHead? head s = some r ↔ s = head ++ r := by
  constructor
  · intro h
    have hs : startsWith head s = true := by
      rw [← Bool.not_eq_false, ← dropHead?_eq_none_iff, h]
      exact nofun
    obtain ⟨r', rfl⟩ := startsWith_iff.1 hs
    rw [dropHead?_append] at h
    rw [Option.some.inj h]
  · rintro rfl
    exact dropHead?_append head r

/-! ## Characters -/

theorem toList_replaceChar (old new : Char) (s : String) :
    (replaceChar old new s).toList = s.toList.map fun c => if c = old then new else c := by
  simp [replaceChar, String.toList_map]

@[simp] theorem replaceChar_append (old new : Char) (s t : String) :
    replaceChar old new (s ++ t) = replaceChar old new s ++ replaceChar old new t := by
  apply String.toList_injective
  simp [toList_replaceChar, String.toList_append]

theorem not_mem_replaceChar {old new : Char} (h : old ≠ new) (s : String) :
    old ∉ (replaceChar old new s).toList := by
  rw [toList_replaceChar]
  intro hm
  obtain ⟨c, -, hc⟩ := List.mem_map.1 hm
  split at hc
  · exact h hc.symm
  · rename_i hne
    exact hne hc

/-- Turning a character into another changes nothing exactly when it does not occur. -/
theorem replaceChar_eq_self_iff {old new : Char} (h : old ≠ new) {s : String} :
    replaceChar old new s = s ↔ old ∉ s.toList := by
  constructor
  · intro hs
    rw [← hs]
    exact not_mem_replaceChar h s
  · intro hs
    apply String.toList_injective
    rw [toList_replaceChar]
    refine (List.map_congr_left fun c hc => ?_).trans (List.map_id _)
    have hco : c ≠ old := fun hco => hs (hco ▸ hc)
    simp [hco]

theorem toList_dropLeading (c : Char) (s : String) :
    (dropLeading c s).toList = s.toList.dropWhile (· == c) := by
  simp [dropLeading]

/-- A text that does not begin with the character has nothing to drop. -/
theorem dropLeading_eq_self {c : Char} {s : String} (h : s.toList.head? ≠ some c) :
    dropLeading c s = s := by
  apply String.toList_injective
  rw [toList_dropLeading]
  cases hs : s.toList with
  | nil => rfl
  | cons d ds =>
    have hd : d ≠ c := fun hdc => h (by simp [hs, hdc])
    simp [hd]

theorem mem_of_mem_dropLeading {c d : Char} {s : String} (h : d ∈ (dropLeading c s).toList) :
    d ∈ s.toList := by
  rw [toList_dropLeading] at h
  exact (List.dropWhile_sublist _).mem h

theorem length_dropLeading_le (c : Char) (s : String) :
    (dropLeading c s).toList.length ≤ s.toList.length := by
  rw [toList_dropLeading]
  exact (List.dropWhile_sublist _).length_le

theorem head?_dropLeading (c : Char) (s : String) : (dropLeading c s).toList.head? ≠ some c := by
  rw [toList_dropLeading]
  intro h
  have hhead := List.head?_dropWhile_not (· == c) s.toList
  rw [h] at hhead
  simp at hhead

/-- What is left without its leading characters `c` does not begin with one, and stands behind some
of them. -/
theorem dropLeading_eq_iff {c : Char} {s r : String} : dropLeading c s = r ↔
    r.toList.head? ≠ some c ∧ ∃ n, s.toList = List.replicate n c ++ r.toList := by
  constructor
  · rintro rfl
    refine ⟨head?_dropLeading c s, (s.toList.takeWhile (· == c)).length, ?_⟩
    have hlead : s.toList.takeWhile (· == c) =
        List.replicate (s.toList.takeWhile (· == c)).length c :=
      List.eq_replicate_iff.2
        ⟨rfl, fun d hd => by simpa using List.all_eq_true.1 List.all_takeWhile d hd⟩
    rw [← hlead, toList_dropLeading]
    exact List.takeWhile_append_dropWhile.symm
  · rintro ⟨hhead, n, hs⟩
    have hdropped : (dropLeading c r).toList = r.toList :=
      congrArg String.toList (dropLeading_eq_self hhead)
    apply String.toList_injective
    rw [toList_dropLeading] at hdropped
    rw [toList_dropLeading, hs, List.dropWhile_append_of_pos (by simp), hdropped]

/-- A text without its tail begins as the text does. -/
theorem head?_of_dropTail {tail s : String} {c : Char}
    (h : (dropTail tail s).toList.head? = some c) : s.toList.head? = some c := by
  unfold dropTail at h
  cases hd : dropTail? tail s with
  | none => simpa [hd] using h
  | some r =>
    rw [hd, Option.getD_some] at h
    rw [dropTail?_eq_some_iff.1 hd, String.toList_append, List.head?_append, h]
    rfl

theorem mem_of_mem_dropTail {tail s : String} {d : Char} (h : d ∈ (dropTail tail s).toList) :
    d ∈ s.toList := by
  unfold dropTail at h
  cases hd : dropTail? tail s with
  | none => simpa [hd] using h
  | some r =>
    rw [dropTail?_eq_some_iff.1 hd, String.toList_append]
    exact List.mem_append_left _ (by simpa [hd] using h)

theorem mem_of_mem_trim {s : String} {d : Char} (h : d ∈ (trim s).toList) : d ∈ s.toList := by
  rw [trim, trimEnd, trimStart, String.toList_ofList, String.toList_ofList, List.mem_reverse] at h
  have hstart := List.mem_reverse.1 ((List.dropWhile_sublist isBlank).mem h)
  exact (List.dropWhile_sublist isBlank).mem hstart

/-! ## White space -/

/-- The text has a last character, and that is not white space. -/
def EndsInInk (s : String) : Prop := ∃ c, s.toList.getLast? = some c ∧ isBlank c = false

/-- The text is white space throughout. -/
def AllBlank (s : String) : Prop := ∀ c ∈ s.toList, isBlank c = true

instance (s : String) : Decidable (AllBlank s) :=
  List.decidableBAll (fun c => isBlank c = true) s.toList

theorem endsInInk_append_iff (s t : String) :
    EndsInInk (s ++ t) ↔ EndsInInk t ∨ t = "" ∧ EndsInInk s := by
  unfold EndsInInk
  rw [String.toList_append, List.getLast?_append]
  cases ht : t.toList.getLast? with
  | none =>
    have hempty : t = "" := String.toList_injective (List.getLast?_eq_none_iff.1 ht)
    simp [hempty]
  | some c =>
    have hne : t ≠ "" := by
      rintro rfl
      cases ht
    simp [hne]

theorem toList_trimEnd (s : String) :
    (trimEnd s).toList = (s.toList.reverse.dropWhile isBlank).reverse := by
  rw [trimEnd, String.toList_ofList]

/-- All that is trimmed is white space. -/
theorem exists_trimEnd (s : String) : ∃ w, s = trimEnd s ++ w ∧ AllBlank w := by
  refine ⟨String.ofList (s.toList.reverse.takeWhile isBlank).reverse, ?_, fun c hc => ?_⟩
  · apply String.toList_injective
    rw [String.toList_append, toList_trimEnd, String.toList_ofList, ← List.reverse_append,
      List.takeWhile_append_dropWhile, List.reverse_reverse]
  · rw [String.toList_ofList, List.mem_reverse] at hc
    exact List.all_eq_true.1 List.all_takeWhile c hc

/-- White space at the end makes no difference to what is left. -/
theorem trimEnd_append_of_allBlank (s : String) {w : String} (h : AllBlank w) :
    trimEnd (s ++ w) = trimEnd s := by
  apply String.toList_injective
  rw [toList_trimEnd, toList_trimEnd, String.toList_append, List.reverse_append,
    List.dropWhile_append_of_pos fun c hc => h c (List.mem_reverse.1 hc)]

theorem trimEnd_eq_self {s : String} (h : EndsInInk s) : trimEnd s = s := by
  obtain ⟨c, hlast, hink⟩ := h
  obtain ⟨front, hs⟩ := List.getLast?_eq_some_iff.1 hlast
  apply String.toList_injective
  rw [toList_trimEnd, hs]
  simp [hink]

/-- What is left after trimming does not end in white space. -/
theorem endsInInk_trimEnd {s : String} (h : trimEnd s ≠ "") : EndsInInk (trimEnd s) := by
  have hkept := List.head?_dropWhile_not isBlank s.toList.reverse
  unfold EndsInInk
  rw [toList_trimEnd, List.getLast?_reverse]
  cases hhead : (s.toList.reverse.dropWhile isBlank).head? with
  | none =>
    rw [List.head?_eq_none_iff] at hhead
    exact absurd (by rw [trimEnd, hhead]; rfl) h
  | some c =>
    rw [hhead] at hkept
    exact ⟨c, rfl, hkept⟩

/-! ## Joining -/

theorem join_split (sep : Char) (s : String) : join (String.singleton sep) (split sep s) = s := by
  apply String.toList_injective
  rw [join, split, String.toList_intercalate, List.map_map]
  have h : (String.toList ∘ String.ofList) = (id : List Char → List Char) := by
    funext cs
    simp
  rw [h, List.map_id, String.toList_singleton]
  exact intercalate_pieces sep s.toList

theorem join_empty_cons (s : String) (parts : List String) :
    join "" (s :: parts) = s ++ join "" parts := by
  cases parts with
  | nil => simp [join]
  | cons t parts => simp [join, String.intercalate_cons_cons]

theorem split_ne_nil (sep : Char) (s : String) : split sep s ≠ [] := by
  simp [split, pieces_ne_nil]

/-! ## Splitting -/

theorem pieces_append_sep (sep : Char) (cs ds : List Char) :
    pieces sep (cs ++ sep :: ds) = pieces sep cs ++ pieces sep ds := by
  induction cs with
  | nil => exact pieces_cons_sep sep ds
  | cons c cs ih =>
    by_cases hc : c = sep
    · subst hc
      rw [List.cons_append, pieces_cons_sep, pieces_cons_sep, ih, List.cons_append]
    · obtain ⟨p, ps, hp, hcons⟩ := pieces_cons_of_ne hc cs
      obtain ⟨q, qs, hq, happ⟩ := pieces_cons_of_ne hc (cs ++ sep :: ds)
      rw [ih, hp, List.cons_append] at hq
      obtain ⟨rfl, rfl⟩ := List.cons.inj hq
      rw [List.cons_append, happ, hcons, List.cons_append]

theorem pieces_eq_singleton {sep : Char} {cs : List Char} (h : sep ∉ cs) :
    pieces sep cs = [cs] := by
  induction cs with
  | nil => rfl
  | cons c cs ih =>
    have hc : c ≠ sep := by
      rintro rfl
      exact h List.mem_cons_self
    obtain ⟨p, ps, hp, hcons⟩ := pieces_cons_of_ne hc cs
    rw [ih fun hm => h (List.mem_cons_of_mem c hm)] at hp
    obtain ⟨rfl, rfl⟩ := List.cons.inj hp
    exact hcons

/-- A text with a separator in it has the pieces before and behind it. -/
theorem split_append_sep (sep : Char) (s t : String) :
    split sep (s ++ String.singleton sep ++ t) = split sep s ++ split sep t := by
  simp [split, String.toList_append, pieces_append_sep]

theorem split_eq_singleton {sep : Char} {s : String} (h : sep ∉ s.toList) : split sep s = [s] := by
  simp [split, pieces_eq_singleton h]

theorem length_pieces (sep : Char) (cs : List Char) :
    (pieces sep cs).length = cs.count sep + 1 := by
  induction cs with
  | nil => rfl
  | cons c cs ih =>
    by_cases hc : c = sep
    · subst hc
      rw [pieces_cons_sep, List.length_cons, ih, List.count_cons_self]
    · obtain ⟨p, ps, hp, hcons⟩ := pieces_cons_of_ne hc cs
      rw [hcons, List.count_cons_of_ne hc, ← ih, hp, List.length_cons, List.length_cons]

/-- A text has one piece more than it has separators. -/
theorem length_split (sep : Char) (s : String) :
    (split sep s).length = s.toList.count sep + 1 := by
  rw [split, List.length_map, length_pieces]

theorem not_mem_of_mem_split {sep : Char} {s piece : String} (h : piece ∈ split sep s) :
    sep ∉ piece.toList := by
  obtain ⟨p, hp, rfl⟩ := List.mem_map.1 h
  simpa using not_mem_of_mem_pieces hp

theorem join_cons_cons (sep s t : String) (parts : List String) :
    join sep (s :: t :: parts) = s ++ sep ++ join sep (t :: parts) := by
  simp [join, String.intercalate_cons_cons, String.append_assoc]

theorem mem_join_of_mem {sep p : String} {c : Char} {parts : List String} (hp : p ∈ parts)
    (hc : c ∈ p.toList) : c ∈ (join sep parts).toList := by
  induction parts with
  | nil => cases hp
  | cons q parts ih =>
    cases parts with
    | nil =>
      obtain rfl := List.mem_singleton.1 hp
      simpa [join] using hc
    | cons r parts =>
      simp only [join_cons_cons, String.toList_append, List.mem_append]
      rcases List.mem_cons.1 hp with rfl | hp
      · exact .inl (.inl hc)
      · exact .inr (ih hp)

theorem mem_of_mem_split {sep c : Char} {s piece : String} (h : piece ∈ split sep s)
    (hc : c ∈ piece.toList) : c ∈ s.toList := by
  rw [← join_split sep s]
  exact mem_join_of_mem h hc

theorem not_mem_join {c : Char} {sep : String} (hsep : c ∉ sep.toList) {parts : List String}
    (h : ∀ p ∈ parts, c ∉ p.toList) : c ∉ (join sep parts).toList := by
  induction parts with
  | nil => simp [join]
  | cons p parts ih =>
    cases parts with
    | nil => simpa [join] using h p List.mem_cons_self
    | cons q parts =>
      rw [join_cons_cons, String.toList_append, String.toList_append, List.mem_append,
        List.mem_append, not_or, not_or]
      exact ⟨⟨h p List.mem_cons_self, hsep⟩, ih fun r hr => h r (List.mem_cons_of_mem p hr)⟩

/-- The pieces of joined pieces are these pieces. -/
theorem split_join {sep : Char} {parts : List String} (hne : parts ≠ [])
    (h : ∀ p ∈ parts, sep ∉ p.toList) : split sep (join (String.singleton sep) parts) = parts := by
  induction parts with
  | nil => exact absurd rfl hne
  | cons p parts ih =>
    cases parts with
    | nil =>
      rw [join, String.intercalate_singleton]
      exact split_eq_singleton (h p List.mem_cons_self)
    | cons q parts =>
      rw [join_cons_cons, split_append_sep, split_eq_singleton (h p List.mem_cons_self),
        ih (by simp) fun r hr => h r (List.mem_cons_of_mem p hr)]
      rfl

theorem pieces_append_of_not_mem {sep : Char} {cs : List Char} (h : sep ∉ cs) (ds : List Char) :
    pieces sep (cs ++ ds) = (pieces sep ds).modifyHead (cs ++ ·) := by
  induction cs with
  | nil =>
    rw [List.nil_append]
    cases pieces sep ds <;> rfl
  | cons c cs ih =>
    have hc : c ≠ sep := by
      rintro rfl
      exact h List.mem_cons_self
    obtain ⟨p, ps, hp, hcons⟩ := pieces_cons_of_ne hc (cs ++ ds)
    rw [List.cons_append, hcons]
    rw [ih fun hm => h (List.mem_cons_of_mem c hm)] at hp
    cases hd : pieces sep ds with
    | nil => exact absurd hd (pieces_ne_nil sep ds)
    | cons q qs =>
      rw [hd, List.modifyHead_cons] at hp
      obtain ⟨rfl, rfl⟩ := List.cons.inj hp
      rfl

/-- Text without a separator goes to the first of the pieces behind it. -/
theorem split_append_of_not_mem {sep : Char} {s : String} (h : sep ∉ s.toList) (t : String) :
    split sep (s ++ t) = (split sep t).modifyHead (s ++ ·) := by
  rw [split, split, String.toList_append, pieces_append_of_not_mem h]
  cases hp : pieces sep t.toList with
  | nil => exact absurd hp (pieces_ne_nil sep t.toList)
  | cons p ps => simp [String.ofList_append]

/-- A text in place of every separator stands between the pieces. -/
theorem expandChar_eq_join (sep : Char) (new s : String) :
    expandChar sep new s = join new (split sep s) := by
  have hchars : ∀ cs : List Char, cs.flatMap (fun c => if c = sep then new.toList else [c]) =
      List.intercalate new.toList (pieces sep cs) := by
    intro cs
    induction cs with
    | nil => simp
    | cons c cs ih =>
      rw [List.flatMap_cons, ih]
      by_cases hc : c = sep
      · subst hc
        rw [if_pos rfl, pieces_cons_sep]
        cases hp : pieces c cs with
        | nil => exact absurd hp (pieces_ne_nil c cs)
        | cons p ps => rw [List.intercalate_cons_cons, List.nil_append]
      · obtain ⟨p, ps, hp, hcons⟩ := pieces_cons_of_ne hc cs
        rw [if_neg hc, hp, hcons]
        cases ps with
        | nil => simp
        | cons q qs => simp [List.intercalate_cons_cons]
  apply String.toList_injective
  rw [expandChar, join, split, String.toList_intercalate, List.map_map, String.toList_ofList,
    hchars]
  congr 1
  exact ((List.map_congr_left fun p _ => String.toList_ofList).trans (List.map_id _)).symm

/-- A line of output holds no newline. -/
theorem not_mem_of_mem_outputLines {s line : String} (h : line ∈ outputLines s) :
    '\n' ∉ line.toList := by
  have hpieces : ∀ p ∈ newlineSplit s, '\n' ∉ p.toList := fun p hp => not_mem_of_mem_split hp
  have hended : ∀ p ∈ (newlineSplit s).dropLast.map (dropTail "\r"), '\n' ∉ p.toList := by
    intro p hp
    obtain ⟨q, hq, rfl⟩ := List.mem_map.1 hp
    exact fun hm => hpieces q (List.dropLast_subset _ hq) (mem_of_mem_dropTail hm)
  unfold outputLines at h
  dsimp only at h
  split at h
  · rename_i last hlast
    split at h
    · exact hended line h
    · rcases List.mem_append.1 h with h | h
      · exact hended line h
      · rw [List.mem_singleton.1 h]
        exact hpieces last (List.mem_of_getLast? hlast)
  · exact hended line h

/-- Pieces with one more piece behind them are joined as text behind a separator. -/
theorem join_concat {sep last : String} {parts : List String} (hne : parts ≠ []) :
    join sep (parts ++ [last]) = join sep parts ++ sep ++ last := by
  induction parts with
  | nil => exact absurd rfl hne
  | cons p parts ih =>
    cases parts with
    | nil => simp [join, String.intercalate_cons_cons]
    | cons q parts =>
      rw [List.cons_append, List.cons_append, join_cons_cons, ← List.cons_append, ih (by simp),
        join_cons_cons]
      simp only [String.append_assoc]

/-- Pieces with further pieces behind them are joined as two texts around a separator. -/
theorem join_append {sep : String} {front back : List String} (hfront : front ≠ [])
    (hback : back ≠ []) : join sep (front ++ back) = join sep front ++ sep ++ join sep back := by
  obtain ⟨q, qs, rfl⟩ := List.exists_cons_of_ne_nil hback
  induction front with
  | nil => exact absurd rfl hfront
  | cons p parts ih =>
    cases parts with
    | nil =>
      rw [List.singleton_append, join_cons_cons]
      simp [join]
    | cons r parts =>
      rw [List.cons_append, List.cons_append, join_cons_cons, ← List.cons_append, ih (by simp),
        join_cons_cons]
      simp only [String.append_assoc]

/-! ## Behind the last separator -/

/-- What follows the last separator is the last piece. -/
theorem dropLast_concat_afterLast (sep : Char) (s : String) :
    (split sep s).dropLast ++ [afterLast sep s] = split sep s := by
  have hlast : (split sep s).getLast? = some ((split sep s).getLast (split_ne_nil sep s)) :=
    List.getLast?_eq_some_getLast _
  rw [afterLast, hlast]
  exact List.dropLast_concat_getLast (split_ne_nil sep s)

theorem not_mem_afterLast (sep : Char) (s : String) : sep ∉ (afterLast sep s).toList := by
  refine not_mem_of_mem_split (s := s) ?_
  rw [← dropLast_concat_afterLast]
  exact List.mem_append_right _ List.mem_cons_self

theorem afterLast_eq_self {sep : Char} {s : String} (h : sep ∉ s.toList) :
    afterLast sep s = s := by
  rw [afterLast, split_eq_singleton h]
  rfl

theorem afterLast_append_sep {sep : Char} (s : String) {t : String} (h : sep ∉ t.toList) :
    afterLast sep (s ++ String.singleton sep ++ t) = t := by
  rw [afterLast, split_append_sep, split_eq_singleton h, List.getLast?_concat]
  rfl

/-- A text with a separator in it is cut at the last one. -/
theorem exists_eq_append_afterLast {sep : Char} {s : String} (h : sep ∈ s.toList) :
    ∃ front, s = front ++ String.singleton sep ++ afterLast sep s := by
  refine ⟨join (String.singleton sep) (split sep s).dropLast, ?_⟩
  have hmore : (split sep s).dropLast ≠ [] := by
    intro hnone
    have hone := dropLast_concat_afterLast sep s
    have hs := join_split sep s
    rw [← hone, hnone] at hs
    have heq : afterLast sep s = s := by simpa [join] using hs
    exact not_mem_afterLast sep s (heq.symm ▸ h)
  rw [← join_concat hmore, dropLast_concat_afterLast, join_split]

theorem exists_append_afterLast (sep : Char) (s : String) :
    ∃ front, s = front ++ afterLast sep s := by
  by_cases h : sep ∈ s.toList
  · obtain ⟨front, hfront⟩ := exists_eq_append_afterLast h
    exact ⟨_, hfront⟩
  · exact ⟨"", by rw [afterLast_eq_self h, String.empty_append]⟩

/-- Text in front counts only if there is no separator behind it. -/
theorem afterLast_append (sep : Char) (s t : String) : afterLast sep (s ++ t) =
    if sep ∈ t.toList then afterLast sep t else afterLast sep s ++ t := by
  split
  · rename_i ht
    obtain ⟨front, hfront⟩ := exists_eq_append_afterLast ht
    have hcut : s ++ t = s ++ front ++ String.singleton sep ++ afterLast sep t :=
      (congrArg (s ++ ·) hfront).trans (by simp only [String.append_assoc])
    rw [hcut, afterLast_append_sep _ (not_mem_afterLast sep t)]
  · rename_i ht
    have hlast : sep ∉ (afterLast sep s ++ t).toList := by
      rw [String.toList_append, List.mem_append, not_or]
      exact ⟨not_mem_afterLast sep s, ht⟩
    by_cases hs : sep ∈ s.toList
    · obtain ⟨front, hfront⟩ := exists_eq_append_afterLast hs
      have hcut : s ++ t = front ++ String.singleton sep ++ (afterLast sep s ++ t) :=
        (congrArg (· ++ t) hfront).trans (String.append_assoc ..)
      rw [hcut, afterLast_append_sep _ hlast]
    · rw [afterLast_eq_self hs] at hlast ⊢
      exact afterLast_eq_self hlast

/-- What stands before a separator does not count. -/
theorem afterLast_behind_sep (sep : Char) (s t : String) :
    afterLast sep (s ++ String.singleton sep ++ t) = afterLast sep t := by
  rw [afterLast, split_append_sep, List.getLast?_append, afterLast,
    List.getLast?_eq_some_getLast (split_ne_nil sep t)]
  rfl

/-- The pieces before and behind a slash. -/
theorem split_slash (s t : String) : split '/' (s ++ "/" ++ t) = split '/' s ++ split '/' t :=
  split_append_sep '/' s t

theorem afterLast_slash (s t : String) : afterLast '/' (s ++ "/" ++ t) = afterLast '/' t :=
  afterLast_behind_sep '/' s t

/-- Text without a separator goes to the last of the pieces before it. -/
theorem split_append_last {sep : Char} (s : String) {t : String} (h : sep ∉ t.toList) :
    split sep (s ++ t) = (split sep s).dropLast ++ [afterLast sep s ++ t] := by
  by_cases hs : sep ∈ s.toList
  · obtain ⟨front, hfront⟩ := exists_eq_append_afterLast hs
    have hlast : sep ∉ (afterLast sep s ++ t).toList := by
      rw [String.toList_append, List.mem_append, not_or]
      exact ⟨not_mem_afterLast sep s, h⟩
    have hdrop : (split sep s).dropLast = split sep front := by
      have hsplit := congrArg (fun r => (split sep r).dropLast) hfront
      rwa [split_append_sep, split_eq_singleton (not_mem_afterLast sep s), List.dropLast_concat]
        at hsplit
    have hcut : s ++ t = front ++ String.singleton sep ++ (afterLast sep s ++ t) :=
      (congrArg (· ++ t) hfront).trans (String.append_assoc ..)
    rw [hcut, split_append_sep, split_eq_singleton hlast, hdrop]
  · have hall : sep ∉ (s ++ t).toList := by
      rw [String.toList_append, List.mem_append, not_or]
      exact ⟨hs, h⟩
    rw [split_eq_singleton hall, split_eq_singleton hs, afterLast_eq_self hs]
    rfl

/-- A tail without a separator is taken from the last of the pieces. -/
theorem dropLast_split_dropTail {sep : Char} {tail : String} (h : sep ∉ tail.toList) (s : String) :
    (split sep (dropTail tail s)).dropLast = (split sep s).dropLast := by
  unfold dropTail
  cases hd : dropTail? tail s with
  | none => rfl
  | some r =>
    rw [dropTail?_eq_some_iff.1 hd, split_append_last r h, List.dropLast_concat]
    rfl

/-- A tail without a separator is the tail of what follows the last one. -/
theorem endsWith_afterLast {sep : Char} {tail : String} (h : sep ∉ tail.toList) (s : String) :
    endsWith tail (afterLast sep s) = endsWith tail s := by
  rw [Bool.eq_iff_iff, endsWith_iff, endsWith_iff]
  constructor
  · rintro ⟨r, hr⟩
    obtain ⟨front, hfront⟩ := exists_append_afterLast sep s
    exact ⟨front ++ r, by rw [hfront, hr, String.append_assoc]⟩
  · rintro ⟨r, rfl⟩
    exact ⟨afterLast sep r, by rw [afterLast_append, if_neg h]⟩

/-- A tail without a separator is taken off behind the last one. -/
theorem dropTail_append_sep {sep : Char} {tail : String} (hne : tail ≠ "") (h : sep ∉ tail.toList)
    (s t : String) : dropTail tail (s ++ String.singleton sep ++ t) =
      s ++ String.singleton sep ++ dropTail tail t := by
  by_cases ht : endsWith tail t = true
  · obtain ⟨r, rfl⟩ := endsWith_iff.1 ht
    rw [← String.append_assoc, dropTail_append, dropTail_append]
  · have ht : endsWith tail t = false := by simpa using ht
    rw [(dropTail_eq_self_iff hne).2 ht, dropTail_eq_self_iff hne, ← endsWith_afterLast h,
      afterLast_behind_sep, endsWith_afterLast h, ht]

/-! ## Bytes -/

/-- Bytes are gone through as their list. -/
theorem foldl_toList {σ : Type} (f : σ → UInt8 → σ) (s : σ) (bytes : ByteArray) :
    bytes.foldl f s = bytes.data.toList.foldl f s := by
  have hloop (i j : Nat) (s : σ) (h : bytes.size ≤ bytes.size) (hij : i + j = bytes.size) :
      Id.run (ByteArray.foldlM.loop (fun s b => pure (f s b)) bytes bytes.size h i j s) =
        (bytes.data.toList.drop j).foldl f s := by
    induction i generalizing j s with
    | zero =>
      have hsize : bytes.data.toList.length = bytes.size := rfl
      have hend : bytes.data.toList.drop j = [] := List.drop_eq_nil_of_le (by omega)
      unfold ByteArray.foldlM.loop
      rw [hend, dif_neg (by omega)]
      rfl
    | succ i ih =>
      have hlt : j < bytes.size := by omega
      unfold ByteArray.foldlM.loop
      rw [dif_pos hlt, List.drop_eq_getElem_cons (by simpa using hlt), List.foldl_cons]
      exact ih (j + 1) _ (by omega)
  unfold ByteArray.foldl ByteArray.foldlM
  rw [dif_pos (Nat.le_refl _)]
  exact hloop bytes.size 0 s (Nat.le_refl _) rfl

end ClassViewer.Text
