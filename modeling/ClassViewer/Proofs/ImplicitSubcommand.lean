import ClassViewer.CommandLine.Invocation
import ClassViewer.Proofs.Rows
import ClassViewer.Proofs.Text
import Mathlib.Logic.ExistsUnique

/-!
# The subcommand that need not be said

Arguments without a subcommand ask for locations to be decompiled. Where the subcommand has to stand
is found by going over the words of a command line (`EndsAt`) : options are passed over, those with
a value of their own together with it, and nothing behind a `--` is an option. The place found is
the only one (`existsUnique_endsAt`), and the word put in there is the next to be found
(`leadingCount_insertIdx`). A command line that is understood as it stands has a subcommand in that
place (`readLevel_topLevel`), since before a subcommand only a value that an option waits for can be
read as anything but an option (`Progress.Sound.read_topLevel`). `says_in_full` puts this together.
-/

namespace ClassViewer.CommandLine

/-! ## The place of the subcommand -/

/-- The words that ask for a subcommand, or for help. -/
def commandWords : List String := subcommands ++ [helpWord]

/-- Going over the words from the position `k` on ends at a position. -/
inductive EndsAt (words : List String) : Nat → Nat → Prop where
  | past {k : Nat} (h : words.length ≤ k) : EndsAt words k k
  | ended {k : Nat} (h : k < words.length) (hw : words[k] = "--") : EndsAt words k (k + 1)
  | valued {k i : Nat} (h : k < words.length) (hw : words[k] ∈ valuedWords)
      (rest : EndsAt words (k + 2) i) : EndsAt words k i
  | option {k i : Nat} (h : k < words.length) (hend : words[k] ≠ "--")
      (hvalue : words[k] ∉ valuedWords) (hw : Text.startsWith "-" words[k] = true)
      (rest : EndsAt words (k + 1) i) : EndsAt words k i
  | word {k : Nat} (h : k < words.length) (hw : Text.startsWith "-" words[k] = false) :
      EndsAt words k k

theorem leadingCount_ended (rest : List String) : leadingCount ("--" :: rest) = 1 := by
  unfold leadingCount
  rfl

theorem startsWith_of_mem_valuedWords {word : String} (h : word ∈ valuedWords) :
    Text.startsWith "-" word = true := by
  have hall : ∀ word ∈ valuedWords, Text.startsWith "-" word = true := by decide
  exact hall word h

theorem ne_ended_of_mem_valuedWords {word : String} (h : word ∈ valuedWords) : word ≠ "--" := by
  rintro rfl
  exact absurd h (by decide)

theorem leadingCount_valued {word : String} (h : word ∈ valuedWords) (rest : List String) :
    leadingCount (word :: rest) = 2 + leadingCount (rest.drop 1) := by
  conv => lhs; unfold leadingCount
  rw [if_neg (ne_ended_of_mem_valuedWords h), if_pos (List.contains_iff_mem.2 h)]
  cases rest <;> rfl

theorem leadingCount_option {word : String} (hend : word ≠ "--") (hvalue : word ∉ valuedWords)
    (h : Text.startsWith "-" word = true) (rest : List String) :
    leadingCount (word :: rest) = 1 + leadingCount rest := by
  conv => lhs; unfold leadingCount
  rw [if_neg hend, if_neg (by simpa using hvalue), if_pos h]

theorem leadingCount_word {word : String} (h : Text.startsWith "-" word = false)
    (rest : List String) : leadingCount (word :: rest) = 0 := by
  have hend : word ≠ "--" := by
    rintro rfl
    exact absurd h (by decide)
  have hvalue : word ∉ valuedWords := fun hv =>
    absurd (startsWith_of_mem_valuedWords hv) (by simp [h])
  unfold leadingCount
  rw [if_neg hend, if_neg (by simpa using hvalue), if_neg (by simp [h])]

/-- The words that are gone over are those in front of the subcommand. -/
theorem EndsAt.eq {words : List String} {k i : Nat} (h : EndsAt words k i) :
    i = k + leadingCount (words.drop k) := by
  induction h with
  | past h => rw [List.drop_eq_nil_of_le h]; rfl
  | ended h hw => rw [List.drop_eq_getElem_cons h, hw, leadingCount_ended]
  | valued h hw _ ih =>
    rw [List.drop_eq_getElem_cons h, leadingCount_valued hw, List.drop_drop, ih,
      Nat.add_assoc]
  | option h hend hvalue hw _ ih =>
    rw [List.drop_eq_getElem_cons h, leadingCount_option hend hvalue hw, ih]
    omega
  | word h hw => rw [List.drop_eq_getElem_cons h, leadingCount_word hw, Nat.add_zero]

theorem exists_endsAt (words : List String) (k : Nat) : ∃ i, EndsAt words k i := by
  by_cases h : k < words.length
  · by_cases hend : words[k] = "--"
    · exact ⟨k + 1, .ended h hend⟩
    by_cases hvalue : words[k] ∈ valuedWords
    · obtain ⟨i, hi⟩ := exists_endsAt words (k + 2)
      exact ⟨i, .valued h hvalue hi⟩
    cases hw : Text.startsWith "-" words[k] with
    | true =>
      obtain ⟨i, hi⟩ := exists_endsAt words (k + 1)
      exact ⟨i, .option h hend hvalue hw hi⟩
    | false => exact ⟨k, .word h hw⟩
  · exact ⟨k, .past (Nat.le_of_not_lt h)⟩
  termination_by words.length - k

theorem existsUnique_endsAt (words : List String) (k : Nat) : ∃! i, EndsAt words k i := by
  obtain ⟨i, hi⟩ := exists_endsAt words k
  exact ⟨i, hi, fun j hj => hj.eq.trans hi.eq.symm⟩

/-! ## The word that is put in -/

theorem insertIdx_eq_take_drop (args : List String) (word : String) {n : Nat}
    (h : n ≤ args.length) : args.insertIdx n word = args.take n ++ word :: args.drop n := by
  induction n generalizing args with
  | zero => rfl
  | succ n ih =>
    cases args with
    | nil => simp at h
    | cons arg args => simp [ih args (by simpa using h)]

/-- Arguments with nothing but options, or with a subcommand behind these, are left as they are. -/
theorem withSubcommand_of_command {args : List String}
    (h : ∀ word, args[leadingCount args]? = some word → word ∈ commandWords) :
    withSubcommand args = args := by
  unfold withSubcommand
  cases hdrop : args.drop (leadingCount args) with
  | nil => simp only [hdrop]
  | cons word rest =>
    have hword : args[leadingCount args]? = some word := by
      rw [← List.head?_drop, hdrop]
      rfl
    simp only [hdrop]
    exact if_pos (List.contains_iff_mem.2 (h word hword))

/-- The subcommand is put in behind the options. -/
theorem withSubcommand_of_not_command {args : List String} {word : String}
    (hword : args[leadingCount args]? = some word) (h : word ∉ commandWords) :
    withSubcommand args = args.insertIdx (leadingCount args) "decompile" := by
  obtain ⟨hn, hget⟩ := List.getElem?_eq_some_iff.1 hword
  have hdrop := List.drop_eq_getElem_cons hn
  rw [insertIdx_eq_take_drop args _ (Nat.le_of_lt hn), hdrop, hget]
  unfold withSubcommand
  simp only [hdrop, hget]
  exact if_neg fun hc => h (List.contains_iff_mem.1 hc)

/-- A word that is no option is found where it was put in. -/
theorem leadingCount_insertIdx {word : String} (hword : Text.startsWith "-" word = false)
    (args : List String) (h : leadingCount args ≤ args.length) :
    leadingCount (args.insertIdx (leadingCount args) word) = leadingCount args := by
  match args with
  | [] => exact leadingCount_word hword []
  | arg :: rest =>
    by_cases hend : arg = "--"
    · subst hend
      rw [leadingCount_ended, List.insertIdx_succ_cons, leadingCount_ended]
    by_cases hvalue : arg ∈ valuedWords
    · rw [leadingCount_valued hvalue] at h ⊢
      match rest with
      | [] => simp at h; omega
      | value :: rest =>
        rw [List.drop_one, List.tail_cons, Nat.add_comm] at h ⊢
        rw [List.insertIdx_succ_cons, List.insertIdx_succ_cons, leadingCount_valued hvalue,
          List.drop_one, List.tail_cons, Nat.add_comm,
          leadingCount_insertIdx hword rest (by simpa using h)]
    cases hdash : Text.startsWith "-" arg with
    | true =>
      rw [leadingCount_option hend hvalue hdash, Nat.add_comm] at h ⊢
      rw [List.insertIdx_succ_cons, leadingCount_option hend hvalue hdash, Nat.add_comm,
        leadingCount_insertIdx hword rest (by simpa using h)]
    | false =>
      rw [leadingCount_word hdash, List.insertIdx_zero, leadingCount_word hword]

/-- Putting the subcommand in again changes nothing. -/
theorem withSubcommand_withSubcommand (args : List String) :
    withSubcommand (withSubcommand args) = withSubcommand args := by
  by_cases h : ∀ word, args[leadingCount args]? = some word → word ∈ commandWords
  · rw [withSubcommand_of_command h, withSubcommand_of_command h]
  · obtain ⟨word, hword⟩ := Classical.not_forall.1 h
    obtain ⟨hget, hnot⟩ := Classical.not_imp.1 hword
    have hn : leadingCount args ≤ args.length :=
      Nat.le_of_lt (List.getElem?_eq_some_iff.1 hget).1
    have hdash : Text.startsWith "-" "decompile" = false := by decide
    rw [withSubcommand_of_not_command hget hnot]
    refine withSubcommand_of_command fun word hword => ?_
    rw [leadingCount_insertIdx hdash args hn, List.getElem?_insertIdx_self, if_pos hn] at hword
    obtain rfl := Option.some.inj hword
    decide

/-! ## Command lines that are understood -/

/-- Whether an option is given with a value. -/
def Role.isValued : Role → Bool
  | valued _ => true
  | _ => false

namespace Progress

variable {level : Level} {p q : Progress} {s : Switch}

/-- Options have not ended, and if a value is waited for it is that of an option. -/
structure Sound (p : Progress) : Prop where
  goesOn : p.trailing = false
  waits : p.expecting = true → ∃ s, p.pending = some (.option s []) ∧ s.role.isValued = true

theorem sound_start : start.Sound := ⟨rfl, nofun⟩

theorem note_eq_ok {value : Option String} (hq : p.note s value = .ok q) :
    q.expecting = p.expecting ∧ q.trailing = p.trailing := by
  unfold note at hq
  split at hq
  · cases hq
  · split at hq
    · split at hq
      · cases hq; exact ⟨rfl, rfl⟩
      · cases hq
    · cases hq
    · cases hq; exact ⟨rfl, rfl⟩

/-- Nothing is waited for where a value is taken note of. -/
theorem Sound.settle_eq_ok (h : p.Sound) (hq : p.settle level = .ok q) :
    p.expecting = false ∧ q.expecting = false ∧ q.trailing = false := by
  have hnot : p.expecting = false := by
    refine Bool.eq_false_iff.2 fun hexp => ?_
    obtain ⟨s, hpending, hrole⟩ := h.waits hexp
    unfold settle at hq
    rw [hpending] at hq
    cases hs : s.role <;> simp_all [Role.isValued]
  refine ⟨hnot, ?_⟩
  unfold settle at hq
  split at hq
  · cases hq
    exact ⟨hnot, h.goesOn⟩
  · split at hq
    · cases hq
    · obtain ⟨he, ht⟩ := note_eq_ok hq
      exact ⟨he, ht.trans h.goesOn⟩
  · obtain ⟨he, ht⟩ := note_eq_ok hq
    exact ⟨he, ht.trans h.goesOn⟩
  · split at hq
    · cases hq
      exact ⟨rfl, h.goesOn⟩
    · cases hq

/-- An option with a value of its own that is not given yet is what is waited for. -/
theorem Sound.readSwitch_eq_ok {value : Option String} (h : p.Sound)
    (hq : p.readSwitch level s value = .ok q) :
    p.expecting = false ∧ q.Sound ∧ q.expecting = (s.role.isValued && value.isNone) := by
  obtain ⟨r, hr, hq⟩ := exists_of_bind_ok hq
  obtain ⟨hnot, hexp, hgoes⟩ := h.settle_eq_ok hr
  refine ⟨hnot, ?_⟩
  have hnote : ∀ {v}, r.note s v = .ok q → q.Sound ∧ q.expecting = false := by
    intro v hv
    obtain ⟨he, ht⟩ := note_eq_ok hv
    rw [hexp] at he
    exact ⟨⟨ht.trans hgoes, fun hc => absurd (he.symm.trans hc) nofun⟩, he⟩
  cases hrole : s.role with
  | help =>
    rw [hrole] at hq
    cases hq
  | flag =>
    rw [hrole] at hq
    exact hnote hq
  | valued kind =>
    rw [hrole] at hq
    cases value with
    | some v => exact hnote hq
    | none =>
      cases hq
      exact ⟨⟨hgoes, fun _ => ⟨s, rfl, by rw [hrole]; rfl⟩⟩, rfl⟩

theorem isValued_eq {s : Switch} (h : s ∈ globalSwitches) :
    s.role.isValued = decide ("--" ++ s.name ∈ valuedWords) := by
  have hall : ∀ s ∈ globalSwitches, s.role.isValued = decide ("--" ++ s.name ∈ valuedWords) := by
    decide
  exact hall s h

/-- A long option before a subcommand waits for a value exactly if it is one of those that are
passed over together with the word behind. -/
theorem Sound.readLong_eq_ok {body : String} (h : p.Sound)
    (hq : p.readLong topLevel body = .ok q) :
    p.expecting = false ∧ q.Sound ∧ q.expecting = decide ("--" ++ body ∈ valuedWords) := by
  unfold readLong at hq
  by_cases heq : '=' ∈ body.toList
  · -- the value stands in the same word, which is none of those passed over in pairs
    have hshort : "--" ++ body ∉ valuedWords := by
      have hall : ∀ word ∈ valuedWords, '=' ∉ word.toList := by decide
      exact fun hc => hall _ hc (by simp [String.toList_append, heq])
    obtain ⟨name, v, more, hsplit⟩ : ∃ name v more, Text.split '=' body = name :: v :: more := by
      have hlength := Text.length_split '=' body
      have hcount := List.count_pos_iff.2 heq
      match Text.split '=' body, hlength with
      | [], hl => simp at hl
      | [_], hl => simp at hl; omega
      | name :: v :: more, _ => exact ⟨name, v, more, rfl⟩
    rw [hsplit] at hq
    simp only [hshort, decide_false]
    cases hfind : topLevel.switches.find? (·.name == name) with
    | none => simp [hfind] at hq
    | some s =>
      cases hrole : s.role with
      | flag => simp [hfind, hrole] at hq
      | help => simp [hfind, hrole] at hq
      | valued kind =>
        simp only [hfind, hrole] at hq
        simpa using h.readSwitch_eq_ok hq
  · rw [Text.split_eq_singleton heq] at hq
    cases hfind : topLevel.switches.find? (·.name == body) with
    | none => simp [hfind] at hq
    | some s =>
      simp only [hfind] at hq
      obtain ⟨hnot, hsound, hexp⟩ := h.readSwitch_eq_ok hq
      have hname : s.name = body := by simpa using List.find?_some hfind
      rw [isValued_eq (List.mem_of_find?_eq_some hfind), hname] at hexp
      exact ⟨hnot, hsound, by simpa using hexp⟩

/-- No letter before a subcommand has a value. -/
theorem Sound.readLetters_eq_ok {letters : List Char} (h : p.Sound)
    (hq : p.readLetters topLevel letters = .ok q) :
    q.Sound ∧ (letters ≠ [] → p.expecting = false ∧ q.expecting = false) := by
  induction letters generalizing p with
  | nil =>
    cases hq
    exact ⟨h, fun hne => absurd rfl hne⟩
  | cons c letters ih =>
    unfold readLetters at hq
    cases hfind : topLevel.switches.find? (·.letter == some c) with
    | none => simp [hfind] at hq
    | some s =>
      have hletter : s.letter = some c := by simpa using List.find?_some hfind
      have hall : ∀ s ∈ globalSwitches, s.letter.isSome = true → s.role.isValued = false := by
        decide
      have hflag := hall s (List.mem_of_find?_eq_some hfind) (by simp [hletter])
      have hread : p.readSwitch topLevel s none >>= (readLetters topLevel · letters) = .ok q := by
        cases hrole : s.role <;> simp_all [Role.isValued]
      obtain ⟨r, hr, hrest⟩ := exists_of_bind_ok hread
      obtain ⟨hnot, hsound, hexp⟩ := h.readSwitch_eq_ok hr
      rw [hflag] at hexp
      obtain ⟨hq, hne⟩ := ih hsound hrest
      refine ⟨hq, fun _ => ⟨hnot, ?_⟩⟩
      cases letters with
      | nil =>
        cases hrest
        exact hexp
      | cons => exact (hne nofun).2

theorem readOperand_topLevel (p q : Progress) (arg : String) :
    p.readOperand topLevel arg ≠ .ok q := by
  have hread : p.readOperand topLevel arg = .error
      (if topLevel.subcommands.isEmpty || (p.trailing && topLevel.subcommands.contains arg) then
        .unknownArgument else .invalidSubcommand) := (apply_ite Except.error _ _ _).symm
  rw [hread]
  exact nofun

/-- Before a subcommand a word is the value that is waited for, or else an option, and that waits
for a value exactly if it is one of those passed over together with the word behind. -/
theorem Sound.read_topLevel {arg : String} (h : p.Sound) (hq : p.read topLevel arg = .ok q) :
    q.trailing = true ∨ q.Sound ∧
      (p.expecting = true ∧ q.expecting = false ∨
        p.expecting = false ∧ arg ≠ "--" ∧ Text.startsWith "-" arg = true ∧
          q.expecting = decide (arg ∈ valuedWords)) := by
  -- a value that is read is the one waited for
  have hvalue : (if p.expecting then Except.ok (p.readValue arg) else p.readOperand topLevel arg) =
      .ok q → p.expecting = true ∧ q.Sound ∧ q.expecting = false := by
    intro hq
    cases hexp : p.expecting with
    | false => exact absurd (by simpa [hexp] using hq) (readOperand_topLevel p q arg)
    | true =>
      obtain ⟨s, hpending, -⟩ := h.waits hexp
      obtain rfl : p.readValue arg = q := by simpa [hexp] using hq
      unfold readValue
      rw [hpending]
      exact ⟨rfl, ⟨h.goesOn, nofun⟩, rfl⟩
  unfold read at hq
  rw [if_neg (by simp [h.goesOn])] at hq
  split at hq
  · cases hq
    exact .inl rfl
  rename_i hend
  right
  split at hq
  · rename_i body hlong
    obtain rfl := Text.dropHead?_eq_some_iff.1 hlong
    obtain ⟨hnot, hsound, hexp⟩ := h.readLong_eq_ok hq
    have hdash : Text.startsWith "-" ("--" ++ body) = true :=
      Text.startsWith_iff.2 ⟨"-" ++ body, by rw [← String.append_assoc]; rfl⟩
    exact ⟨hsound, .inr ⟨hnot, hend, hdash, hexp⟩⟩
  · rename_i body hlong hshort
    split at hq
    · obtain ⟨hexp, hsound, hdone⟩ := hvalue hq
      exact ⟨hsound, .inl ⟨hexp, hdone⟩⟩
    · rename_i hbody
      obtain ⟨hsound, hletters⟩ := h.readLetters_eq_ok hq
      obtain ⟨hnot, hexp⟩ := hletters fun hnil => hbody (String.toList_injective hnil)
      have hvalued : arg ∉ valuedWords := by
        have hall : ∀ word ∈ valuedWords, Text.startsWith "--" word = true := by decide
        rw [Text.dropHead?_eq_none_iff] at hlong
        exact fun hc => absurd (hall arg hc) (by simp [hlong])
      have hdash : Text.startsWith "-" arg = true :=
        Text.startsWith_iff.2 ⟨body, Text.dropHead?_eq_some_iff.1 hshort⟩
      exact ⟨hsound, .inr ⟨hnot, hend, hdash, by simp [hexp, hvalued]⟩⟩
  · obtain ⟨hexp, hsound, hdone⟩ := hvalue hq
    exact ⟨hsound, .inl ⟨hexp, hdone⟩⟩

end Progress

/-- No subcommand stands behind the end of the options. -/
theorem readLevel_of_trailing {p q : Progress} (h : p.trailing = true) {args : List String}
    {found : String × List String} : readLevel topLevel p args ≠ .ok (q, some found) := by
  intro hq
  cases args with
  | nil =>
    obtain ⟨r, -, hr⟩ := exists_of_bind_ok hq
    cases hr
  | cons arg rest =>
    unfold readLevel at hq
    rw [if_neg (by simp [h])] at hq
    obtain ⟨r, hr, -⟩ := exists_of_bind_ok hq
    unfold Progress.read at hr
    rw [if_pos h] at hr
    exact p.readOperand_topLevel r arg hr

/-- The words behind the value that is waited for. -/
def Progress.behind (p : Progress) (args : List String) : List String :=
  if p.expecting then args.drop 1 else args

/-- The subcommand that is read stands behind the options. -/
theorem readLevel_topLevel {p q : Progress} {args rest : List String} {name : String}
    (h : p.Sound) (hq : readLevel topLevel p args = .ok (q, some (name, rest))) :
    name ∈ commandWords ∧ (p.behind args)[leadingCount (p.behind args)]? = some name := by
  induction args generalizing p with
  | nil =>
    obtain ⟨r, -, hr⟩ := exists_of_bind_ok hq
    cases hr
  | cons arg args ih =>
    unfold readLevel at hq
    split at hq
    · rename_i hfound
      simp only [Bool.and_eq_true, Bool.not_eq_true'] at hfound
      obtain ⟨⟨-, hexp⟩, hmem⟩ := hfound
      obtain rfl : arg = name := by
        split at hq
        · cases hq
        · cases hq
          rfl
      have harg : arg ∈ commandWords := List.contains_iff_mem.1 hmem
      have hall : ∀ word ∈ commandWords, Text.startsWith "-" word = false := by decide
      refine ⟨harg, ?_⟩
      rw [Progress.behind, hexp, if_neg nofun, leadingCount_word (hall arg harg)]
      rfl
    · obtain ⟨r, hr, hq⟩ := exists_of_bind_ok hq
      rcases h.read_topLevel hr with
        htrailing | ⟨hsound, ⟨hexp, hdone⟩ | ⟨hexp, hend, hdash, hnext⟩⟩
      · exact absurd hq (readLevel_of_trailing htrailing)
      · obtain ⟨hname, hget⟩ := ih hsound hq
        refine ⟨hname, ?_⟩
        rw [Progress.behind, hdone, if_neg nofun] at hget
        rw [Progress.behind, hexp, if_pos rfl]
        exact hget
      · obtain ⟨hname, hget⟩ := ih hsound hq
        refine ⟨hname, ?_⟩
        rw [Progress.behind, hexp, if_neg nofun]
        by_cases hvalue : arg ∈ valuedWords
        · rw [Progress.behind, hnext, if_pos (decide_eq_true hvalue)] at hget
          rw [leadingCount_valued hvalue, Nat.add_comm, List.getElem?_cons_succ, ← hget,
            List.getElem?_drop, Nat.add_comm]
        · rw [Progress.behind, hnext, if_neg (by simpa using hvalue)] at hget
          rw [leadingCount_option hend hvalue hdash, Nat.add_comm, List.getElem?_cons_succ, hget]

/-- Arguments that are understood are left as they are. -/
theorem withSubcommand_of_parse {args : List String} {invocation : Invocation}
    (h : parse args = .ok invocation) : withSubcommand args = args := by
  obtain ⟨⟨top, found⟩, hread, h⟩ := exists_of_bind_ok h
  cases found with
  | none => cases h
  | some found =>
    obtain ⟨hname, hget⟩ := readLevel_topLevel Progress.sound_start hread
    refine withSubcommand_of_command fun word hword => ?_
    rw [Progress.behind, if_neg nofun] at hget
    rw [hget] at hword
    exact Option.some.inj hword ▸ hname

/-! ## Command lines -/

/-- The words of a command line, the program's own name among them, with the subcommand put in where
there is none. -/
def inFull (words : List String) : List String := words.take 1 ++ withSubcommand (words.drop 1)

/-- The subcommand of a command line is put in behind the options, and only where no word of that
kind stands. -/
structure SaysInFull (words : List String) : Prop where
  place : ∃! i, EndsAt words 1 i
  stays : ∀ i, EndsAt words 1 i → (∀ h : i < words.length, words[i] ∈ commandWords) →
    inFull words = words
  putIn : ∀ i, EndsAt words 1 i → ∀ h : i < words.length, words[i] ∉ commandWords →
    inFull words = words.insertIdx i "decompile"
  again : inFull (inFull words) = inFull words
  understood : ∀ invocation, parse (words.drop 1) = .ok invocation → inFull words = words

theorem inFull_cons (program : String) (args : List String) :
    inFull (program :: args) = program :: withSubcommand args := rfl

/-- Every command line is said in full by a subcommand in the one place for it, whether that stands
there already or is put in. Doing so again changes nothing, nor does it where the command line is
understood as it stands. -/
theorem says_in_full (words : List String) : SaysInFull words := by
  match words with
  | [] =>
    exact ⟨existsUnique_endsAt [] 1, fun _ _ _ => rfl, fun i _ h => absurd h (Nat.not_lt_zero i),
      rfl, fun _ _ => rfl⟩
  | program :: args =>
    have hplace : ∀ {i}, EndsAt (program :: args) 1 i → i = leadingCount args + 1 := by
      intro i hi
      rw [hi.eq, Nat.add_comm]
      rfl
    refine ⟨existsUnique_endsAt _ 1, fun i hi hstays => ?_, fun i hi h hnot => ?_, ?_,
      fun invocation hparse => ?_⟩
    · obtain rfl := hplace hi
      rw [inFull_cons, withSubcommand_of_command fun word hword => ?_]
      obtain ⟨h, rfl⟩ := List.getElem?_eq_some_iff.1 hword
      exact hstays (Nat.succ_lt_succ h)
    · obtain rfl := hplace hi
      rw [inFull_cons, List.insertIdx_succ_cons,
        withSubcommand_of_not_command (List.getElem?_eq_getElem (Nat.lt_of_succ_lt_succ h)) hnot]
    · rw [inFull_cons, inFull_cons, withSubcommand_withSubcommand]
    · have hsame : withSubcommand args = args := withSubcommand_of_parse hparse
      rw [inFull_cons, hsame]

/-- The options in front of a subcommand may have values of their own. -/
theorem selection_said_in_full :
    inFull ["class-lens", "--jd", "/t/jd.jar", "select", "jd-core"] =
      ["class-lens", "--jd", "/t/jd.jar", "select", "jd-core"] :=
  (says_in_full ["class-lens", "--jd", "/t/jd.jar", "select", "jd-core"]).understood
    ⟨⟨none, none, none, none, some ⟨"/t/jd.jar"⟩, false⟩, .select "jd-core"⟩ rfl

end ClassViewer.CommandLine
