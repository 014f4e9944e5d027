import ClassViewer.Proofs.EngineOutcome
import ClassViewer.Proofs.Lines.Placement
import Mathlib.Algebra.GroupWithZero.Nat
import Mathlib.Data.List.Infix

/-!
# Printed lines

JD-Core prints a class through calls, and the printer has to know at any time on which line the text
is, how far it is indented and which source line was started on which of its lines. The depth of
indentation is the number of indentations that no later run of calls has closed (`openIndents`) :
unindenting where nothing is open has no effect on it (`foldl_indentsAfter`). The source line of a
line is the last known one that was started on it (`sourceOf?`). `Printer.Tracks` says that a
printer knows all this; every call keeps it (`Printer.Tracks.receive`), as long as the lines can be
counted and no text is printed over the end of a line (`OnLines`). So the lines of the text land
where their source lines are, if they are not beyond them already
(`printed_lines_stand_on_places`).
-/

namespace ClassViewer

namespace JdCore

/-! ## Calls on lines -/

/-- What a call prints on the line the text is on. -/
def Call.printed : Call → String
  | text t | number t | string t _ | keyword t | declaration _ t | reference _ t => t
  | _ => ""

/-- How many lines a call ends. -/
def Call.linesEnded : Call → Nat
  | endLine => 1
  | extraLine count => count
  | _ => 0

/-- Calls behind a start that print on lines : none of them starts again or prints a newline, and
the lines can be counted. -/
structure OnLines (calls : List Call) : Prop where
  begun : ∀ maxLine major minor, .start maxLine major minor ∉ calls
  printed : ∀ c ∈ calls, '\n' ∉ c.printed.toList
  counted : (calls.map Call.linesEnded).sum < 0xFFFFFFFF

theorem OnLines.of_append {calls later : List Call} (h : OnLines (calls ++ later)) :
    OnLines calls where
  begun maxLine major minor hm := h.begun maxLine major minor (List.mem_append_left later hm)
  printed c hc := h.printed c (List.mem_append_left later hc)
  counted := by
    have hcounted := h.counted
    rw [List.map_append, List.sum_append] at hcounted
    omega

/-- The number of the line that the end of a text is on. -/
def lineOf (text : String) : Nat := text.toList.count '\n' + 1

theorem count_written {c : Call} (hc : '\n' ∉ c.printed.toList) (indents : Nat) :
    (c.written indents).toList.count '\n' = c.linesEnded := by
  cases c with
  | startLine n =>
    refine List.count_eq_zero.2 (Text.not_mem_join (by decide) fun p hp => ?_)
    rw [(List.mem_replicate.1 hp).2]
    decide
  | extraLine count => simp [Call.written, Call.linesEnded]
  | endLine => simp [Call.written, Call.linesEnded]
  | start maxLine major minor => rfl
  | finish => rfl
  | indent => rfl
  | unindent => rfl
  | text t | number t | string t _ | keyword t | declaration _ t | reference _ t =>
    exact List.count_eq_zero.2 hc

theorem lineOf_append_written (text : String) {c : Call} (hc : '\n' ∉ c.printed.toList)
    (indents : Nat) : lineOf (text ++ c.written indents) = lineOf text + c.linesEnded := by
  rw [lineOf, String.toList_append, List.count_append, count_written hc, lineOf]
  omega

theorem toNat_lineAfter {line : LineNumber} {c : Call}
    (hc : ∀ maxLine major minor, c ≠ .start maxLine major minor)
    (hlt : line.toNat + c.linesEnded < 0x100000000) :
    (c.lineAfter line).toNat = line.toNat + c.linesEnded := by
  cases c with
  | start maxLine major minor => exact absurd rfl (hc maxLine major minor)
  | endLine => exact (UInt32.toNat_add ..).trans (Nat.mod_eq_of_lt hlt)
  | extraLine count =>
    have hcount : (UInt32.ofNat count).toNat = count :=
      UInt32.toNat_ofNat_of_lt' (show _ < 0x100000000 from (Nat.le_add_left ..).trans_lt hlt)
    rw [Call.lineAfter, UInt32.toNat_add, hcount]
    exact Nat.mod_eq_of_lt hlt
  | _ => rfl

theorem sentText_concat (indents : Nat) (calls : List Call) (c : Call) :
    sentText indents (calls ++ [c]) =
      sentText indents calls ++ c.written (calls.foldl Call.indentsAfter indents) := by
  induction calls generalizing indents with
  | nil => simp [sentText]
  | cons d calls ih => rw [List.cons_append, sentText, ih, sentText, String.append_assoc]; rfl

theorem lineOf_sentText {calls : List Call} (h : OnLines calls) (indents : Nat) :
    lineOf (sentText indents calls) = (calls.map Call.linesEnded).sum + 1 := by
  induction calls using List.reverseRecOn with
  | nil => rfl
  | append_singleton calls c ih =>
    rw [sentText_concat, lineOf_append_written _ (h.printed c (by simp)), ih h.of_append,
      List.map_append, List.sum_append, List.map_singleton, List.sum_singleton]
    omega

/-! ## Open indentations -/

/-- Whether an indentation is still open after some calls : at no point more indentations had ended
than begun. -/
def staysOpen (later : List Call) : Bool :=
  later.inits.all fun run => run.count .unindent ≤ run.count .indent

/-- How many of the indentations that some calls begin are still open after them. -/
def openIndents : List Call → Nat
  | [] => 0
  | c :: later => (if c = .indent ∧ staysOpen later then 1 else 0) + openIndents later

/-- How many indentations some calls end that they did not begin. -/
def surplusUnindents : List Call → Nat
  | [] => 0
  | .indent :: later => surplusUnindents later - 1
  | .unindent :: later => surplusUnindents later + 1
  | _ :: later => surplusUnindents later

theorem surplusUnindents_le_iff (calls : List Call) (n : Nat) : surplusUnindents calls ≤ n ↔
    ∀ run ∈ calls.inits, run.count .unindent ≤ run.count .indent + n := by
  induction calls generalizing n with
  | nil => simp [surplusUnindents]
  | cons c later ih =>
    rw [List.inits_cons, List.forall_mem_cons, List.forall_mem_map]
    cases c with
    | indent =>
      have hless : surplusUnindents later - 1 ≤ n ↔ surplusUnindents later ≤ n + 1 := by omega
      rw [surplusUnindents, hless, ih]
      simp [Nat.add_right_comm _ 1 n, Nat.add_assoc]
    | unindent =>
      cases n with
      | zero =>
        refine ⟨nofun, fun h => absurd (h.2 [] ?_) (by decide)⟩
        exact (List.mem_inits _ _).2 List.nil_prefix
      | succ n =>
        rw [surplusUnindents, Nat.add_le_add_iff_right, ih]
        simp [← Nat.add_assoc]
    | _ => simpa [surplusUnindents, List.count_cons] using ih n

theorem staysOpen_iff (later : List Call) :
    staysOpen later = true ↔ surplusUnindents later = 0 := by
  rw [← Nat.le_zero, surplusUnindents_le_iff]
  simp [staysOpen]

/-- Unindenting has no effect where nothing is open. -/
theorem foldl_indentsAfter (calls : List Call) (indents : Nat) :
    calls.foldl Call.indentsAfter indents =
      openIndents calls + (indents - surplusUnindents calls) := by
  induction calls generalizing indents with
  | nil => simp [openIndents, surplusUnindents]
  | cons c later ih =>
    rw [List.foldl_cons, ih, openIndents]
    cases c with
    | indent =>
      rw [Call.indentsAfter, surplusUnindents]
      by_cases hopen : staysOpen later
      · rw [if_pos ⟨rfl, hopen⟩, (staysOpen_iff later).1 hopen]
        omega
      · have hsurplus := mt (staysOpen_iff later).2 hopen
        rw [if_neg fun h => hopen h.2]
        omega
    | unindent =>
      have hother : ¬(Call.unindent = .indent ∧ staysOpen later) := by simp
      rw [Call.indentsAfter, surplusUnindents, if_neg hother]
      omega
    | _ => simp [Call.indentsAfter, surplusUnindents]

theorem openIndents_eq (calls : List Call) :
    openIndents calls = calls.foldl Call.indentsAfter 0 := by
  rw [foldl_indentsAfter, Nat.zero_sub, Nat.add_zero]

theorem openIndents_concat (calls : List Call) (c : Call) :
    openIndents (calls ++ [c]) = c.indentsAfter (openIndents calls) := by
  rw [openIndents_eq, openIndents_eq, List.foldl_append]
  rfl

example : openIndents [.unindent, .indent, .indent, .unindent, .text "a"] = 1 := by decide

/-! ## Started lines -/

/-- The source line a call starts, if it is known. -/
def Call.source? : Call → Option LineNumber
  | startLine n => if 0 < n then some n else none
  | _ => none

/-- The known source lines that were started, each behind the line that the text was on. -/
def startedLines (calls : List Call) : List (Nat × LineNumber) :=
  (List.range calls.length).filterMap fun k =>
    (calls[k]?.bind Call.source?).map fun n => (lineOf (sentText 0 (calls.take k)), n)

/-- The source line of a line of the text : of those started on it, the last. -/
def sourceOf? (calls : List Call) (d : Nat) : Option LineNumber :=
  ((startedLines calls).filter (·.1 == d)).getLast?.map Prod.snd

theorem startedLines_concat (calls : List Call) (c : Call) : startedLines (calls ++ [c]) =
    startedLines calls ++ (c.source?.map fun n => (lineOf (sentText 0 calls), n)).toList := by
  have hbefore : ∀ k ∈ List.range calls.length,
      (((calls ++ [c])[k]?.bind Call.source?).map fun n =>
        (lineOf (sentText 0 ((calls ++ [c]).take k)), n)) =
      (calls[k]?.bind Call.source?).map fun n => (lineOf (sentText 0 (calls.take k)), n) := by
    intro k hk
    have hlt := List.mem_range.1 hk
    rw [List.getElem?_append_left hlt, List.take_append_of_le_length hlt.le]
  rw [startedLines, List.length_append, List.length_singleton, List.range_succ,
    List.filterMap_append, List.filterMap_congr hbefore, startedLines]
  congr 1
  cases hc : c.source? with
  | none => simp [hc]
  | some n => simp [hc]

theorem sourceOf?_concat (calls : List Call) (c : Call) (d : Nat) : sourceOf? (calls ++ [c]) d =
    (if lineOf (sentText 0 calls) = d then c.source? else none).or (sourceOf? calls d) := by
  rw [sourceOf?, startedLines_concat, List.filter_append, List.getLast?_append, Option.map_or,
    ← sourceOf?]
  congr 1
  cases c.source? with
  | none => simp
  | some n => by_cases hd : lineOf (sentText 0 calls) = d <;> simp [hd]

/-- The source line a printer has recorded for a line of the text. -/
def recordedFor (preserve : Bool) (maxLine : LineNumber) (calls : List Call) (d : Nat) :
    Option LineNumber :=
  if preserve = true ∧ 0 < maxLine then sourceOf? calls d else none

theorem recordedFor_concat (preserve : Bool) (maxLine : LineNumber) (calls : List Call) (c : Call)
    (d : Nat) : recordedFor preserve maxLine (calls ++ [c]) d =
      (if (preserve = true ∧ 0 < maxLine) ∧ lineOf (sentText 0 calls) = d then c.source?
        else none).or (recordedFor preserve maxLine calls d) := by
  unfold recordedFor
  by_cases htold : preserve = true ∧ 0 < maxLine
  · simp only [htold, and_self, true_and, if_true, sourceOf?_concat]
  · simp only [htold, false_and, if_false, Option.or_none]

/-- A call tells of the line that the text is on, and of no other. -/
theorem lastSource_pairPart (told : Bool) {line : LineNumber} (hline : 0 < line) (c : Call)
    (d : LineNumber) : lastSource (c.pairPart told line) d =
      if told = true ∧ line = d then c.source? else none := by
  have hnone : lastSource [] d = none := rfl
  cases c with
  | startLine n =>
    cases told with
    | false => rfl
    | true =>
      have hpair : (Call.startLine n).pairPart true line = [(line, n)] := rfl
      rw [hpair, lastSource_cons, hnone, Option.none_or, tellsOf, Call.source?]
      by_cases hd : line = d
      · simp [hd ▸ hline, hd]
      · simp [hd]
  | _ => simp [Call.pairPart, Call.source?, hnone]

/-! ## The printer -/

theorem collect_concat (preserve : Bool) (calls : List Call) (c : Call) :
    collect preserve (calls ++ [c]) = (collect preserve calls).receive preserve c := by
  rw [collect, List.foldl_append]
  rfl

/-- What a printer has to keep about the calls behind a start. -/
structure Printer.Tracks (preserve : Bool) (maxLine : LineNumber) (calls : List Call)
    (p : Printer) : Prop where
  recording : p.recording = (preserve && decide (0 < maxLine))
  indents : p.indents = openIndents calls
  text : p.text = sentText 0 calls
  /-- The printer knows the line that the text is on. -/
  line : p.line.toNat = lineOf p.text
  /-- Every line is mapped to the last known source line that was started on it. -/
  mapping : ∀ d, p.mapping.get? d = recordedFor preserve maxLine calls d.toNat

section

variable {preserve : Bool} {maxLine : LineNumber} {calls : List Call} {p : Printer}

theorem tracks_start (preserve : Bool) (maxLine : LineNumber) (major minor : Nat) :
    (Printer.blank.receive preserve (.start maxLine major minor)).Tracks preserve maxLine [] where
  recording := rfl
  indents := rfl
  text := rfl
  line := rfl
  mapping d := by
    unfold recordedFor
    split <;> rfl

/-- One call leaves a printer that keeps track of one call more. -/
theorem Printer.Tracks.receive {c : Call} (hp : p.Tracks preserve maxLine calls)
    (h : OnLines (calls ++ [c])) :
    (p.receive preserve c).Tracks preserve maxLine (calls ++ [c]) := by
  have hc : ∀ maxLine major minor, c ≠ .start maxLine major minor := by
    rintro maxLine major minor rfl
    exact h.begun maxLine major minor (by simp)
  have htold : c.toldAfter (decide (0 < maxLine)) = decide (0 < maxLine) := by
    cases c with
    | start maxLine major minor => exact absurd rfl (hc maxLine major minor)
    | _ => rfl
  have hlines := lineOf_append_written p.text (h.printed c (by simp)) p.indents
  have hlt : p.line.toNat + c.linesEnded < 0x100000000 := by
    have hcounted := h.counted
    rw [List.map_append, List.sum_append, List.map_singleton, List.sum_singleton] at hcounted
    rw [hp.line, hp.text, lineOf_sentText h.of_append]
    omega
  rw [receive_eq hp.recording]
  refine ⟨?_, ?_, ?_, ?_, fun d => ?_⟩
  · rw [htold]
  · rw [hp.indents, openIndents_concat]
  · rw [hp.text, hp.indents, sentText_concat, openIndents_eq]
  · rw [toNat_lineAfter hc hlt, hp.line, hlines]
  · have hpositive : 0 < p.line := by
      rw [UInt32.lt_iff_toNat_lt, hp.line]
      exact Nat.zero_lt_succ _
    have hline : p.line = d ↔ lineOf (sentText 0 calls) = d.toNat := by
      rw [← hp.text, ← hp.line, UInt32.toNat_inj]
    rw [recordedFor_concat, ← hp.mapping]
    cases preserve with
    | false => simp
    | true =>
      rw [if_pos rfl, LineMapping.get?_extend, lastSource_pairPart _ hpositive]
      simp [hline]

/-- A printer keeps track of all calls behind a start. -/
theorem tracks_collect (preserve : Bool) (maxLine : LineNumber) (major minor : Nat)
    {calls : List Call} (h : OnLines calls) :
    (collect preserve (.start maxLine major minor :: calls)).Tracks preserve maxLine calls := by
  induction calls using List.reverseRecOn with
  | nil => exact tracks_start preserve maxLine major minor
  | append_singleton calls c ih =>
    have hnext := (ih h.of_append).receive h
    rwa [← collect_concat] at hnext

/-- A line is started with four spaces for each open indentation. -/
theorem Printer.Tracks.text_startLine (hp : p.Tracks preserve maxLine calls) (n : LineNumber) :
    (p.receive preserve (.startLine n)).text =
      p.text ++ String.ofList (List.replicate (4 * openIndents calls) ' ') := by
  have hspaces : ∀ k, Text.join "" (List.replicate k indentText) =
      String.ofList (List.replicate (4 * k) ' ') := by
    intro k
    induction k with
    | zero => rfl
    | succ k ih =>
      have hlevel : indentText = String.ofList (List.replicate 4 ' ') := by decide
      rw [List.replicate_succ, Text.join_empty_cons, ih, hlevel, ← String.ofList_append,
        List.replicate_append_replicate, Nat.mul_succ, Nat.add_comm 4]
  rw [receive_eq hp.recording, hp.indents, Call.written, hspaces]

end

/-! ## Where lines stand -/

/-- Where a line of the text belongs : on its own number, or where a line at or before it with a
source line would push it to. -/
def places (preserve : Bool) (maxLine : LineNumber) (calls : List Call) (i : Nat) : Set Nat :=
  {x | x = i ∨ ∃ j n, 0 < j ∧ j ≤ i ∧ recordedFor preserve maxLine calls j = some n ∧
    x = n.toNat + (i - j)}

theorem isGreatest_places {preserve : Bool} {maxLine : LineNumber} {calls : List Call} {p : Printer}
    (hp : p.Tracks preserve maxLine calls) {i : Nat} (hi : i < 0x100000000) :
    IsGreatest (places preserve maxLine calls i) (p.mapping.landing i) := by
  have htarget : ∀ j ≤ i, p.mapping.target? j =
      (recordedFor preserve maxLine calls j).map UInt32.toNat := by
    intro j hj
    have hlt : j < 0x100000000 := hj.trans_lt hi
    rw [LineMapping.target?, if_pos hlt, hp.mapping, UInt32.toNat_ofNat_of_lt' hlt]
  have hplaces : places preserve maxLine calls i = {x | x = i ∨
      ∃ j t, 0 < j ∧ j ≤ i ∧ p.mapping.target? j = some t ∧ x = t + (i - j)} := by
    refine Set.ext fun x => or_congr_right ⟨?_, ?_⟩
    · rintro ⟨j, n, hj, hji, hn, rfl⟩
      exact ⟨j, n.toNat, hj, hji, by rw [htarget j hji, hn]; rfl, rfl⟩
    · rintro ⟨j, t, hj, hji, ht, rfl⟩
      rw [htarget j hji] at ht
      obtain ⟨n, hn, rfl⟩ := Option.map_eq_some_iff.1 ht
      exact ⟨j, n, hj, hji, hn, rfl⟩
  rw [hplaces]
  exact p.mapping.isGreatest_landing i

/-- After every call behind a start, the printer knows the line of the text and the open
indentations, and every line is mapped to the last known source line that was started on it, if
lines are preserved and announced. A line is indented when it is started. In the text the engine
gives, every printed line stands on the greatest of its places. -/
theorem printed_lines_stand_on_places (preserve : Bool) (maxLine : LineNumber) (major minor : Nat)
    (calls : List Call) (h : OnLines calls) :
    (∀ before after, calls = before ++ after →
      (collect preserve (.start maxLine major minor :: before)).Tracks preserve maxLine before) ∧
    (∀ before n after, calls = before ++ .startLine n :: after →
      let printed := fun sent => (collect preserve (.start maxLine major minor :: sent)).text
      printed (before ++ [.startLine n]) =
        printed before ++ String.ofList (List.replicate (4 * openIndents before) ' ')) ∧
    ∀ (backend : Backend) (id : ClassId) (bytes : ByteArray) (scope : Scope) (host : Host),
      ((backend (scope.primaryFirst id bytes) id.text).run host).1 =
        ⟨.start maxLine major minor :: calls, .ok ()⟩ →
      ∃ text, (((engine backend).decompile id bytes scope preserve).run host).1 = .ok text ∧
        ∀ i line, (Text.newlineSplit (sentText 0 calls))[i]? = some line →
          ∃ place, IsGreatest (places preserve maxLine calls (i + 1)) place ∧
            (Text.newlineSplit text)[place - 1]? = some line := by
  have htracks := tracks_collect preserve maxLine major minor h
  refine ⟨?_, ?_, ?_⟩
  · rintro before after rfl
    exact tracks_collect preserve maxLine major minor h.of_append
  · rintro before n after rfl
    have hbefore := tracks_collect preserve maxLine major minor h.of_append
    dsimp only
    rw [← List.cons_append, collect_concat]
    exact hbefore.text_startLine n
  · intro backend id bytes scope host hrun
    generalize hp : collect preserve (.start maxLine major minor :: calls) = p at htracks
    refine ⟨withFooter (realign p.text p.mapping) descriptor, ?_, fun i line hline => ?_⟩
    · rw [run_decompile, hrun, ← hp]
      rfl
    · obtain ⟨hi, -⟩ := List.getElem?_eq_some_iff.1 hline
      have hcount : i < (calls.map Call.linesEnded).sum + 1 := by
        rwa [Text.newlineSplit, Text.length_split, ← lineOf, lineOf_sentText h] at hi
      have hbound := h.counted
      have hplaced : (Text.newlineSplit (realign p.text p.mapping))[
          p.mapping.landing (i + 1) - 1]? = some line := by
        rw [← htracks.text] at hi hline
        rw [getElem?_realign p.mapping p.text hi, hline]
      obtain ⟨hinside, -⟩ := List.getElem?_eq_some_iff.1 hplaced
      refine ⟨_, isGreatest_places htracks (by omega), ?_⟩
      rw [newlineSplit_withFooter _ (by decide), List.getElem?_append_left hinside, hplaced]

/-- Four lines, of which the second is started three times and the third not at all. -/
def restarted : List Call :=
  [.unindent, .startLine 3, .keyword "class", .endLine, .indent, .startLine 9, .startLine 0,
    .text "a", .startLine 7, .extraLine 2, .startLine 1, .declaration "a/B" "b", .finish]

theorem onLines_restarted : OnLines restarted where
  begun maxLine major minor hm := by simp [restarted] at hm
  printed := by decide
  counted := by decide

theorem restarted_lines_stand_on_places :
    (collect true (.start 9 52 0 :: restarted)).Tracks true 9 restarted ∧
      (collect true (.start 9 52 0 :: restarted)).mapping.get? 2 = some 7 ∧
      ∃ text, (((engine fun _ _ => pure ⟨.start 9 52 0 :: restarted, .ok ()⟩).decompile ⟨"a/B"⟩
          ByteArray.empty .nothing true).run default).1 = .ok text ∧
        ∃ place, IsGreatest (places true 9 restarted 4) place ∧
          (Text.newlineSplit text)[place - 1]? = some "    b" := by
  obtain ⟨htracks, -, hstands⟩ :=
    printed_lines_stand_on_places true 9 52 0 restarted onLines_restarted
  have hall := htracks restarted [] (List.append_nil _).symm
  obtain ⟨text, htext, hlines⟩ := hstands (fun _ _ => pure ⟨.start 9 52 0 :: restarted, .ok ()⟩)
    ⟨"a/B"⟩ ByteArray.empty .nothing default rfl
  have hsource : recordedFor true 9 restarted 2 = some 7 := by decide
  exact ⟨hall, (hall.mapping 2).trans hsource, text, htext, hlines 3 "    b" (by decide)⟩

end JdCore

end ClassViewer
