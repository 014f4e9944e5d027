import ClassViewer.Proofs.Lines.Placement
import Mathlib.Data.Nat.Find

/-!
# Lines on their targets

A line stands at a place of the realigned text if it is found there whatever the lines of the text
are (`StandsAt`) : by its content alone a blank line could not be told from one that was put in.
That place is where the line lands (`standsAt_iff`). Every mapped line stands on its target exactly
if the targets leave room for the lines up to the first of them and from each to the next
(`LineMapping.LeavesRoom`). Only targets of lines that the text has can matter (`realign_congr`).
`mapped_lines_stand_on_targets_iff` puts this together.
-/

namespace ClassViewer

/-- How many lines a text has. -/
def lineCount (text : String) : Nat := (Text.newlineSplit text).length

/-- A text is known from its lines. -/
theorem eq_of_newlineSplit_eq {s t : String} (h : Text.newlineSplit s = Text.newlineSplit t) :
    s = t := by
  rw [← Text.join_split '\n' s, ← Text.join_split '\n' t]
  exact congrArg _ h

/-- Line `k` of a text stands at line `p` of the realigned text : it is found there, and so is line
`k` of every other text with as many lines. -/
def StandsAt (m : LineMapping) (text : String) (k p : Nat) : Prop :=
  0 < p ∧ ∀ other, lineCount other = lineCount text →
    (Text.newlineSplit (realign other m))[p - 1]? = (Text.newlineSplit other)[k - 1]?

variable {m : LineMapping} {text : String}

namespace LineMapping

/-- Line `k` is one of the first `n` lines and is mapped to `t`. -/
def Maps (m : LineMapping) (n k t : Nat) : Prop := 0 < k ∧ k ≤ n ∧ m.target? k = some t

theorem Maps.unique {n k s t : Nat} (h : m.Maps n k s) (h' : m.Maps n k t) : s = t :=
  Option.some.inj (h.2.2.symm.trans h'.2.2)

/-- The targets of the first `n` lines leave room for the lines. -/
structure LeavesRoom (m : LineMapping) (n : Nat) : Prop where
  /-- The first mapped line is not beyond its target. -/
  first : ∀ {k t}, m.Maps n k t → (∀ j s, m.Maps n j s → k ≤ j) → k ≤ t
  /-- Targets of neighbouring mapped lines are as far apart as these lines, or farther. -/
  next : ∀ {j s k t}, m.Maps n j s → m.Maps n k t → j < k →
    (∀ i u, m.Maps n i u → i ≤ j ∨ k ≤ i) → s + (k - j) ≤ t

/-! ## Landings and targets -/

/-- Lines land at least as far apart as they are. -/
theorem landing_add_le (m : LineMapping) (k i : Nat) : m.landing k + i ≤ m.landing (k + i) := by
  induction i with
  | zero => exact Nat.le_refl _
  | succ i ih =>
    have hstep := m.landing_lt_succ (k + i)
    rw [show k + (i + 1) = k + i + 1 by omega]
    omega

/-- A mapped line lands on its target or behind it. -/
theorem Maps.le_landing {n k t : Nat} (h : m.Maps n k t) : t ≤ m.landing k := by
  obtain ⟨hpos, -, htarget⟩ := h
  have hpushed := (m.isGreatest_landing k).2 (.inr ⟨k, t, hpos, Nat.le_refl k, htarget, rfl⟩)
  omega

/-- Landings depend on the targets of the lines before only. -/
theorem landing_congr {m' : LineMapping} {n : Nat}
    (h : ∀ k, 0 < k → k ≤ n → m'.target? k = m.target? k) : m'.landing n = m.landing n := by
  induction n with
  | zero => rfl
  | succ n ih =>
    have hbefore := ih fun k hpos hk => h k hpos (Nat.le_succ_of_le hk)
    rw [landing_succ, landing_succ, hbefore, h (n + 1) (Nat.succ_pos n) (Nat.le_refl _)]

/-- Among the mapped lines before a line there is a last one. -/
theorem exists_last_before {n k : Nat} (h : ∃ j s, m.Maps n j s ∧ j < k) :
    ∃ j s, m.Maps n j s ∧ j < k ∧ ∀ i u, m.Maps n i u → i ≤ j ∨ k ≤ i := by
  classical
  let mapped := fun i => ∃ s, m.Maps n i s ∧ i < k
  obtain ⟨j₀, s₀, hj₀, hlt₀⟩ := h
  obtain ⟨s, hj, hlt⟩ : mapped (Nat.findGreatest mapped k) :=
    Nat.findGreatest_spec (Nat.le_of_lt hlt₀) ⟨s₀, hj₀, hlt₀⟩
  refine ⟨_, s, hj, hlt, fun i u hi => ?_⟩
  rcases Nat.lt_or_ge i k with hik | hki
  · exact .inl (Nat.le_findGreatest (Nat.le_of_lt hik) ⟨u, hi, hik⟩)
  · exact .inr hki

/-- Where the targets leave room, they do so for all mapped lines and not only for neighbours. -/
theorem LeavesRoom.all {n : Nat} (h : m.LeavesRoom n) {k t : Nat} (hk : m.Maps n k t) :
    k ≤ t ∧ ∀ j s, m.Maps n j s → j ≤ k → s + (k - j) ≤ t := by
  induction k using Nat.strong_induction_on generalizing t with
  | _ k ih =>
    by_cases hbefore : ∃ j s, m.Maps n j s ∧ j < k
    · obtain ⟨j, s, hj, hlt, hlast⟩ := exists_last_before hbefore
      obtain ⟨hle, hall⟩ := ih j hlt hj
      have hnext := h.next hj hk hlt hlast
      refine ⟨by omega, fun i u hi hik => ?_⟩
      rcases hlast i u hi with hij | hki
      · have hroom := hall i u hi hij
        omega
      · obtain rfl : i = k := Nat.le_antisymm hik hki
        obtain rfl := hi.unique hk
        omega
    · have hfirst : ∀ j s, m.Maps n j s → k ≤ j := by
        intro j s hj
        by_contra hlt
        exact hbefore ⟨j, s, hj, by omega⟩
      refine ⟨h.first hk hfirst, fun j s hj hjk => ?_⟩
      obtain rfl : j = k := Nat.le_antisymm hjk (hfirst j s hj)
      obtain rfl := hj.unique hk
      omega

/-- All mapped lines land on their targets exactly if the targets leave room. -/
theorem forall_landing_eq_iff (m : LineMapping) (n : Nat) :
    (∀ k t, m.Maps n k t → m.landing k = t) ↔ m.LeavesRoom n := by
  constructor
  · intro h
    constructor
    · intro k t hk _
      rw [← h k t hk]
      exact m.le_landing k
    · intro j s k t hj hk hlt _
      have hapart := m.landing_add_le j (k - j)
      rwa [Nat.add_sub_cancel' (Nat.le_of_lt hlt), h j s hj, h k t hk] at hapart
  · intro h k t hk
    obtain ⟨hle, hall⟩ := h.all hk
    refine Nat.le_antisymm ?_ hk.le_landing
    -- The line is pushed to its target, and nothing pushes it any further.
    rcases (m.isGreatest_landing k).1 with hown | ⟨j, s, hpos, hjk, htarget, hpushed⟩
    · rwa [hown]
    · rw [hpushed]
      exact hall j s ⟨hpos, hjk.trans hk.2.1, htarget⟩ hjk

end LineMapping

/-! ## Standing and landing -/

/-- A text of `n` lines of which only line `k` is not blank. -/
theorem exists_text_with_one_line {n k : Nat} (hpos : 0 < k) (hk : k ≤ n) :
    ∃ text, lineCount text = n ∧ ∀ i, (Text.newlineSplit text)[i]? = some "x" ↔ i = k - 1 := by
  have hsplit : Text.newlineSplit (Text.join "\n" ((List.replicate n "").set (k - 1) "x")) =
      (List.replicate n "").set (k - 1) "x" := by
    refine Text.split_join ?_ fun line hline => ?_
    · rw [Ne, ← List.length_eq_zero_iff, List.length_set, List.length_replicate]
      omega
    · rcases List.mem_or_eq_of_mem_set hline with hline | rfl
      · rw [List.eq_of_mem_replicate hline]
        decide
      · decide
  refine ⟨Text.join "\n" ((List.replicate n "").set (k - 1) "x"), ?_, fun i => ?_⟩
  · rw [lineCount, hsplit, List.length_set, List.length_replicate]
  · rw [hsplit, List.getElem?_set, List.length_replicate, List.getElem?_replicate]
    split
    · rename_i h
      simp [← h, show k - 1 < n by omega]
    · rename_i h
      simp [Ne.symm h]

/-- A line stands where it lands, and nowhere else. -/
theorem standsAt_iff {k p : Nat} (hpos : 0 < k) (hk : k ≤ lineCount text) :
    StandsAt m text k p ↔ p = m.landing k := by
  obtain ⟨i, rfl⟩ : ∃ i, k = i + 1 := ⟨k - 1, by omega⟩
  constructor
  · rintro ⟨hp, hfound⟩
    obtain ⟨other, hcount, honly⟩ := exists_text_with_one_line hpos hk
    have hlands := lines_land_on_targets m other
    have hx := hfound other hcount
    rw [(honly _).2 rfl] at hx
    by_contra hne
    -- Elsewhere is another line or a blank one that was put in, and neither is the line `x`.
    by_cases hother : ∃ j < (Text.newlineSplit other).length, m.landing (j + 1) = p - 1 + 1
    · obtain ⟨j, hj, hjp⟩ := hother
      have hline := hlands.line hj
      rw [hjp, Nat.add_sub_cancel, hx, eq_comm, honly] at hline
      subst hline
      exact hne (by omega)
    · have hlt : p - 1 < (Text.newlineSplit (realign other m)).length :=
        (List.getElem?_eq_some_iff.1 hx).1
      have hblank := hlands.blank hlt fun j hj hjp => hother ⟨j, hj, hjp⟩
      rw [hx, Option.some.injEq] at hblank
      exact absurd hblank (by decide)
  · rintro rfl
    refine ⟨hpos.trans_le (m.le_landing _), fun other hcount => ?_⟩
    have hi : i < (Text.newlineSplit other).length :=
      Nat.lt_of_lt_of_eq (Nat.lt_of_succ_le hk) hcount.symm
    exact (lines_land_on_targets m other).line hi

/-! ## Targets that do not matter -/

theorem spread_congr {m' : LineMapping} (count : Nat) (lines : List String)
    (h : ∀ k ≤ count + lines.length, m'.landing k = m.landing k) :
    spread m' count lines = spread m count lines := by
  induction lines generalizing count with
  | nil => rfl
  | cons line rest ih =>
    have hlength : count + (line :: rest).length = count + 1 + rest.length := by
      rw [List.length_cons]
      omega
    rw [hlength] at h
    rw [spread, spread, h count (by omega), h (count + 1) (by omega), ih (count + 1) h]

/-- A realigned text depends only on the targets of the lines it has. -/
theorem realign_congr {m' : LineMapping}
    (h : ∀ k, 0 < k → k ≤ lineCount text → m'.target? k = m.target? k) :
    realign text m' = realign text m := by
  have hlanding : ∀ k ≤ 0 + (Text.newlineSplit text).length, m'.landing k = m.landing k := by
    intro k hk
    rw [Nat.zero_add] at hk
    exact LineMapping.landing_congr fun j hpos hj => h j hpos (hj.trans hk)
  refine eq_of_newlineSplit_eq ?_
  rw [newlineSplit_realign, newlineSplit_realign,
    show (1 : LineNumber) = LineNumber.ofCount (m'.landing 0 + 1) from rfl, placeLines_eq_spread,
    show LineNumber.ofCount (m'.landing 0 + 1) = LineNumber.ofCount (m.landing 0 + 1) from rfl,
    placeLines_eq_spread]
  exact spread_congr 0 _ hlanding

/-- Every mapped line of a text stands on its target exactly if the targets of these lines leave
room for the lines, and targets of lines that the text does not have change nothing. -/
theorem mapped_lines_stand_on_targets_iff (m : LineMapping) (text : String) :
    ((∀ k t, m.Maps (lineCount text) k t → StandsAt m text k t) ↔
      m.LeavesRoom (lineCount text)) ∧
    ∀ m' : LineMapping,
      (∀ k, 0 < k → k ≤ lineCount text → m'.target? k = m.target? k) →
        realign text m' = realign text m := by
  refine ⟨?_, fun m' h => realign_congr h⟩
  rw [← LineMapping.forall_landing_eq_iff]
  refine forall_congr' fun k => forall_congr' fun t => forall_congr' fun hk => ?_
  rw [standsAt_iff hk.1 hk.2.1, eq_comm]

/-- Targets that increase with their lines need not leave room. -/
example : ¬(LineMapping.ofPairs [(1, 1), (3, 2)]).LeavesRoom 3 := by
  intro h
  have hle := (h.all (k := 3) (t := 2) ⟨by decide, by decide, by decide⟩).1
  omega

end ClassViewer
