import ClassViewer.Proofs.Lines.Spacing
import Mathlib.Data.List.Basic
import Mathlib.Order.Bounds.Basic
import Mathlib.Order.Monotone.Basic

/-!
# Where lines land

`LineMapping.landing` says where a line of a text comes to stand when the text is realigned : at
its own number, or where a mapped line at or before it pushes it to, whichever is furthest
(`LineMapping.isGreatest_landing`). The running number of the output line stands still at the
greatest line number and so do the numbers of the input lines, but from there on no target lies
ahead, so the padding is what the landings ask for (`padding_eq`, `next_placed`) and `placeLines`
puts every line where it lands (`placeLines_eq_spread`). `lines_land_on_targets` states it of the
realigned text.
-/

namespace ClassViewer

namespace LineMapping

/-- The source line of the line of that number; a number beyond the greatest line number has none.
-/
def target? (m : LineMapping) (j : Nat) : Option Nat :=
  if j < 0x100000000 then (m.get? (UInt32.ofNat j)).map UInt32.toNat else none

/-- Where line `i` comes to stand : at its own number, or where a mapped line `j` at or before it
pushes it to, if that is further. -/
def landing (m : LineMapping) (i : Nat) : Nat :=
  ((List.range' 1 i).filterMap fun j => (m.target? j).map (· + (i - j))).foldl max i

end LineMapping

/-! ## Landings one after the other -/

theorem foldl_max_map_succ (l : List Nat) (a : Nat) :
    (l.map (· + 1)).foldl max (a + 1) = l.foldl max a + 1 := by
  induction l generalizing a with
  | nil => rfl
  | cons b l ih =>
    rw [List.map_cons, List.foldl_cons, List.foldl_cons, ← ih]
    congr 1
    omega

theorem isGreatest_foldl_max (l : List Nat) (a : Nat) :
    IsGreatest {x | x = a ∨ x ∈ l} (l.foldl max a) := by
  induction l generalizing a with
  | nil => exact ⟨.inl rfl, fun x hx => Nat.le_of_eq (hx.resolve_right List.not_mem_nil)⟩
  | cons b l ih =>
    obtain ⟨hmem, hle⟩ := ih (max a b)
    have hfirst : max a b ≤ l.foldl max (max a b) := hle (.inl rfl)
    refine ⟨?_, ?_⟩
    · rcases hmem with hmax | hmem
      · rw [List.foldl_cons, hmax]
        rcases Nat.le_total a b with hab | hab
        · exact .inr (by rw [Nat.max_eq_right hab]; exact List.mem_cons_self)
        · exact .inl (Nat.max_eq_left hab)
      · exact .inr (List.mem_cons_of_mem b hmem)
    · rintro x (rfl | hx)
      · exact (Nat.le_max_left x b).trans hfirst
      · rcases List.mem_cons.1 hx with rfl | hx
        · exact (Nat.le_max_right a x).trans hfirst
        · exact hle (.inr hx)

namespace LineMapping

variable (m : LineMapping)

@[simp] theorem landing_zero : m.landing 0 = 0 := rfl

/-- A line lands behind the line before it, or on its target if that is further. -/
theorem landing_succ (i : Nat) :
    m.landing (i + 1) = max (m.landing i + 1) ((m.target? (i + 1)).getD 0) := by
  have hpushed : ((List.range' 1 i).filterMap fun j => (m.target? j).map (· + (i + 1 - j))) =
      ((List.range' 1 i).filterMap fun j => (m.target? j).map (· + (i - j))).map (· + 1) := by
    rw [List.map_filterMap]
    refine List.filterMap_congr fun j hj => ?_
    have hle : j ≤ i := by
      have := List.mem_range'_1.1 hj
      omega
    cases m.target? j with
    | none => rfl
    | some t =>
      simp only [Option.map_some, Option.some.injEq]
      omega
  unfold landing
  rw [List.range'_1_concat, List.filterMap_append, List.foldl_append, hpushed, foldl_max_map_succ]
  cases ht : m.target? (1 + i) with
  | none => simp [ht, Nat.add_comm i 1]
  | some t => simp [ht, Nat.add_comm i 1]

theorem landing_lt_succ (i : Nat) : m.landing i < m.landing (i + 1) := by
  rw [landing_succ]
  omega

theorem strictMono_landing : StrictMono m.landing := strictMono_nat_of_lt_succ m.landing_lt_succ

theorem le_landing (i : Nat) : i ≤ m.landing i := by
  induction i with
  | zero => exact Nat.zero_le _
  | succ i ih =>
    have := m.landing_lt_succ i
    omega

/-- A line lands on the greatest of its own number and of the places it is pushed to. -/
theorem isGreatest_landing (i : Nat) :
    IsGreatest {x | x = i ∨ ∃ j t, 0 < j ∧ j ≤ i ∧ m.target? j = some t ∧ x = t + (i - j)}
      (m.landing i) := by
  have hset : {x | x = i ∨ ∃ j t, 0 < j ∧ j ≤ i ∧ m.target? j = some t ∧ x = t + (i - j)} =
      {x | x = i ∨ x ∈ (List.range' 1 i).filterMap fun j =>
        (m.target? j).map (· + (i - j))} := by
    refine Set.ext fun x => or_congr_right ⟨?_, ?_⟩
    · rintro ⟨j, t, hj, hji, ht, rfl⟩
      exact List.mem_filterMap.2 ⟨j, List.mem_range'_1.2 ⟨hj, by omega⟩, by rw [ht]; rfl⟩
    · intro hx
      obtain ⟨j, hj, hpushed⟩ := List.mem_filterMap.1 hx
      obtain ⟨t, ht, rfl⟩ := Option.map_eq_some_iff.1 hpushed
      have hrange := List.mem_range'_1.1 hj
      exact ⟨j, t, hrange.1, by omega, ht, rfl⟩
  rw [hset]
  exact isGreatest_foldl_max _ i

theorem target?_lt {j t : Nat} (h : m.target? j = some t) : t < 0x100000000 := by
  unfold target? at h
  split at h
  · obtain ⟨v, -, rfl⟩ := Option.map_eq_some_iff.1 h
    exact v.toNat_lt
  · cases h

end LineMapping

/-! ## The running line number -/

theorem LineNumber.toNat_ofCount (n : Nat) : (ofCount n).toNat = min n 0xFFFFFFFF := by
  unfold ofCount
  split
  · rename_i h
    rw [UInt32.toNat_ofNat_of_lt' h]
    omega
  · rename_i h
    have hmax : LineNumber.max.toNat = 0xFFFFFFFF := by decide
    rw [hmax]
    omega

theorem LineNumber.ofCount_eq_iff {a : LineNumber} {n : Nat} :
    a = ofCount n ↔ a.toNat = min n 0xFFFFFFFF := by
  rw [← UInt32.toNat_inj, toNat_ofCount]

/-- The line number after `n` is one more, up to the greatest. -/
theorem LineNumber.toNat_next (n : LineNumber) : n.next.toNat = min (n.toNat + 1) 0xFFFFFFFF := by
  have hmax : LineNumber.max.toNat = 0xFFFFFFFF := by decide
  have hlt := n.toNat_lt
  unfold next
  split
  · rename_i h
    rw [h, hmax]
    omega
  · rename_i h
    have hne : n.toNat ≠ 0xFFFFFFFF := fun hn => h (UInt32.toNat_inj.1 (hn.trans hmax.symm))
    rw [UInt32.toNat_add, show (1 : LineNumber).toNat = 1 from rfl, Nat.mod_eq_of_lt (by omega)]
    omega

variable (m : LineMapping)

/-- The padding is what the landings ask for. -/
theorem padding_eq (i : Nat) :
    padding m (LineNumber.ofCount (i + 1)) (LineNumber.ofCount (m.landing i + 1)) =
      m.landing (i + 1) - (m.landing i + 1) := by
  have hle := m.le_landing i
  rw [m.landing_succ, padding, LineNumber.toNat_ofCount]
  by_cases hi : i + 1 < 0x100000000
  · have htarget : m.target? (i + 1) = (m.get? (UInt32.ofNat (i + 1))).map UInt32.toNat := if_pos hi
    rw [LineNumber.ofCount, if_pos hi, htarget]
    cases m.get? (UInt32.ofNat (i + 1)) with
    | none =>
      simp only [Option.map_none, Option.getD_none]
      omega
    | some target =>
      have hlt := target.toNat_lt
      simp only [Option.map_some, Option.getD_some]
      omega
  · -- The number of the input line is lost here, but every target has been passed.
    have htarget : m.target? (i + 1) = none := if_neg hi
    rw [htarget]
    cases m.get? (LineNumber.ofCount (i + 1)) with
    | none =>
      simp only [Option.getD_none]
      omega
    | some target =>
      have hlt := target.toNat_lt
      simp only [Option.getD_none]
      omega

/-- The line number behind a placed line is the one behind its landing. -/
theorem next_placed (i : Nat) :
    LineNumber.next (UInt32.ofNat ((LineNumber.ofCount (m.landing i + 1)).toNat +
      (m.landing (i + 1) - (m.landing i + 1)))) = LineNumber.ofCount (m.landing (i + 1) + 1) := by
  have hsucc := m.landing_succ i
  have hlt : (m.target? (i + 1)).getD 0 < 0x100000000 := by
    cases ht : m.target? (i + 1) with
    | none => decide
    | some t => exact m.target?_lt ht
  rw [LineNumber.ofCount_eq_iff, LineNumber.toNat_next, LineNumber.toNat_ofCount,
    UInt32.toNat_ofNat_of_lt' (show _ < 0x100000000 by omega)]
  omega

/-! ## Placed lines -/

/-- Lines with blank ones before each, so that it lands where it should if `count` lines were placed
before. -/
def spread (m : LineMapping) : Nat → List String → List String
  | _, [] => []
  | count, line :: rest =>
    List.replicate (m.landing (count + 1) - (m.landing count + 1)) "" ++
      line :: spread m (count + 1) rest

theorem placeLines_eq_spread (count : Nat) (lines : List String) :
    placeLines m count (LineNumber.ofCount (m.landing count + 1)) [] lines =
      spread m count lines := by
  induction lines generalizing count with
  | nil => rfl
  | cons line rest ih =>
    rw [placeLines, placeLines_acc, padding_eq, next_placed, ih, List.append_nil,
      List.reverse_cons, List.reverse_replicate, List.append_assoc]
    rfl

/-- Lines that were placed by a mapping : each stands where it lands, in order, with blank lines
between them and nothing behind the last. -/
structure LandsBy (m : LineMapping) (lines out : List String) : Prop where
  /-- Later lines land behind earlier ones. -/
  ordered : StrictMono m.landing
  /-- Every line stands where it lands, lines being counted from one. -/
  line : ∀ {i}, i < lines.length → out[m.landing (i + 1) - 1]? = lines[i]?
  /-- Where no line lands, there is a blank one. -/
  blank : ∀ {k}, k < out.length → (∀ i < lines.length, m.landing (i + 1) ≠ k + 1) →
    out[k]? = some ""
  /-- The last line is the last line of the output. -/
  size : out.length = m.landing lines.length

theorem length_spread (count : Nat) (lines : List String) :
    (spread m count lines).length + m.landing count = m.landing (count + lines.length) := by
  induction lines generalizing count with
  | nil => exact Nat.zero_add _
  | cons line rest ih =>
    have hnext := ih (count + 1)
    have hlt := m.landing_lt_succ count
    rw [spread, List.length_append, List.length_replicate, List.length_cons, List.length_cons,
      show count + (rest.length + 1) = count + 1 + rest.length by omega, ← hnext]
    omega

theorem getElem?_spread (count : Nat) (lines : List String) {i : Nat} (hi : i < lines.length) :
    (spread m count lines)[m.landing (count + (i + 1)) - (m.landing count + 1)]? = lines[i]? := by
  induction lines generalizing count i with
  | nil => cases hi
  | cons line rest ih =>
    have hlt := m.landing_lt_succ count
    rw [spread]
    cases i with
    | zero =>
      rw [List.getElem?_append_right (by rw [List.length_replicate]), List.length_replicate,
        Nat.zero_add, Nat.sub_self]
      rfl
    | succ i =>
      have hmono : m.landing (count + 1) < m.landing (count + 1 + (i + 1)) :=
        m.strictMono_landing (by omega)
      obtain ⟨k, hk⟩ : ∃ k, m.landing (count + 1 + (i + 1)) = m.landing (count + 1) + (k + 1) :=
        ⟨m.landing (count + 1 + (i + 1)) - m.landing (count + 1) - 1, by omega⟩
      have hnext := ih (count + 1) (Nat.lt_of_succ_lt_succ hi)
      rw [hk, show m.landing (count + 1) + (k + 1) - (m.landing (count + 1) + 1) = k by omega]
        at hnext
      rw [show count + (i + 1 + 1) = count + 1 + (i + 1) by omega, hk,
        List.getElem?_append_right (by rw [List.length_replicate]; omega), List.length_replicate,
        show m.landing (count + 1) + (k + 1) - (m.landing count + 1) -
          (m.landing (count + 1) - (m.landing count + 1)) = k + 1 by omega,
        List.getElem?_cons_succ, List.getElem?_cons_succ, hnext]

theorem getElem?_spread_blank (count : Nat) (lines : List String) {k : Nat}
    (hk : k < (spread m count lines).length)
    (h : ∀ i < lines.length, m.landing (count + (i + 1)) ≠ m.landing count + (k + 1)) :
    (spread m count lines)[k]? = some "" := by
  induction lines generalizing count k with
  | nil => cases hk
  | cons line rest ih =>
    have hlt := m.landing_lt_succ count
    have hfirst := h 0 (Nat.zero_lt_succ _)
    rw [spread] at hk ⊢
    by_cases hblank : k < m.landing (count + 1) - (m.landing count + 1)
    · rw [List.getElem?_append_left (by rwa [List.length_replicate]),
        List.getElem?_replicate_of_lt hblank]
    · obtain ⟨k', rfl⟩ : ∃ k', k = m.landing (count + 1) - (m.landing count + 1) + (k' + 1) := by
        refine ⟨k - (m.landing (count + 1) - (m.landing count + 1)) - 1, ?_⟩
        simp only [Nat.zero_add] at hfirst
        omega
      rw [List.length_append, List.length_replicate, List.length_cons] at hk
      rw [List.getElem?_append_right (by rw [List.length_replicate]; omega), List.length_replicate,
        Nat.add_sub_cancel_left, List.getElem?_cons_succ]
      refine ih (count + 1) (by omega) fun i hi => ?_
      have hne := h (i + 1) (Nat.succ_lt_succ hi)
      rw [show count + (i + 1 + 1) = count + 1 + (i + 1) by omega] at hne
      omega

theorem landsBy_spread (lines : List String) : LandsBy m lines (spread m 0 lines) where
  ordered := m.strictMono_landing
  line hi := by
    have hat := getElem?_spread m 0 lines hi
    rwa [Nat.zero_add, LineMapping.landing_zero, Nat.zero_add] at hat
  blank hk h := by
    refine getElem?_spread_blank m 0 lines hk fun i hi => ?_
    rw [Nat.zero_add, LineMapping.landing_zero, Nat.zero_add]
    exact h i hi
  size := by
    have hsize := length_spread m 0 lines
    rwa [Nat.zero_add, LineMapping.landing_zero, Nat.add_zero] at hsize

/-! ## Realigned texts -/

/-- A line of a text is found in the realigned text where it lands. -/
theorem getElem?_realign (text : String) {i : Nat} (hi : i < (Text.newlineSplit text).length) :
    (Text.newlineSplit (realign text m))[m.landing (i + 1) - 1]? =
      (Text.newlineSplit text)[i]? := by
  rw [newlineSplit_realign, show (1 : LineNumber) = LineNumber.ofCount (m.landing 0 + 1) from rfl,
    placeLines_eq_spread]
  exact (landsBy_spread m _).line hi

/-- Realigning a text puts every line where it lands and blank lines between them. -/
theorem lines_land_on_targets (text : String) :
    LandsBy m (Text.newlineSplit text) (Text.newlineSplit (realign text m)) := by
  have hspread := placeLines_eq_spread m 0 (Text.newlineSplit text)
  rw [newlineSplit_realign, show (1 : LineNumber) = LineNumber.ofCount (m.landing 0 + 1) from rfl,
    hspread]
  exact landsBy_spread m _

example : let m : LineMapping := .ofPairs [(2, 4), (3, 1)]
    [1, 2, 3].map m.landing = [1, 4, 5] ∧ realign "a\nb\nc" m = "a\n\n\nb\nc" := by decide

end ClassViewer
