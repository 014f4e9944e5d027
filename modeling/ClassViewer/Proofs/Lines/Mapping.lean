import ClassViewer.Lines.Mapping
import ClassViewer.Proofs.Lookup

/-!
# What a line mapping holds

A mapping answers for a line with the last pair it was given for the line in which both numbers are
known (`lastSource`), however the pairs were split up on the way (`extend_append`). A flat list
holds the pairs it was made of, whatever odd number follows them (`linePairs_flat_append`).
-/

namespace ClassViewer

theorem lookup_insertSorted_self (key value : LineNumber) (l : List (LineNumber × LineNumber)) :
    (insertSorted key value l).lookup key = some value := by
  induction l with
  | nil => exact List.lookup_cons_self
  | cons e rest ih =>
    obtain ⟨k, v⟩ := e
    unfold insertSorted
    split
    · exact List.lookup_cons_self
    · split
      · exact List.lookup_cons_self
      · rename_i hne
        rw [lookup_cons_of_ne hne, ih]

theorem lookup_insertSorted_of_ne {key d : LineNumber} (h : d ≠ key) (value : LineNumber)
    (l : List (LineNumber × LineNumber)) : (insertSorted key value l).lookup d = l.lookup d := by
  induction l with
  | nil => exact lookup_cons_of_ne h value []
  | cons e rest ih =>
    obtain ⟨k, v⟩ := e
    unfold insertSorted
    split
    · exact lookup_cons_of_ne h value _
    · split
      · rename_i hk
        subst hk
        rw [lookup_cons_of_ne h, lookup_cons_of_ne h]
      · by_cases hd : d = k
        · subst hd
          rw [List.lookup_cons_self, List.lookup_cons_self]
        · rw [lookup_cons_of_ne hd, lookup_cons_of_ne hd, ih]

/-- Whether a pair says something about a line : it is for that line, and both numbers are known. -/
def tellsOf (d : LineNumber) (p : LineNumber × LineNumber) : Bool :=
  p.1 == d && decide (0 < p.1) && decide (0 < p.2)

/-- The source line in the last pair that says something about a line. -/
def lastSource (pairs : List (LineNumber × LineNumber)) (d : LineNumber) : Option LineNumber :=
  (pairs.filter (tellsOf d)).getLast?.map Prod.snd

theorem lastSource_cons (p : LineNumber × LineNumber) (pairs : List (LineNumber × LineNumber))
    (d : LineNumber) : lastSource (p :: pairs) d =
      (lastSource pairs d).or (if tellsOf d p then some p.2 else none) := by
  unfold lastSource
  by_cases h : tellsOf d p
  · rw [List.filter_cons_of_pos h, if_pos h, getLast?_cons_or, Option.map_or]
    rfl
  · rw [List.filter_cons_of_neg h, if_neg h, Option.or_none]

theorem mem_of_lastSource {pairs : List (LineNumber × LineNumber)} {d s : LineNumber}
    (h : lastSource pairs d = some s) : (d, s) ∈ pairs := by
  obtain ⟨p, hp, rfl⟩ := Option.map_eq_some_iff.1 h
  obtain ⟨hmem, htells⟩ := List.mem_filter.1 (List.mem_of_getLast? hp)
  simp only [tellsOf, Bool.and_eq_true, beq_iff_eq] at htells
  rw [← htells.1.1]
  exact hmem

namespace LineMapping

@[simp] theorem get?_empty (d : LineNumber) : empty.get? d = none := rfl

theorem get?_insert (m : LineMapping) (p : LineNumber × LineNumber) (d : LineNumber) :
    (m.insert p.1 p.2).get? d = (if tellsOf d p then some p.2 else none).or (m.get? d) := by
  unfold insert get? tellsOf
  by_cases hp : 0 < p.1 ∧ 0 < p.2
  · rw [dif_pos hp]
    by_cases h : d = p.1
    · subst h
      simp [lookup_insertSorted_self, hp.1, hp.2]
    · simp [lookup_insertSorted_of_ne h, Ne.symm h]
  · rw [dif_neg hp]
    have h : ¬(p.1 == d && decide (0 < p.1) && decide (0 < p.2)) = true := by
      simp only [Bool.and_eq_true, decide_eq_true_eq]
      exact fun hh => hp ⟨hh.1.2, hh.2⟩
    rw [if_neg h, Option.none_or]

/-- After some pairs, a line has the source line of the last of them that says something about it,
and what it had before if there is none. -/
theorem get?_extend (m : LineMapping) (pairs : List (LineNumber × LineNumber)) (d : LineNumber) :
    (m.extend pairs).get? d = (lastSource pairs d).or (m.get? d) := by
  induction pairs generalizing m with
  | nil => rfl
  | cons p pairs ih =>
    have hstep : m.extend (p :: pairs) = (m.insert p.1 p.2).extend pairs := rfl
    rw [hstep, ih, get?_insert, lastSource_cons, Option.or_assoc]

theorem get?_ofPairs (pairs : List (LineNumber × LineNumber)) (d : LineNumber) :
    (ofPairs pairs).get? d = lastSource pairs d := by
  rw [ofPairs, get?_extend, get?_empty, Option.or_none]

theorem extend_append (m : LineMapping) (ps qs : List (LineNumber × LineNumber)) :
    m.extend (ps ++ qs) = (m.extend ps).extend qs := by
  simp [extend, List.foldl_append]

/-! ## Flat lists -/

/-- The numbers of some pairs one after the other. -/
def flat (pairs : List (LineNumber × LineNumber)) : List Int :=
  pairs.flatMap fun p => [(p.1.toNat : Int), (p.2.toNat : Int)]

@[simp] theorem flat_nil : flat [] = [] := rfl

@[simp] theorem flat_cons (p : LineNumber × LineNumber) (pairs : List (LineNumber × LineNumber)) :
    flat (p :: pairs) = (p.1.toNat : Int) :: (p.2.toNat : Int) :: flat pairs := rfl

theorem lineOfInt?_toNat (n : LineNumber) : lineOfInt? (n.toNat : Int) = some n := by
  have hn : 0 ≤ (n.toNat : Int) ∧ (n.toNat : Int) < 0x100000000 :=
    ⟨Int.natCast_nonneg _, Int.ofNat_lt.2 n.toNat_lt⟩
  unfold lineOfInt?
  rw [if_pos hn, Int.toNat_natCast, UInt32.ofNat_toNat]

theorem linePairs_cons_cons {a b : Int} {d o : LineNumber} (ha : lineOfInt? a = some d)
    (hb : lineOfInt? b = some o) (rest : List Int) :
    linePairs (a :: b :: rest) = (d, o) :: linePairs rest := by
  simp [linePairs, pairUp, ha, hb]

/-- A flat list of pairs holds these pairs, with at most one odd number behind them. -/
theorem linePairs_flat_append (pairs : List (LineNumber × LineNumber)) {odd : List Int}
    (h : odd.length ≤ 1) : linePairs (flat pairs ++ odd) = pairs := by
  induction pairs with
  | nil =>
    match odd, h with
    | [], _ => rfl
    | [_], _ => rfl
  | cons p pairs ih =>
    rw [flat_cons, List.cons_append, List.cons_append,
      linePairs_cons_cons (lineOfInt?_toNat p.1) (lineOfInt?_toNat p.2), ih]

end LineMapping

end ClassViewer
