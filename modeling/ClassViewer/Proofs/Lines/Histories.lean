import ClassViewer.Lines.Realign
import ClassViewer.Proofs.Lines.Mapping
import Mathlib.Data.Set.Card

/-!
# Histories of a line mapping

A mapping is built by edits : single pairs, batches of pairs, and flat lists of signed numbers that
start it anew (`LineMapping.Edit`). Whatever the edits were, it is the mapping of one list of pairs,
those given since it was last started anew (`LineMapping.build_eq`). `LastTells` says what such a
list has to tell about a line, on the numbers as they were given : a pair with a number that is not
positive tells nothing and takes nothing back.

The entries of a mapping stand in order, and entries in order are told by what is found in them
(`Ascending.eq_of_lookup`). So a mapping holds what its pairs tell and is
determined by it, and pairs may be given in any order in which those for the same line keep theirs
(`LineMapping.last_pairs_make_mapping`).
-/

namespace ClassViewer

/-! ## Entries in order -/

namespace Ascending

variable {l : List (LineNumber × LineNumber)}

theorem nodup (h : Ascending l) : l.Nodup := by
  refine h.imp fun hlt heq => ?_
  rw [heq] at hlt
  exact UInt32.lt_irrefl _ hlt

/-- In order, an entry is the one that is found under its line. -/
theorem lookup_eq_some_iff (h : Ascending l) {d s : LineNumber} :
    l.lookup d = some s ↔ (d, s) ∈ l := by
  induction l with
  | nil => simp
  | cons e rest ih =>
    obtain ⟨k, v⟩ := e
    obtain ⟨hfirst, hrest⟩ := List.pairwise_cons.1 h
    by_cases hd : d = k
    · subst hd
      have habsent : (d, s) ∉ rest := fun hm => UInt32.lt_irrefl d (hfirst _ hm)
      rw [List.lookup_cons_self, List.mem_cons, or_iff_left habsent, Prod.mk.injEq,
        Option.some.injEq, eq_comm, and_iff_right rfl]
    · rw [lookup_cons_of_ne hd, ih hrest, List.mem_cons, Prod.mk.injEq,
        or_iff_right fun h => hd h.1]

/-- Entries in order are told by what is found in them. -/
theorem eq_of_lookup {l' : List (LineNumber × LineNumber)} (h : Ascending l) (h' : Ascending l')
    (hsame : ∀ d, l.lookup d = l'.lookup d) : l = l' := by
  have hmem : ∀ e, e ∈ l ↔ e ∈ l' := by
    rintro ⟨d, s⟩
    rw [← h.lookup_eq_some_iff, ← h'.lookup_eq_some_iff, hsame]
  refine List.Perm.eq_of_pairwise (fun a b _ _ hab hba => ?_) h h'
    ((List.perm_ext_iff_of_nodup h.nodup h'.nodup).2 hmem)
  exact absurd (UInt32.lt_trans hab hba) (UInt32.lt_irrefl _)

end Ascending

/-! ## The last pair for a line -/

/-- Whether `s` stands beside line `d` in the last of some pairs that is for that line and in which
both numbers are positive. -/
def LastTells (pairs : List (Int × Int)) (d s : Int) : Prop :=
  0 < d ∧ 0 < s ∧
    ∃ front back, pairs = front ++ (d, s) :: back ∧ ∀ q ∈ back, q.1 = d → q.2 ≤ 0

/-- Pairs may be left out if those for the line with positive numbers are kept. -/
theorem lastTells_filter_iff {keep : Int × Int → Bool} {pairs : List (Int × Int)} {d : Int}
    (h : ∀ s, (d, s) ∈ pairs → 0 < d → 0 < s → keep (d, s) = true) (s : Int) :
    LastTells (pairs.filter keep) d s ↔ LastTells pairs d s := by
  refine and_congr_right fun hd => and_congr_right fun hs => ?_
  constructor
  · rintro ⟨front, back, hsplit, hback⟩
    obtain ⟨l, l', rfl, -, hrest⟩ := List.filter_eq_append_iff.1 hsplit
    obtain ⟨m, m', rfl, -, -, rfl⟩ := List.filter_eq_cons_iff.1 hrest
    refine ⟨l ++ m, m', by rw [List.append_assoc], ?_⟩
    rintro ⟨k, t⟩ hq hk
    obtain rfl : k = d := hk
    by_contra hpos
    have hkept := h t (by simp [hq]) hd (Int.not_le.1 hpos)
    exact hpos (hback (k, t) (List.mem_filter.2 ⟨hq, hkept⟩) rfl)
  · rintro ⟨front, back, rfl, hback⟩
    refine ⟨front.filter keep, back.filter keep, ?_, fun q hq => hback q (List.mem_filter.1 hq).1⟩
    rw [List.filter_append, List.filter_cons_of_pos (h s (by simp) hd hs)]

/-- Whether a pair is for a line and its numbers are positive. -/
def tellsAbout (d : Int) (p : Int × Int) : Bool := decide (p.1 = d ∧ 0 < p.1 ∧ 0 < p.2)

/-- The pair that tells is the last of those for the line with positive numbers. -/
theorem lastTells_iff_getLast? (pairs : List (Int × Int)) (d s : Int) :
    LastTells pairs d s ↔ (pairs.filter (tellsAbout d)).getLast? = some (d, s) := by
  have hkept : ∀ t, (d, t) ∈ pairs → 0 < d → 0 < t → tellsAbout d (d, t) = true :=
    fun _ _ hd ht => decide_eq_true ⟨rfl, hd, ht⟩
  have htells : ∀ q ∈ pairs.filter (tellsAbout d), q.1 = d ∧ 0 < q.1 ∧ 0 < q.2 :=
    fun q hq => of_decide_eq_true (List.mem_filter.1 hq).2
  rw [← lastTells_filter_iff hkept]
  constructor
  · rintro ⟨-, -, front, back, hsplit, hback⟩
    rw [hsplit] at htells ⊢
    cases back with
    | nil => exact List.getLast?_concat
    | cons q back =>
      -- A pair that was kept behind it would tell instead.
      obtain ⟨hline, -, hpos⟩ := htells q (by simp)
      exact absurd (hback q List.mem_cons_self hline) (Int.not_le.2 hpos)
  · intro hlast
    obtain ⟨front, hsplit⟩ := List.getLast?_eq_some_iff.1 hlast
    obtain ⟨-, hd, hs⟩ := htells (d, s) (List.mem_of_getLast? hlast)
    exact ⟨hd, hs, front, [], hsplit, nofun⟩

/-- If no two pairs are for the same line, a pair tells about its line wherever it stands. -/
theorem lastTells_iff_of_distinct {pairs : List (Int × Int)}
    (h : pairs.Pairwise fun p q => p.1 ≠ q.1) {d s : Int} :
    LastTells pairs d s ↔ 0 < d ∧ 0 < s ∧ (d, s) ∈ pairs := by
  refine and_congr_right fun _ => and_congr_right fun _ => ?_
  rw [List.mem_iff_append]
  refine exists_congr fun front => exists_congr fun back => and_iff_left_of_imp ?_
  rintro rfl q hq hd
  have hlater := (List.pairwise_append.1 h).2.1
  exact absurd hd.symm ((List.pairwise_cons.1 hlater).1 q hq)

/-! ## Numbers of lines -/

/-- The numbers in an entry. -/
def numbers (e : LineNumber × LineNumber) : Int × Int := (e.1.toNat, e.2.toNat)

theorem numbers_injective : Function.Injective numbers := by
  rintro ⟨d, s⟩ ⟨d', s'⟩ h
  obtain ⟨hd, hs⟩ := Prod.mk.inj h
  exact Prod.ext (UInt32.toNat_inj.1 (Int.ofNat_inj.1 hd)) (UInt32.toNat_inj.1 (Int.ofNat_inj.1 hs))

theorem tellsOf_eq (d : LineNumber) : tellsOf d = tellsAbout d.toNat ∘ numbers := by
  funext e
  rw [Bool.eq_iff_iff]
  simp [tellsOf, tellsAbout, numbers, UInt32.lt_iff_toNat_lt, UInt32.toNat_inj, and_assoc]

/-- What the last pair says is what the numbers in the pairs tell. -/
theorem lastSource_eq_some_iff {pairs : List (LineNumber × LineNumber)} {d s : LineNumber} :
    lastSource pairs d = some s ↔ LastTells (pairs.map numbers) d.toNat s.toNat := by
  have hlast : lastSource pairs d = some s ↔ (pairs.filter (tellsOf d)).getLast? = some (d, s) := by
    rw [lastSource, Option.map_eq_some_iff]
    refine ⟨?_, fun h => ⟨_, h, rfl⟩⟩
    rintro ⟨e, he, rfl⟩
    have htells := (List.mem_filter.1 (List.mem_of_getLast? he)).2
    simp only [tellsOf, Bool.and_eq_true, beq_iff_eq] at htells
    rw [he, ← htells.1.1]
  rw [lastTells_iff_getLast?, List.filter_map, ← tellsOf_eq, List.getLast?_map, hlast]
  exact (Option.map_injective numbers_injective).eq_iff.symm

namespace LineMapping

theorem lineOfInt?_eq_some_iff {n : Int} {d : LineNumber} :
    lineOfInt? n = some d ↔ n = d.toNat := by
  refine ⟨fun h => ?_, fun h => h ▸ lineOfInt?_toNat d⟩
  obtain ⟨⟨hn, hlt⟩, rfl⟩ := Option.ite_some_none_eq_some.1 h
  have hsmall : n.toNat < 0x100000000 := by omega
  rw [UInt32.toNat_ofNat_of_lt' hsmall, Int.toNat_of_nonneg hn]

/-- The line numbers that a pair of numbers is made of, if both are. -/
def linesOf? (p : Int × Int) : Option (LineNumber × LineNumber) :=
  match lineOfInt? p.1, lineOfInt? p.2 with
  | some d, some o => some (d, o)
  | _, _ => none

theorem linesOf?_eq_some_iff {p : Int × Int} {e : LineNumber × LineNumber} :
    linesOf? p = some e ↔ p = numbers e := by
  obtain ⟨a, b⟩ := p
  obtain ⟨d, s⟩ := e
  rw [numbers, Prod.mk.injEq, ← lineOfInt?_eq_some_iff, ← lineOfInt?_eq_some_iff, linesOf?]
  cases lineOfInt? a <;> cases lineOfInt? b <;> simp

/-- The pairs of numbers that are entries, and these only. -/
theorem map_numbers_filterMap (pairs : List (Int × Int)) :
    (pairs.filterMap linesOf?).map numbers = pairs.filter fun p => (linesOf? p).isSome := by
  induction pairs with
  | nil => rfl
  | cons p pairs ih =>
    cases hp : linesOf? p with
    | none => rw [List.filterMap_cons_none hp, List.filter_cons_of_neg (by simp [hp]), ih]
    | some e =>
      rw [List.filterMap_cons_some hp, List.filter_cons_of_pos (by simp [hp]), List.map_cons, ih,
        linesOf?_eq_some_iff.1 hp]

theorem filterMap_map_numbers (pairs : List (LineNumber × LineNumber)) :
    (pairs.map numbers).filterMap linesOf? = pairs := by
  have hlines : ∀ e, linesOf? (numbers e) = some e := fun _ => linesOf?_eq_some_iff.2 rfl
  rw [List.filterMap_map, Function.comp_def, funext hlines, List.filterMap_some]

/-! ## Edits -/

/-- A step in the making of a mapping. -/
inductive Edit where
  /-- One more pair. -/
  | insert (decompiled source : LineNumber)
  /-- More pairs, in order. -/
  | extend (pairs : List (LineNumber × LineNumber))
  /-- The pairs of a flat list, in place of all there was. -/
  | replace (flat : List Int32)

/-- The mapping after an edit. -/
def Edit.apply (m : LineMapping) : Edit → LineMapping
  | .insert decompiled source => m.insert decompiled source
  | .extend pairs => m.extend pairs
  | .replace flat => ofFlat (flat.map Int32.toInt)

/-- The mapping made by some edits. -/
def build (edits : List Edit) : LineMapping := edits.foldl Edit.apply empty

/-- Whether an edit starts the mapping anew. -/
def Edit.replaces : Edit → Bool
  | .replace _ => true
  | _ => false

/-- Each number at an even place with the number behind it. A last number without one behind it is
in no pair. -/
def placedPairs (flat : List Int) : List (Int × Int) :=
  List.ofFn fun i : Fin (flat.length / 2) =>
    (flat.get ⟨2 * i, by omega⟩, flat.get ⟨2 * i + 1, by omega⟩)

/-- The pairs that an edit gives. -/
def Edit.pairs : Edit → List (Int × Int)
  | .insert decompiled source => [numbers (decompiled, source)]
  | .extend pairs => pairs.map numbers
  | .replace flat => placedPairs (flat.map Int32.toInt)

/-- The edits from the last one on that started the mapping anew; all of them if none did. -/
def current : List Edit → List Edit
  | [] => []
  | e :: rest => if rest.any Edit.replaces then current rest else e :: rest

/-- The pairs given since the mapping was last started anew. -/
def given (edits : List Edit) : List (Int × Int) := (current edits).flatMap Edit.pairs

/-! ## A history as one list of pairs -/

theorem length_pairUp : ∀ l : List Int, (pairUp l).length = l.length / 2
  | [] => rfl
  | [_] => by simp [pairUp]
  | a :: b :: rest => by
    rw [pairUp, List.length_cons, length_pairUp rest, List.length_cons, List.length_cons]
    omega

theorem getElem?_pairUp : ∀ (l : List Int) (i : Nat) (h : 2 * i + 1 < l.length),
    (pairUp l)[i]? = some (l.get ⟨2 * i, by omega⟩, l.get ⟨2 * i + 1, h⟩)
  | [], _, h => absurd h (by simp)
  | [_], _, h => absurd h (by simp)
  | _ :: _ :: _, 0, _ => by simp [pairUp]
  | a :: b :: rest, i + 1, h => by
    have hrest : 2 * i + 1 < rest.length := by
      simp only [List.length_cons] at h
      omega
    rw [pairUp, List.getElem?_cons_succ, getElem?_pairUp rest i hrest]
    rfl

/-- Neighbours are taken as pairs by their places. -/
theorem pairUp_eq_placedPairs (l : List Int) : pairUp l = placedPairs l := by
  refine List.ext_getElem? fun i => ?_
  rw [placedPairs, List.getElem?_ofFn]
  split
  · exact getElem?_pairUp l i (by omega)
  · rw [List.getElem?_eq_none (by rw [length_pairUp]; omega)]

theorem linePairs_eq (flat : List Int) :
    linePairs flat = (placedPairs flat).filterMap linesOf? := by
  rw [← pairUp_eq_placedPairs]
  rfl

/-- An edit adds its pairs to the mapping, or to an empty one if it starts the mapping anew. -/
theorem Edit.apply_eq (m : LineMapping) (e : Edit) : e.apply m =
    (if e.replaces then empty else m).extend (e.pairs.filterMap linesOf?) := by
  cases e with
  | insert decompiled source =>
    have hpair : (pairs (.insert decompiled source)).filterMap linesOf? = [(decompiled, source)] :=
      filterMap_map_numbers [(decompiled, source)]
    rw [hpair]
    rfl
  | extend ps =>
    rw [pairs, filterMap_map_numbers]
    rfl
  | replace flat =>
    rw [pairs, ← linePairs_eq]
    rfl

theorem current_concat (edits : List Edit) (e : Edit) :
    current (edits ++ [e]) = if e.replaces then [e] else current edits ++ [e] := by
  induction edits with
  | nil => simp [current]
  | cons f rest ih =>
    have hany : (rest ++ [e]).any Edit.replaces = (rest.any Edit.replaces || e.replaces) := by
      simp
    rw [List.cons_append, current, current, ih, hany]
    cases e.replaces <;> cases rest.any Edit.replaces <;> rfl

theorem given_concat (edits : List Edit) (e : Edit) :
    given (edits ++ [e]) = (if e.replaces then [] else given edits) ++ e.pairs := by
  rw [given, current_concat, given]
  split <;> simp

/-- Whatever the edits were, the mapping is that of the pairs given since it was last started anew.
-/
theorem build_eq (edits : List Edit) :
    build edits = ofPairs ((given edits).filterMap linesOf?) := by
  induction edits using List.reverseRecOn with
  | nil => rfl
  | append_singleton edits e ih =>
    have hstep : build (edits ++ [e]) = e.apply (build edits) := by
      rw [build, List.foldl_append]
      rfl
    -- What was given before an edit that starts anew is lost on both sides.
    rw [hstep, Edit.apply_eq, given_concat, List.filterMap_append]
    split
    · rfl
    · rw [ih, ofPairs, ofPairs, extend_append]

/-- A positive number that fits in 31 bits is a line number. -/
theorem exists_lineNumber {n : Int} (h : 0 < n) (hfits : n < 2 ^ 31) :
    ∃ d : LineNumber, n = d.toNat := by
  have hn : 0 ≤ n ∧ n < 0x100000000 := by omega
  exact ⟨_, lineOfInt?_eq_some_iff.1 (if_pos hn)⟩

/-- Positive numbers that are given are line numbers. -/
theorem exists_numbers_of_mem_given {edits : List Edit} {p : Int × Int} (hp : p ∈ given edits)
    (hd : 0 < p.1) (hs : 0 < p.2) : ∃ e, p = numbers e := by
  obtain ⟨edit, -, hp⟩ := List.mem_flatMap.1 hp
  cases edit with
  | insert decompiled source => exact ⟨_, List.mem_singleton.1 hp⟩
  | extend pairs =>
    obtain ⟨e, -, rfl⟩ := List.mem_map.1 hp
    exact ⟨e, rfl⟩
  | replace flat =>
    have hfits : ∀ n ∈ flat.map Int32.toInt, n < 2 ^ 31 := by
      intro n hn
      obtain ⟨i, -, rfl⟩ := List.mem_map.1 hn
      exact i.toInt_lt
    obtain ⟨i, rfl⟩ := List.mem_ofFn.1 hp
    obtain ⟨d, hd⟩ := exists_lineNumber hd (hfits _ (List.get_mem _ _))
    obtain ⟨s, hs⟩ := exists_lineNumber hs (hfits _ (List.get_mem _ _))
    exact ⟨(d, s), Prod.ext hd hs⟩

/-! ## What a mapping holds -/

/-- The mapping holds what some pairs tell. -/
structure Holds (m : LineMapping) (pairs : List (Int × Int)) : Prop where
  /-- A line is mapped to what the last pair for it tells. -/
  get?_eq_some_iff : ∀ d s : LineNumber, m.get? d = some s ↔ LastTells pairs d.toNat s.toNat
  /-- The entries are these pairs. -/
  mem_entries_iff : ∀ p : Int × Int, p ∈ m.entries.map numbers ↔ LastTells pairs p.1 p.2
  /-- They stand in the order of their lines, one for each. -/
  ascending : m.entries.Pairwise fun e e' => e.1 < e'.1
  /-- There are as many entries as such pairs. -/
  size : (m.size : ℕ∞) = {p : Int × Int | LastTells pairs p.1 p.2}.encard

theorem holds_ofPairs {pairs : List (Int × Int)}
    (hfits : ∀ p ∈ pairs, 0 < p.1 → 0 < p.2 → ∃ e, p = numbers e) :
    (ofPairs (pairs.filterMap linesOf?)).Holds pairs := by
  have hentries := (ofPairs (pairs.filterMap linesOf?)).ascending
  have hget : ∀ d s : LineNumber, (ofPairs (pairs.filterMap linesOf?)).get? d = some s ↔
      LastTells pairs d.toNat s.toNat := by
    intro d s
    rw [get?_ofPairs, lastSource_eq_some_iff, map_numbers_filterMap]
    refine lastTells_filter_iff (fun s hmem hd hs => ?_) _
    obtain ⟨e, he⟩ := hfits _ hmem hd hs
    rw [linesOf?_eq_some_iff.2 he]
    rfl
  have hmem : ∀ p : Int × Int, p ∈ (ofPairs (pairs.filterMap linesOf?)).entries.map numbers ↔
      LastTells pairs p.1 p.2 := by
    intro p
    rw [List.mem_map]
    constructor
    · rintro ⟨e, he, rfl⟩
      exact (hget e.1 e.2).1 (hentries.lookup_eq_some_iff.2 he)
    · intro h
      obtain ⟨hd, hs, front, back, hsplit, -⟩ := id h
      obtain ⟨e, rfl⟩ := hfits p (by simp [hsplit]) hd hs
      exact ⟨e, hentries.lookup_eq_some_iff.1 ((hget e.1 e.2).2 h), rfl⟩
  refine ⟨hget, hmem, hentries, ?_⟩
  have hset : {p : Int × Int | LastTells pairs p.1 p.2} =
      (((ofPairs (pairs.filterMap linesOf?)).entries.map numbers).toFinset : Set (Int × Int)) := by
    refine Set.ext fun p => ?_
    rw [Finset.mem_coe, List.mem_toFinset, hmem]
    rfl
  rw [hset, Set.encard_coe_eq_coe_finsetCard,
    List.toFinset_card_of_nodup (hentries.nodup.map numbers_injective), List.length_map, size]

theorem holds_build (edits : List Edit) : (build edits).Holds (given edits) := by
  rw [build_eq]
  exact holds_ofPairs fun p hp => exists_numbers_of_mem_given hp

/-- A mapping is told by what it holds. -/
theorem Holds.eq_iff {m m' : LineMapping} {ps qs : List (Int × Int)} (h : m.Holds ps)
    (h' : m'.Holds qs) : m = m' ↔ ∀ d s, LastTells ps d s ↔ LastTells qs d s := by
  constructor
  · rintro rfl d s
    rw [← h.mem_entries_iff (d, s), ← h'.mem_entries_iff (d, s)]
  · intro hsame
    refine LineMapping.ext
      (m.ascending.eq_of_lookup m'.ascending fun d => Option.ext fun s => ?_)
    exact (h.get?_eq_some_iff d s).trans ((hsame _ _).trans (h'.get?_eq_some_iff d s).symm)

/-- Pairs that keep their order for each line tell the same. -/
theorem lastTells_iff_of_same_order {ps qs : List (Int × Int)}
    (h : ∀ d, ps.filter (·.1 = d) = qs.filter (·.1 = d)) (d s : Int) :
    LastTells ps d s ↔ LastTells qs d s := by
  have honly : ∀ rs : List (Int × Int),
      LastTells (rs.filter (·.1 = d)) d s ↔ LastTells rs d s :=
    fun _ => lastTells_filter_iff (by simp) s
  rw [← honly ps, h, honly qs]

/-- So do pairs for different lines in another order. -/
theorem lastTells_iff_of_perm {ps qs : List (Int × Int)} (h : ps.Perm qs)
    (hdistinct : ps.Pairwise fun p q => p.1 ≠ q.1) (d s : Int) :
    LastTells ps d s ↔ LastTells qs d s := by
  have hdistinct' : qs.Pairwise fun p q => p.1 ≠ q.1 := h.pairwise hdistinct fun hne => hne.symm
  rw [lastTells_iff_of_distinct hdistinct, lastTells_iff_of_distinct hdistinct', h.mem_iff]

/-- A mapping holds the last pair given for each line since it was last started anew, as far as both
numbers are positive. Two histories make the same mapping exactly if these pairs are the same. They
do if one gives the pairs of the other with those for the same line in the same order, in particular
if it gives them in any order and no two are for the same line. Every text is then realigned alike.
-/
theorem last_pairs_make_mapping (edits : List Edit) :
    (build edits).Holds (given edits) ∧
    ∀ other : List Edit,
      (build edits = build other ↔
        ∀ d s, LastTells (given edits) d s ↔ LastTells (given other) d s) ∧
      ((∀ d, (given edits).filter (·.1 = d) = (given other).filter (·.1 = d)) ∨
          (given edits).Perm (given other) ∧ (given edits).Pairwise (fun p q => p.1 ≠ q.1) →
        build edits = build other ∧
          ∀ text, realign text (build edits) = realign text (build other)) := by
  refine ⟨holds_build edits, fun other => ?_⟩
  have hiff := (holds_build edits).eq_iff (holds_build other)
  refine ⟨hiff, fun hreordered => ?_⟩
  have hsame : build edits = build other := by
    rw [hiff]
    rcases hreordered with horder | ⟨hperm, hdistinct⟩
    · exact lastTells_iff_of_same_order horder
    · exact lastTells_iff_of_perm hperm hdistinct
  exact ⟨hsame, fun text => congrArg (realign text) hsame⟩

/-- A single pair given before the mapping is started anew, and a number left over. -/
theorem reordered_pairs_make_mapping :
    let edits : List Edit :=
      [.insert 3 9, .replace [1, 5, 0, 3, 4, -1, 6, 9, 7], .extend [(3, 10)]]
    let other : List Edit := [.replace [4, -1, 6, 9], .insert 3 10, .extend [(0, 3), (1, 5)]]
    (given edits).Perm (given other) ∧ (given edits).Pairwise (fun p q => p.1 ≠ q.1) ∧
      build edits = build other ∧ (build edits).get? 3 = some 10 := by
  intro edits other
  have hperm : (given edits).Perm (given other) := by decide
  have hdistinct : (given edits).Pairwise fun p q => p.1 ≠ q.1 := by decide
  obtain ⟨hholds, hothers⟩ := last_pairs_make_mapping edits
  refine ⟨hperm, hdistinct, ((hothers other).2 (.inr ⟨hperm, hdistinct⟩)).1, ?_⟩
  exact (hholds.get?_eq_some_iff 3 10).2
    ⟨by decide, by decide, [(1, 5), (0, 3), (4, -1), (6, 9)], [], by decide, by simp⟩

/-- A pair with a number that is not positive takes nothing back. -/
example : (build [.insert 4 7, .extend [(2, 6), (4, 0)], .insert 0 9]).entries =
    [(2, 6), (4, 7)] := by
  decide

end LineMapping

end ClassViewer
