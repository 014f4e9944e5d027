import ClassViewer.Digest.Sha256
import ClassViewer.Proofs.Text
import Mathlib.Algebra.Group.Pi.Basic
import Mathlib.Data.Fin.VecNotation
import Mathlib.Data.Nat.NthRoot.Defs
import Mathlib.NumberTheory.PrimeCounting
import Mathlib.Tactic.FinCases

/-!
# SHA-256 as it is defined

The standard describes a digest by sums and rotations of words of thirty-two bits, without arrays
and without a program. Its constants are the roots of the first prime numbers (`rootBits`), its
schedule is a recursion on the round (`scheduled`), and the words of a message are those after its
last block (`wordsAfter`). `hex` is their text.

The program computes this digest for every text (`hexOfText_eq`). Its constants are the roots
(`roundConstants_getD`, `toWords_initial`), its padding is the shortest one (`toList_pad`), its
arrays hold the words of the recursion (`holds_schedule`), and its sixty-four rounds are those of
the standard (`toWords_rounds`).
-/

namespace ClassViewer.Digest.Standard

/-! ## The standard -/

abbrev Word := BitVec 32

/-- Eight words, as they go through the rounds. -/
abbrev Words := Fin 8 → Word

def bigSigma0 (x : Word) : Word := x.rotateRight 2 ^^^ x.rotateRight 13 ^^^ x.rotateRight 22

def bigSigma1 (x : Word) : Word := x.rotateRight 6 ^^^ x.rotateRight 11 ^^^ x.rotateRight 25

def smallSigma0 (x : Word) : Word := x.rotateRight 7 ^^^ x.rotateRight 18 ^^^ x >>> 3

def smallSigma1 (x : Word) : Word := x.rotateRight 17 ^^^ x.rotateRight 19 ^^^ x >>> 10

def choice (x y z : Word) : Word := (x &&& y) ^^^ (~~~x &&& z)

def majority (x y z : Word) : Word := (x &&& y) ^^^ (x &&& z) ^^^ (y &&& z)

/-- The first thirty-two bits of the fractional part of a root of the prime number at a place : two
is at the first. -/
noncomputable def rootBits (degree place : Nat) : Word :=
  BitVec.ofNat 32 (Nat.nthRoot degree (Nat.nth Nat.Prime place * 2 ^ (32 * degree)))

theorem exists_fill (size : Nat) : ∃ n, (size + 1 + n + 8) % 64 = 0 :=
  ⟨119 - size % 64, by omega⟩

/-- How many zero bytes there are in the padding, at least : what makes whole blocks of it. -/
def fill (size : Nat) : Nat := Nat.find (exists_fill size)

/-- The size of a message in bits, in eight bytes. -/
def sizeBytes (size : Nat) : List UInt8 :=
  (List.range 8).map fun i => ⟨(BitVec.ofNat 64 (8 * size)).extractLsb' (8 * (7 - i)) 8⟩

/-- A message with a one bit, zeros, and its size. -/
def padded (m : List UInt8) : List UInt8 :=
  m ++ 0x80 :: (List.replicate (fill m.length) 0 ++ sizeBytes m.length)

/-- The word of the four bytes from a place on. -/
def word (m : List UInt8) (i : Nat) : Word :=
  (m.getD i 0).toBitVec ++ (m.getD (i + 1) 0).toBitVec ++ (m.getD (i + 2) 0).toBitVec ++
    (m.getD (i + 3) 0).toBitVec

/-- The words of the rounds of a block. -/
def scheduled (block : Nat → Word) (t : Nat) : Word :=
  if t < 16 then block t
  else smallSigma1 (scheduled block (t - 2)) + scheduled block (t - 7) +
    smallSigma0 (scheduled block (t - 15)) + scheduled block (t - 16)
termination_by t
decreasing_by all_goals omega

/-- One round, with the constant and the word of the round. -/
def round (v : Words) (k w : Word) : Words :=
  let t₁ := v 7 + bigSigma1 (v 4) + choice (v 4) (v 5) (v 6) + k + w
  let t₂ := bigSigma0 (v 0) + majority (v 0) (v 1) (v 2)
  ![t₁ + t₂, v 0, v 1, v 2, v 3 + t₁, v 4, v 5, v 6]

/-- The words after a number of rounds of a block. -/
noncomputable def rounds (block : Nat → Word) (v : Words) : Nat → Words
  | 0 => v
  | t + 1 => round (rounds block v t) (rootBits 3 t) (scheduled block t)

/-- The words after a number of blocks. -/
noncomputable def wordsAfter (m : List UInt8) : Nat → Words
  | 0 => fun i => rootBits 2 i
  | n + 1 => wordsAfter m n + rounds (fun t => word m (64 * n + 4 * t)) (wordsAfter m n) 64

/-- The digits of a word to the base sixteen. -/
def digits (w : Word) : List Char :=
  (List.range 8).map fun i => Nat.digitChar (w.extractLsb' (4 * (7 - i)) 4).toNat

/-- The digest of a message, to the base sixteen. -/
noncomputable def hex (m : List UInt8) : String :=
  String.ofList ((List.ofFn (wordsAfter (padded m) ((padded m).length / 64))).flatMap digits)

/-! ## The constants -/

/-- No number below eighteen that is smaller divides it. -/
def HasNoSmallDivisor (p : Nat) : Prop := 2 ≤ p ∧ ∀ m < 18, 2 ≤ m → m < p → ¬m ∣ p

instance (p : Nat) : Decidable (HasNoSmallDivisor p) := inferInstanceAs (Decidable (_ ∧ _))

/-- Below the square of eighteen those are the prime numbers. -/
theorem prime_iff_of_lt {p : Nat} (hp : p < 18 * 18) : p.Prime ↔ HasNoSmallDivisor p := by
  constructor
  · intro hprime
    refine ⟨hprime.two_le, fun m _ htwo hlt hdvd => ?_⟩
    rcases (Nat.dvd_prime hprime).1 hdvd with rfl | rfl
    · cases Nat.not_succ_le_self 1 htwo
    · exact Nat.lt_irrefl m hlt
  · rintro ⟨htwo, hdvd⟩
    refine Nat.prime_def_le_sqrt.2 ⟨htwo, fun m hm hsqrt => ?_⟩
    have hsquare : m * m ≤ p := Nat.le_sqrt.1 hsqrt
    have hlt : m < 18 := Nat.mul_self_lt_mul_self_iff.1 (Nat.lt_of_le_of_lt hsquare hp)
    have hless : m < m * m := Nat.lt_mul_self_iff.2 hm
    exact hdvd m hlt hm (Nat.lt_of_lt_of_le hless hsquare)

theorem count_prime {n : Nat} (hn : n ≤ 18 * 18) :
    Nat.count Nat.Prime n = Nat.count HasNoSmallDivisor n := by
  induction n with
  | zero => rfl
  | succ n ih => simp only [Nat.count_succ, ih (Nat.le_of_succ_le hn), prime_iff_of_lt hn]

/-- There are sixty-four prime numbers below 312, and the constants are found at their places. -/
theorem rootBits_eq (degree : Nat) (constant : Nat → Word) {size : Nat} (hsize : size ≤ 64)
    (h : ∀ p < 312, HasNoSmallDivisor p → Nat.count HasNoSmallDivisor p < size →
      constant (Nat.count HasNoSmallDivisor p) =
        BitVec.ofNat 32 (Nat.nthRoot degree (p * 2 ^ (32 * degree))))
    {i : Nat} (hi : i < size) : constant i = rootBits degree i := by
  have hcount : Nat.count Nat.Prime 312 = 64 :=
    (count_prime (by decide)).trans (by decide +kernel)
  have hlt : Nat.nth Nat.Prime i < 312 := Nat.nth_lt_of_lt_count (by omega)
  have hplace : Nat.count HasNoSmallDivisor (Nat.nth Nat.Prime i) = i :=
    (count_prime (by omega)).symm.trans
      (Nat.count_nth_of_infinite Nat.infinite_setOfPred_prime i)
  have hconstant := h _ hlt ((prime_iff_of_lt (by omega)).1 (Nat.prime_nth_prime i))
  rw [hplace] at hconstant
  exact hconstant hi

theorem roundConstants_getD {t : Nat} (ht : t < 64) :
    (Sha256.roundConstants.getD t 0).toBitVec = rootBits 3 t :=
  rootBits_eq 3 (fun t => (Sha256.roundConstants.getD t 0).toBitVec) (Nat.le_refl _)
    (by decide +kernel) ht

/-- The words as the standard has them. -/
def toWords (s : Sha256.Words) : Words :=
  ![s.a.toBitVec, s.b.toBitVec, s.c.toBitVec, s.d.toBitVec, s.e.toBitVec, s.f.toBitVec,
    s.g.toBitVec, s.h.toBitVec]

theorem toWords_initial (i : Fin 8) : toWords Sha256.initial i = rootBits 2 i := by
  have hplace : Fin.ofNat 8 i = i := Fin.ext (Nat.mod_eq_of_lt i.isLt)
  have hroot := rootBits_eq 2 (fun t => toWords Sha256.initial (Fin.ofNat 8 t))
    (by decide) (by decide +kernel) i.isLt
  rwa [hplace] at hroot

/-! ## The schedule -/

variable {bytes : ByteArray} {m : List UInt8} {block : Nat → Word} {w : Array UInt32} {n : Nat}

theorem toBitVec_rotr (x : UInt32) {n : UInt32} (hpos : 0 < n.toNat) (hlt : n.toNat < 32) :
    (Sha256.rotr x n).toBitVec = x.toBitVec.rotateRight n.toNat := by
  have hn : (n.toBitVec % 32).toNat = n.toNat := Nat.mod_eq_of_lt hlt
  have hrest : ((32 - n).toBitVec % 32).toNat = 32 - n.toNat := by
    have hsub : (32 - n).toNat = 32 - n.toNat :=
      UInt32.toNat_sub_of_le _ _ (UInt32.le_iff_toNat_le.2 (Nat.le_of_lt hlt))
    exact (congrArg (· % 32) hsub).trans (Nat.mod_eq_of_lt (by omega))
  rw [Sha256.rotr, UInt32.toBitVec_or, UInt32.toBitVec_shiftRight, UInt32.toBitVec_shiftLeft,
    BitVec.rotateRight_def, Nat.mod_eq_of_lt hlt, BitVec.ushiftRight_eq', BitVec.shiftLeft_eq', hn,
    hrest]

theorem append_eq_or (a b c d : BitVec 8) : (a ++ b ++ c ++ d : BitVec (8 + 8 + 8 + 8)) =
    a.setWidth 32 <<< 24 ||| b.setWidth 32 <<< 16 ||| c.setWidth 32 <<< 8 ||| d.setWidth 32 := by
  have hshift {x : BitVec 8} {k : Nat} (hk : k ≤ 24) :
      (x.setWidth 32 <<< k).toNat = x.toNat <<< k := by
    have hlt : x.toNat * 2 ^ k < 2 ^ 32 := by
      calc x.toNat * 2 ^ k < 2 ^ 8 * 2 ^ k := Nat.mul_lt_mul_of_pos_right x.isLt (Nat.two_pow_pos k)
        _ = 2 ^ (8 + k) := (Nat.pow_add 2 8 k).symm
        _ ≤ 2 ^ 32 := Nat.pow_le_pow_right (by decide) (by omega)
    rw [BitVec.toNat_shiftLeft, BitVec.toNat_setWidth_of_le (by decide), Nat.shiftLeft_eq,
      Nat.mod_eq_of_lt hlt]
  apply BitVec.eq_of_toNat_eq
  rw [BitVec.toNat_append, BitVec.toNat_append, BitVec.toNat_append, BitVec.toNat_or,
    BitVec.toNat_or, BitVec.toNat_or, hshift (by decide), hshift (by decide), hshift (by decide),
    BitVec.toNat_setWidth_of_le (by decide)]
  simp only [Nat.shiftLeft_or_distrib, ← Nat.shiftLeft_add]

theorem toBitVec_wordAt (bytes : ByteArray) (i : Nat) :
    (Sha256.wordAt bytes i).toBitVec = word bytes.data.toList i := by
  have hbyte (j : Nat) : bytes.get! j = bytes.data.toList.getD j 0 := by
    rw [ByteArray.get!, getElem!_def, List.getD_eq_getElem?_getD, Array.getElem?_toList]
    cases bytes.data[j]? <;> rfl
  rw [Sha256.wordAt, word, append_eq_or, hbyte, hbyte, hbyte, hbyte]
  rfl

/-- The array holds the words of the first rounds. -/
structure Holds (block : Nat → Word) (w : Array UInt32) (n : Nat) : Prop where
  size : w.size = n
  word : ∀ t < n, (w.getD t 0).toBitVec = scheduled block t

theorem Holds.push {x : UInt32} (h : Holds block w n) (hx : x.toBitVec = scheduled block n) :
    Holds block (w.push x) (n + 1) where
  size := by rw [Array.size_push, h.size]
  word t ht := by
    obtain rfl := h.size
    rcases Nat.lt_succ_iff_lt_or_eq.1 ht with hlt | rfl
    · rw [← h.word t hlt]
      simp only [Array.getD_eq_getD_getElem?, Array.getElem?_push_lt hlt,
        Array.getElem?_eq_getElem hlt]
    · rw [← hx]
      simp only [Array.getD_eq_getD_getElem?, Array.getElem?_push_size, Option.getD_some]

/-- The word that comes next in an array that holds `n + 16`. -/
def nextWord (w : Array UInt32) (n : Nat) : UInt32 :=
  let x := w.getD (n + 16 - 15) 0
  let y := w.getD (n + 16 - 2) 0
  let s0 := Sha256.rotr x 7 ^^^ Sha256.rotr x 18 ^^^ (x >>> 3)
  let s1 := Sha256.rotr y 17 ^^^ Sha256.rotr y 19 ^^^ (y >>> 10)
  w.getD (n + 16 - 16) 0 + s0 + w.getD (n + 16 - 7) 0 + s1

theorem schedule_eq (bytes : ByteArray) (start : Nat) : Sha256.schedule bytes start =
    (List.range 48).foldl (fun w n => w.push (nextWord w n)) ((List.range 16).foldl
      (fun w i => w.push (Sha256.wordAt bytes (start + 4 * i))) #[]) := rfl

theorem Holds.toBitVec_nextWord (h : Holds block w (n + 16)) :
    (nextWord w n).toBitVec = scheduled block (n + 16) := by
  have hshift (x : UInt32) : (x >>> 3).toBitVec = x.toBitVec >>> 3 := rfl
  have hshift' (x : UInt32) : (x >>> 10).toBitVec = x.toBitVec >>> 10 := rfl
  have h2 := h.word (n + 16 - 2) (by omega)
  have h7 := h.word (n + 16 - 7) (by omega)
  have h15 := h.word (n + 16 - 15) (by omega)
  have h16 := h.word (n + 16 - 16) (by omega)
  rw [scheduled, if_neg (by omega), ← h2, ← h7, ← h15, ← h16, smallSigma0, smallSigma1, nextWord]
  simp only [UInt32.toBitVec_add, UInt32.toBitVec_xor, hshift, hshift']
  rw [toBitVec_rotr _ (by decide) (by decide), toBitVec_rotr _ (by decide) (by decide),
    toBitVec_rotr _ (by decide) (by decide), toBitVec_rotr _ (by decide) (by decide)]
  simp only [UInt32.reduceToNat]
  ac_rfl

theorem holds_schedule (bytes : ByteArray) (start : Nat) :
    Holds (fun t => word bytes.data.toList (start + 4 * t)) (Sha256.schedule bytes start) 64 := by
  have hread : ∀ n ≤ 16, Holds (fun t => word bytes.data.toList (start + 4 * t))
      ((List.range n).foldl (fun w i => w.push (Sha256.wordAt bytes (start + 4 * i))) #[]) n := by
    intro n hn
    induction n with
    | zero => exact ⟨rfl, nofun⟩
    | succ n ih =>
      rw [List.range_succ, List.foldl_concat]
      refine (ih (by omega)).push ?_
      rw [toBitVec_wordAt, scheduled, if_pos (by omega)]
  have hfirst := hread 16 (Nat.le_refl _)
  rw [schedule_eq]
  generalize (List.range 16).foldl _ #[] = first at hfirst
  suffices h : ∀ n, Holds (fun t => word bytes.data.toList (start + 4 * t))
      ((List.range n).foldl (fun w n => w.push (nextWord w n)) first) (n + 16) from h 48
  intro n
  induction n with
  | zero => exact hfirst
  | succ n ih =>
    rw [List.range_succ, List.foldl_concat, Nat.add_right_comm]
    exact ih.push ih.toBitVec_nextWord

/-! ## The rounds -/

theorem toWords_round (s : Sha256.Words) (w k : UInt32) :
    toWords (Sha256.round s w k) = round (toWords s) k.toBitVec w.toBitVec := by
  unfold Sha256.round round
  simp [toWords, toBitVec_rotr, bigSigma0, bigSigma1, choice, majority]

theorem toWords_rounds (h : Holds block w 64) (s : Sha256.Words) {n : Nat} (hn : n ≤ 64) :
    toWords ((List.range n).foldl
      (fun s t => Sha256.round s (w.getD t 0) (Sha256.roundConstants.getD t 0)) s) =
        rounds block (toWords s) n := by
  induction n with
  | zero => rfl
  | succ n ih =>
    rw [List.range_succ, List.foldl_concat, toWords_round, ih (by omega), h.word n (by omega),
      roundConstants_getD (by omega), rounds]

theorem toWords_compress (bytes : ByteArray) (s : Sha256.Words) (start : Nat) :
    toWords (Sha256.compress bytes s start) =
      toWords s + rounds (fun t => word bytes.data.toList (start + 4 * t)) (toWords s) 64 := by
  rw [← toWords_rounds (holds_schedule bytes start) s (Nat.le_refl _)]
  generalize hafter : (List.range 64).foldl _ s = after
  have hcompress : Sha256.compress bytes s start = ⟨s.a + after.a, s.b + after.b, s.c + after.c,
      s.d + after.d, s.e + after.e, s.f + after.f, s.g + after.g, s.h + after.h⟩ := by
    rw [← hafter]
    rfl
  rw [hcompress]
  funext i
  fin_cases i <;> rfl

theorem toWords_blocks (bytes : ByteArray) (n : Nat) :
    toWords ((List.range n).foldl (fun s i => Sha256.compress bytes s (64 * i)) Sha256.initial) =
      wordsAfter bytes.data.toList n := by
  induction n with
  | zero => exact funext toWords_initial
  | succ n ih =>
    rw [List.range_succ, List.foldl_concat, toWords_compress, ih, wordsAfter]

/-! ## The padding -/

theorem fill_eq (size : Nat) : (119 - size % 64) % 64 = fill size := by
  refine ((Nat.find_eq_iff _).2 ⟨by omega, fun n hn => ?_⟩).symm
  omega

theorem toList_push (bytes : ByteArray) (b : UInt8) :
    (bytes.push b).data.toList = bytes.data.toList ++ [b] := by
  rw [ByteArray.data_push, Array.toList_push]

theorem toList_fold_push (bytes : ByteArray) (n : Nat) :
    (n.fold (fun _ _ (acc : ByteArray) => acc.push 0) bytes).data.toList =
      bytes.data.toList ++ List.replicate n 0 := by
  induction n with
  | zero => simp
  | succ n ih =>
    rw [Nat.fold_succ, toList_push, ih, List.append_assoc, ← List.replicate_succ']

theorem toList_foldl_push (bytes : ByteArray) (f : Nat → UInt8) (n : Nat) :
    ((List.range n).foldl (fun acc i => acc.push (f i)) bytes).data.toList =
      bytes.data.toList ++ (List.range n).map f := by
  induction n with
  | zero => simp
  | succ n ih =>
    rw [List.range_succ, List.foldl_concat, toList_push, ih, List.append_assoc, List.map_append,
      List.map_singleton]

theorem map_range_eq_sizeBytes (size : Nat) :
    ((List.range 8).map fun i => ((size * 8) >>> (8 * (7 - i))).toUInt8) = sizeBytes size := by
  refine List.map_congr_left fun i _ => UInt8.toNat_inj.1 ?_
  have hbyte : ((size * 8) >>> (8 * (7 - i))) % 2 ^ 8 =
      ((8 * size) % 2 ^ 64) >>> (8 * (7 - i)) % 2 ^ 8 := by
    refine Nat.eq_of_testBit_eq fun j => ?_
    rw [Nat.testBit_mod_two_pow, Nat.testBit_mod_two_pow, Nat.testBit_shiftRight,
      Nat.testBit_shiftRight, Nat.testBit_mod_two_pow, Nat.mul_comm size 8]
    by_cases hj : j < 8
    · rw [decide_eq_true (by omega : 8 * (7 - i) + j < 64), Bool.true_and]
    · rw [decide_eq_false hj, Bool.false_and, Bool.false_and]
  rw [Nat.toUInt8_eq, UInt8.toNat_ofNat', hbyte]
  exact (BitVec.extractLsb'_toNat _ _ (BitVec.ofNat 64 (8 * size))).symm

theorem toList_pad (bytes : ByteArray) :
    (Sha256.pad bytes).data.toList = padded bytes.data.toList := by
  have hsize : bytes.data.toList.length = bytes.size := rfl
  rw [Sha256.pad, toList_foldl_push, toList_fold_push, toList_push, fill_eq,
    map_range_eq_sizeBytes, padded, hsize]
  simp only [List.append_assoc, List.cons_append, List.nil_append]

/-! ## The digits -/

theorem toHex_eq (bytes : ByteArray) : Text.toHex bytes = String.ofList
    (bytes.data.toList.flatMap fun b => [b.toNat / 16, b.toNat % 16].map Text.hexDigit) := by
  have hpushed (l : List UInt8) (s : String) :
      l.foldl (fun s b => (s.push (Text.hexDigit (b.toNat / 16))).push
        (Text.hexDigit (b.toNat % 16))) s = s ++ String.ofList
          (l.flatMap fun b => [b.toNat / 16, b.toNat % 16].map Text.hexDigit) := by
    induction l generalizing s with
    | nil => simp
    | cons b l ih =>
      rw [List.foldl_cons, ih, List.flatMap_cons]
      exact String.toList_injective (by simp)
  rw [Text.toHex, Text.foldl_toList, hpushed, String.empty_append]

theorem flatMap_wordBytes (w : UInt32) :
    ((Sha256.wordBytes w).flatMap fun b => [b.toNat / 16, b.toNat % 16].map Text.hexDigit) =
      digits w.toBitVec := by
  have hdigit : ∀ n < 16, Text.hexDigit n = Nat.digitChar n := by decide
  have hlow (k : Nat) : Text.hexDigit (w.toNat >>> k % 2 ^ 8 % 16) =
      Nat.digitChar (w.toNat >>> k % 2 ^ 4) := by
    rw [hdigit _ (Nat.mod_lt _ (by decide))]
    congr 1
    omega
  have hhigh (k : Nat) : Text.hexDigit (w.toNat >>> k % 2 ^ 8 / 16) =
      Nat.digitChar (w.toNat >>> (k + 4) % 2 ^ 4) := by
    rw [hdigit _ (by omega), Nat.shiftRight_add, Nat.shiftRight_eq_div_pow (w.toNat >>> k)]
    congr 1
    omega
  have h24 : (w >>> 24).toNat = w.toNat >>> 24 := rfl
  have h16 : (w >>> 16).toNat = w.toNat >>> 16 := rfl
  have h8 : (w >>> 8).toNat = w.toNat >>> 8 := rfl
  have h0 : w.toNat = w.toNat >>> 0 := rfl
  simp only [Sha256.wordBytes, List.flatMap_cons, List.flatMap_nil, UInt32.toNat_toUInt8,
    List.map_cons, List.map_nil, h24, h16, h8, hlow, hhigh]
  rw [h0, hlow, hhigh]
  rfl

/-- The digest that is computed for a text is that of its bytes. -/
theorem hexOfText_eq (s : String) : Sha256.hexOfText s = hex s.toUTF8.data.toList := by
  have hsize (m : ByteArray) : m.size = m.data.toList.length := rfl
  rw [Sha256.hexOfText, toHex_eq, Sha256.digest, hex, ← toList_pad, ← hsize, ← toWords_blocks]
  generalize (List.range ((Sha256.pad s.toUTF8).size / 64)).foldl _ Sha256.initial = words
  have hwords : List.ofFn (toWords words) = [words.a, words.b, words.c, words.d, words.e, words.f,
      words.g, words.h].map UInt32.toBitVec := rfl
  rw [hwords, List.flatMap_map, List.toList_toArray, List.flatMap_assoc]
  simp only [flatMap_wordBytes]

end ClassViewer.Digest.Standard
