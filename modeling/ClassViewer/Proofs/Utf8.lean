import ClassViewer.Proofs.Text
import ClassViewer.Text.Utf8
import Mathlib.Algebra.Group.Nat.Defs
import Mathlib.Tactic.SplitIfs

/-!
# Bytes and the text they decode to

`Decodes` says what bytes decode to without saying how : the bytes of a character are that
character, and where none stands a replacement character takes the place of one part of the bytes
(`Broken`), the longest that a character could begin with, or a single byte. The bytes of
characters are those of the strings of the language itself.

The decoder is followed byte by byte. A sequence that is open fits the bytes it was begun with
(`Open.Fits`) : it knows which bytes may come next, and what the last one completes. So every
sequence of bytes decodes to what the decoder gives, and to nothing else (`decodeLossy_eq_iff`), and
the bytes of a text decode to the text (`decodeLossy_toUTF8`).
-/

namespace ClassViewer.Text.Utf8

/-! ## The relation -/

/-- The bytes of a character. -/
abbrev bytesOf (c : Char) : List UInt8 := String.utf8EncodeChar c

/-- A part of bytes that one replacement character stands for, in front of the rest. -/
structure Broken (part rest : List UInt8) : Prop where
  ne_nil : part ≠ []
  /-- No character stands there. -/
  unread : ∀ c, ¬bytesOf c <+: part ++ rest
  /-- It is a single byte, or a character can begin with it. -/
  begins : part.length = 1 ∨ ∃ c, part <+: bytesOf c
  /-- With more of the bytes none can. -/
  longest : ∀ more c, more <+: part ++ rest → more <+: bytesOf c → more.length ≤ part.length

/-- The characters that bytes decode to. -/
inductive Decodes : List UInt8 → List Char → Prop
  | done : Decodes [] []
  | char (c : Char) {rest : List UInt8} {cs : List Char} : Decodes rest cs →
      Decodes (bytesOf c ++ rest) (c :: cs)
  | broken {part rest : List UInt8} {cs : List Char} : Broken part rest → Decodes rest cs →
      Decodes (part ++ rest) (replacement :: cs)

/-! ## The bytes of a character -/

variable {part rest bytes : List UInt8} {o : Open} {b : UInt8} {c : Char} {n v : Nat}

/-- No character begins with the bytes of another. -/
theorem eq_of_bytesOf_begins {c' : Char} (h : bytesOf c <+: bytesOf c') : c = c' := by
  obtain ⟨more, hmore⟩ := h
  have hc := ByteArray.utf8DecodeChar?_utf8EncodeChar_append (b := more.toByteArray) (c := c)
  have hc' := ByteArray.utf8DecodeChar?_utf8EncodeChar_append (b := ByteArray.empty) (c := c')
  rw [← List.toByteArray_append, hmore] at hc
  rw [ByteArray.append_empty, hc] at hc'
  exact Option.some.inj hc'

theorem bytesOf_append_inj {c' : Char} {rest' : List UInt8}
    (h : bytesOf c ++ rest = bytesOf c' ++ rest') : c = c' ∧ rest = rest' := by
  have hc : c = c' := by
    rcases List.prefix_or_prefix_of_prefix (List.prefix_append (bytesOf c) rest)
      (h ▸ List.prefix_append (bytesOf c') rest') with hle | hle
    · exact eq_of_bytesOf_begins hle
    · exact (eq_of_bytesOf_begins hle).symm
  subst hc
  exact ⟨rfl, List.append_cancel_left h⟩

/-- The byte that carries the digit of a number at a place to the base 64. -/
def tailByte (n v : Nat) : UInt8 := UInt8.ofNat (v / 64 ^ n % 64 + 0x80)

/-- The last bytes of a character with that number. -/
def tailBytes : Nat → Nat → List UInt8
  | 0, _ => []
  | n + 1, v => tailByte n v :: tailBytes n v

theorem toNat_tailByte (n v : Nat) : (tailByte n v).toNat = v / 64 ^ n % 64 + 0x80 := by
  rw [tailByte, UInt8.toNat_ofNat']
  omega

/-- How many bytes follow the first one of a character with that number, and what the first one is
counted from. -/
def Sized (n lead v : Nat) : Prop :=
  n = 0 ∧ lead = 0 ∧ v < 0x80 ∨
    n = 1 ∧ lead = 0xC0 ∧ 0x80 ≤ v ∧ v < 0x800 ∨
    n = 2 ∧ lead = 0xE0 ∧ 0x800 ≤ v ∧ v < 0x10000 ∨
    n = 3 ∧ lead = 0xF0 ∧ 0x10000 ≤ v ∧ v < 0x110000

/-- A character begins with a byte that says how many follow, and the others carry six bits each. -/
theorem exists_bytesOf (c : Char) : ∃ n lead, Sized n lead c.toNat ∧
    bytesOf c = UInt8.ofNat (lead + c.toNat / 64 ^ n) :: tailBytes n c.toNat := by
  have hv : c.val.toNat = c.toNat := rfl
  have hlt : c.toNat < 0x110000 := by
    have hc : c.toNat.isValidChar := c.valid
    simp only [Nat.isValidChar] at hc
    omega
  simp only [bytesOf, String.utf8EncodeChar, hv]
  generalize c.toNat = v at hlt
  split
  · exact ⟨0, 0, .inl ⟨rfl, rfl, by omega⟩, by simp [tailBytes]⟩
  split
  · refine ⟨1, 0xC0, .inr (.inl ⟨rfl, rfl, by omega, by omega⟩), ?_⟩
    have hlead : v / 64 % 32 + 0xC0 = 0xC0 + v / 64 ^ 1 := by omega
    simp only [tailBytes, tailByte, hlead, Nat.pow_zero, Nat.div_one]
  split
  · refine ⟨2, 0xE0, .inr (.inr (.inl ⟨rfl, rfl, by omega, by omega⟩)), ?_⟩
    have hlead : v / 4096 % 16 + 0xE0 = 0xE0 + v / 64 ^ 2 := by omega
    simp only [tailBytes, tailByte, hlead, Nat.pow_zero, Nat.div_one, Nat.pow_one]
  · refine ⟨3, 0xF0, .inr (.inr (.inr ⟨rfl, rfl, by omega, by omega⟩)), ?_⟩
    have hlead : v / 262144 % 8 + 0xF0 = 0xF0 + v / 64 ^ 3 := by omega
    have hsecond : v / 4096 = v / 64 ^ 2 := by omega
    simp only [tailBytes, tailByte, hlead, hsecond, Nat.pow_zero, Nat.div_one, Nat.pow_one]

theorem singleton_prefix_cons_iff {b' : UInt8} {l : List UInt8} : [b] <+: b' :: l ↔ b = b' := by
  simp [List.cons_prefix_cons]

/-! ## Open sequences -/

/-- What an open sequence allows the number of a character to be. -/
def Open.Allows (o : Open) (v : Nat) : Prop :=
  v / 64 ^ o.missing = o.bits ∧ o.low ≤ v / 64 ^ (o.missing - 1) % 64 + 0x80 ∧
    v / 64 ^ (o.missing - 1) % 64 + 0x80 ≤ o.high

/-- An open sequence fits the bytes it was begun with : the characters that begin with them are
those whose numbers it allows, and what it misses are their last bytes. -/
structure Open.Fits (o : Open) (part : List UInt8) : Prop where
  ne_nil : part ≠ []
  missing_pos : 0 < o.missing
  le_low : 0x80 ≤ o.low
  low_le : o.low ≤ o.high
  high_le : o.high ≤ 0xBF
  valid : ∀ v, o.Allows v → v.isValidChar
  begins_iff : ∀ c : Char, part <+: bytesOf c ↔ o.Allows c.toNat
  complete : ∀ c : Char, part <+: bytesOf c → bytesOf c = part ++ tailBytes o.missing c.toNat

theorem toNat_ofNat_of_isValidChar (h : v.isValidChar) : (Char.ofNat v).toNat = v := by
  rw [Char.ofNat, dif_pos h]
  rfl

/-- The sequence that a first byte opens fits it, if the numbers that it allows are those whose
first byte that is. -/
theorem Open.fits_singleton (hpos : 0 < o.missing) (hlow : 0x80 ≤ o.low) (hle : o.low ≤ o.high)
    (hhigh : o.high ≤ 0xBF) (hvalid : ∀ v, o.Allows v → v.isValidChar)
    (hfirst : ∀ v n lead, v.isValidChar → Sized n lead v →
      (lead + v / 64 ^ n = b.toNat ↔ o.Allows v) ∧ (o.Allows v → n = o.missing)) :
    o.Fits [b] := by
  have hread (c : Char) : ([b] <+: bytesOf c ↔ o.Allows c.toNat) ∧
      (o.Allows c.toNat → bytesOf c = [b] ++ tailBytes o.missing c.toNat) := by
    obtain ⟨n, lead, hsized, hbytes⟩ := exists_bytesOf c
    obtain ⟨hiff, hn⟩ := hfirst c.toNat n lead c.valid hsized
    have hlt : lead + c.toNat / 64 ^ n < 256 := by
      rcases hsized with ⟨rfl, rfl, h⟩ | ⟨rfl, rfl, h⟩ | ⟨rfl, rfl, h⟩ | ⟨rfl, rfl, h⟩ <;> omega
    have hbyte : b = UInt8.ofNat (lead + c.toNat / 64 ^ n) ↔ o.Allows c.toNat := by
      rw [← hiff, ← UInt8.toNat_inj, UInt8.toNat_ofNat', Nat.mod_eq_of_lt hlt, eq_comm]
    rw [hbytes, singleton_prefix_cons_iff, hbyte]
    refine ⟨Iff.rfl, fun hallows => ?_⟩
    rw [← hbyte.2 hallows, hn hallows]
    rfl
  exact ⟨List.cons_ne_nil _ _, hpos, hlow, hle, hhigh, hvalid, fun c => (hread c).1,
    fun c hc => (hread c).2 ((hread c).1.1 hc)⟩

namespace Open.Fits

variable (h : o.Fits part)

include h

theorem pow_missing : 64 ^ o.missing = 64 ^ (o.missing - 1) * 64 := by
  rw [← Nat.pow_succ, Nat.succ_eq_add_one, Nat.sub_add_cancel h.missing_pos]

/-- Some character begins with the bytes. -/
theorem exists_begins : ∃ c, part <+: bytesOf c := by
  have hallows : o.Allows ((o.bits * 64 + (o.low - 0x80)) * 64 ^ (o.missing - 1)) := by
    have hpow : 0 < 64 ^ (o.missing - 1) := Nat.pow_pos (by decide)
    rw [Allows, h.pow_missing, ← Nat.div_div_eq_div_mul, Nat.mul_div_cancel _ hpow]
    obtain ⟨-, hpos, hlow, hle, hhigh, -⟩ := h
    omega
  refine ⟨Char.ofNat ((o.bits * 64 + (o.low - 0x80)) * 64 ^ (o.missing - 1)),
    (h.begins_iff _).2 ?_⟩
  rw [toNat_ofNat_of_isValidChar (h.valid _ hallows)]
  exact hallows

theorem complete_cons {c : Char} (hc : part <+: bytesOf c) : bytesOf c =
    part ++ tailByte (o.missing - 1) c.toNat :: tailBytes (o.missing - 1) c.toNat := by
  obtain ⟨n, hn⟩ := Nat.exists_eq_add_of_le' h.missing_pos
  rw [h.complete c hc, hn]
  rfl

/-- The characters that go on with a byte are those of which it is the next one. -/
theorem append_begins_iff (c : Char) : part ++ [b] <+: bytesOf c ↔
    o.Allows c.toNat ∧ c.toNat / 64 ^ (o.missing - 1) % 64 + 0x80 = b.toNat := by
  have hbyte : tailByte (o.missing - 1) c.toNat = b ↔
      c.toNat / 64 ^ (o.missing - 1) % 64 + 0x80 = b.toNat := by
    rw [← UInt8.toNat_inj, toNat_tailByte]
  rw [← h.begins_iff, ← hbyte]
  constructor
  · intro hc
    have hpart : part <+: bytesOf c := (List.prefix_append part [b]).trans hc
    rw [h.complete_cons hpart, List.prefix_append_right_inj, singleton_prefix_cons_iff] at hc
    exact ⟨hpart, hc.symm⟩
  · rintro ⟨hpart, rfl⟩
    rw [h.complete_cons hpart, List.prefix_append_right_inj, singleton_prefix_cons_iff]

/-- A byte outside of the range goes on with no character. -/
theorem not_append_begins (hout : ¬(o.low ≤ b.toNat ∧ b.toNat ≤ o.high)) (c : Char) :
    ¬part ++ [b] <+: bytesOf c := by
  rw [h.append_begins_iff]
  rintro ⟨⟨-, hlow, hhigh⟩, hb⟩
  rw [hb] at hlow hhigh
  exact hout ⟨hlow, hhigh⟩

/-- A byte in the range goes on with the characters whose numbers go on with its digit. -/
theorem append_begins_iff_of_mem (hlow : o.low ≤ b.toNat) (hhigh : b.toNat ≤ o.high) (c : Char) :
    part ++ [b] <+: bytesOf c ↔
      c.toNat / 64 ^ (o.missing - 1) = o.bits * 0x40 + b.toNat % 0x40 := by
  rw [h.append_begins_iff, Allows, h.pow_missing, ← Nat.div_div_eq_div_mul]
  have := h.le_low
  have := h.high_le
  omega

/-- The sequence goes on with a byte in the range. -/
theorem goesOn (hlow : o.low ≤ b.toNat) (hhigh : b.toNat ≤ o.high) (hmore : 1 < o.missing) :
    (⟨o.bits * 0x40 + b.toNat % 0x40, o.missing - 1, 0x80, 0xBF⟩ : Open).Fits (part ++ [b]) := by
  have hallows (v : Nat) :
      (⟨o.bits * 0x40 + b.toNat % 0x40, o.missing - 1, 0x80, 0xBF⟩ : Open).Allows v ↔
        v / 64 ^ (o.missing - 1) = o.bits * 0x40 + b.toNat % 0x40 := by
    simp only [Allows]
    omega
  refine ⟨by simp, Nat.sub_pos_of_lt hmore, Nat.le_refl 0x80, Nat.le_of_ble_eq_true rfl,
    Nat.le_refl 0xBF, fun v hv => ?_, fun c => ?_, fun c hc => ?_⟩
  · refine h.valid v ?_
    rw [hallows] at hv
    rw [Allows, h.pow_missing, ← Nat.div_div_eq_div_mul, hv]
    have := h.le_low
    have := h.high_le
    omega
  · rw [h.append_begins_iff_of_mem hlow hhigh, hallows]
  · have hpart : part <+: bytesOf c := (List.prefix_append part [b]).trans hc
    obtain ⟨-, hb⟩ := (h.append_begins_iff c).1 hc
    have hbyte : tailByte (o.missing - 1) c.toNat = b := by
      rw [← UInt8.toNat_inj, toNat_tailByte, hb]
    rw [h.complete_cons hpart, hbyte, List.append_assoc]
    rfl

/-- The last byte that is missing completes a character. -/
theorem last (hlow : o.low ≤ b.toNat) (hhigh : b.toNat ≤ o.high) (hlast : o.missing ≤ 1) :
    bytesOf (Char.ofNat (o.bits * 0x40 + b.toNat % 0x40)) = part ++ [b] := by
  have hmissing : o.missing = 1 := Nat.le_antisymm hlast h.missing_pos
  have hallows : o.Allows (o.bits * 0x40 + b.toNat % 0x40) := by
    have := h.le_low
    have := h.high_le
    rw [Allows, hmissing]
    omega
  have hv := toNat_ofNat_of_isValidChar (h.valid _ hallows)
  have hc : part ++ [b] <+: bytesOf (Char.ofNat (o.bits * 0x40 + b.toNat % 0x40)) := by
    rw [h.append_begins_iff_of_mem hlow hhigh, hv, hmissing, Nat.sub_self, Nat.pow_zero,
      Nat.div_one]
  have hlength := congrArg List.length
    (h.complete _ ((List.prefix_append part [b]).trans hc))
  refine (hc.eq_of_length ?_).symm
  rw [hlength, hmissing]
  simp [tailBytes]

/-- Where the bytes do not go on as any character does, they are broken. -/
theorem broken (hstop : ∀ b' more c, rest = b' :: more → ¬part ++ [b'] <+: bytesOf c) :
    Broken part rest := by
  obtain ⟨c', hc'⟩ := h.exists_begins
  have hshort {bytes : List UInt8} {c : Char} (hbytes : bytes <+: part ++ rest)
      (hc : bytes <+: bytesOf c) : bytes <+: part := by
    rcases List.prefix_or_prefix_of_prefix hbytes (List.prefix_append part rest) with hle | hge
    · exact hle
    · obtain ⟨more, rfl⟩ := hge
      cases more with
      | nil => simp
      | cons b' more =>
        have hrest : b' :: more <+: rest := (List.prefix_append_right_inj part).1 hbytes
        obtain ⟨others, rfl⟩ := hrest
        refine absurd (List.IsPrefix.trans ?_ hc) (hstop b' (more ++ others) c rfl)
        rw [List.prefix_append_right_inj, singleton_prefix_cons_iff]
  have hbegun (c : Char) : ¬bytesOf c <+: part := by
    intro hc
    obtain rfl := eq_of_bytesOf_begins (hc.trans hc')
    have hlength := congrArg List.length (h.complete_cons hc')
    have := hc.length_le
    simp only [List.length_append, List.length_cons] at hlength
    omega
  exact ⟨h.ne_nil, fun c hc => hbegun c (hshort hc (List.prefix_refl _)), .inr ⟨c', hc'⟩,
    fun more c hmore hc => (hshort hmore hc).length_le⟩

end Open.Fits

/-! ## The decoder -/

/-- A byte below 128 is a character by itself. -/
theorem bytesOf_ofNat (hb : b.toNat < 0x80) : bytesOf (Char.ofNat b.toNat) = [b] := by
  have hvalid : b.toNat.isValidChar := by
    simp only [Nat.isValidChar]
    omega
  obtain ⟨n, lead, hsized, hbytes⟩ := exists_bytesOf (Char.ofNat b.toNat)
  rw [toNat_ofNat_of_isValidChar hvalid] at hsized hbytes
  rcases hsized with ⟨rfl, rfl, -⟩ | ⟨-, -, h, -⟩ | ⟨-, -, h, -⟩ | ⟨-, -, h, -⟩
  · rw [hbytes, Nat.zero_add, Nat.pow_zero, Nat.div_one, UInt8.ofNat_toNat]
    rfl
  all_goals omega

/-- No character begins with a byte that others go on with, nor with one that is too high. -/
theorem not_singleton_begins (hb : 0x80 ≤ b.toNat ∧ b.toNat < 0xC2 ∨ 0xF5 ≤ b.toNat) (c : Char) :
    ¬[b] <+: bytesOf c := by
  obtain ⟨n, lead, hsized, hbytes⟩ := exists_bytesOf c
  rw [hbytes, singleton_prefix_cons_iff, ← UInt8.toNat_inj, UInt8.toNat_ofNat']
  rcases hsized with ⟨rfl, rfl, h⟩ | ⟨rfl, rfl, h⟩ | ⟨rfl, rfl, h⟩ | ⟨rfl, rfl, h⟩ <;> omega

/-- Every other byte opens a sequence that fits it. -/
theorem exists_begin_eq_some (hlow : 0xC2 ≤ b.toNat) (hhigh : b.toNat < 0xF5) (out : List Char) :
    ∃ o : Open, o.Fits [b] ∧ begin out b.toNat = ⟨some o, out⟩ := by
  unfold begin
  rw [if_neg (by omega), if_neg (by omega)]
  -- what a first byte allows is compared with the four sizes of characters
  split_ifs
  all_goals first
    | omega
    | refine ⟨_, Open.fits_singleton ?_ ?_ ?_ ?_ ?_ ?_, rfl⟩
      all_goals simp only [Open.Allows, Nat.isValidChar]
      all_goals try omega
      intro v n lead hvalid hsized
      rcases hsized with ⟨rfl, rfl, h⟩ | ⟨rfl, rfl, h⟩ | ⟨rfl, rfl, h⟩ | ⟨rfl, rfl, h⟩ <;> omega

/-- A byte where a sequence begins is a character, or begins none, or opens a sequence that fits
it. -/
theorem begin_cases (out : List Char) (b : UInt8) :
    (∃ c, bytesOf c = [b] ∧ begin out b.toNat = ⟨none, c :: out⟩) ∨
    ((∀ c, ¬[b] <+: bytesOf c) ∧ begin out b.toNat = ⟨none, replacement :: out⟩) ∨
    ∃ o : Open, o.Fits [b] ∧ begin out b.toNat = ⟨some o, out⟩ := by
  by_cases hascii : b.toNat < 0x80
  · exact .inl ⟨Char.ofNat b.toNat, bytesOf_ofNat hascii, if_pos hascii⟩
  by_cases hopen : 0xC2 ≤ b.toNat ∧ b.toNat < 0xF5
  · exact .inr (.inr (exists_begin_eq_some hopen.1 hopen.2 out))
  · refine .inr (.inl ⟨not_singleton_begins (by omega), ?_⟩)
    unfold begin
    split_ifs
    all_goals first
      | rfl
      | omega

/-- A byte that begins no character is broken by itself. -/
theorem broken_singleton (hb : ∀ c, ¬[b] <+: bytesOf c) (rest : List UInt8) : Broken [b] rest where
  ne_nil := List.cons_ne_nil _ _
  unread c hc := by
    cases hbytes : bytesOf c with
    | nil => exact String.utf8EncodeChar_ne_nil hbytes
    | cons b' more =>
      rw [hbytes, List.singleton_append, List.cons_prefix_cons] at hc
      obtain ⟨rfl, -⟩ := hc
      refine hb c ?_
      rw [hbytes, singleton_prefix_cons_iff]
  begins := .inl rfl
  longest more c hmore hc := by
    cases more with
    | nil => exact Nat.zero_le _
    | cons b' more =>
      rw [List.singleton_append, List.cons_prefix_cons] at hmore
      obtain ⟨rfl, -⟩ := hmore
      exact absurd ((singleton_prefix_cons_iff.2 rfl).trans hc) (hb c)

/-- An open sequence is completed by the bytes that follow, or they show it to be broken. -/
theorem Open.Fits.scan (h : o.Fits part) (bytes : List UInt8) (out : List Char) :
    (∃ c tail rest, bytes = tail ++ rest ∧ bytesOf c = part ++ tail ∧
      bytes.foldl step ⟨some o, out⟩ = rest.foldl step ⟨none, c :: out⟩) ∨
    ∃ tail rest, bytes = tail ++ rest ∧ Broken (part ++ tail) rest ∧
      finish (bytes.foldl step ⟨some o, out⟩) =
        finish (rest.foldl step ⟨none, replacement :: out⟩) := by
  induction bytes generalizing part o with
  | nil =>
    refine .inr ⟨[], [], rfl, ?_, rfl⟩
    rw [List.append_nil]
    exact h.broken nofun
  | cons b bytes ih =>
    by_cases hrange : o.low ≤ b.toNat ∧ b.toNat ≤ o.high
    · by_cases hlast : o.missing ≤ 1
      · refine .inl ⟨_, [b], bytes, rfl, h.last hrange.1 hrange.2 hlast, ?_⟩
        rw [List.foldl_cons, step]
        simp only [if_pos hrange, if_pos hlast]
      · have hstep : (b :: bytes).foldl step ⟨some o, out⟩ = bytes.foldl step
            ⟨some ⟨o.bits * 0x40 + b.toNat % 0x40, o.missing - 1, 0x80, 0xBF⟩, out⟩ := by
          rw [List.foldl_cons, step]
          simp only [if_pos hrange, if_neg hlast]
        rw [hstep]
        obtain ⟨c, tail, rest, rfl, hc, hrun⟩ | ⟨tail, rest, rfl, hbroken, hrun⟩ :=
          ih (h.goesOn hrange.1 hrange.2 (Nat.lt_of_not_le hlast))
        · exact .inl ⟨c, b :: tail, rest, rfl, by rw [hc, List.append_assoc]; rfl, hrun⟩
        · refine .inr ⟨b :: tail, rest, rfl, ?_, hrun⟩
          rw [List.append_assoc] at hbroken
          exact hbroken
    · refine .inr ⟨[], b :: bytes, rfl, ?_, ?_⟩
      · rw [List.append_nil]
        refine h.broken fun b' more c hb => ?_
        obtain ⟨rfl, -⟩ := List.cons.inj hb
        exact h.not_append_begins hrange c
      · rw [List.foldl_cons, step]
        simp only [if_neg hrange]
        rfl

/-- What the decoder gives is what the bytes decode to. -/
theorem exists_decodes (bytes : List UInt8) (out : List Char) :
    ∃ cs, Decodes bytes cs ∧ finish (bytes.foldl step ⟨none, out⟩) = out.reverse ++ cs := by
  -- one character, or one replacement, is taken off the front at a time
  induction hn : bytes.length using Nat.strongRecOn generalizing bytes out with
  | ind n ih =>
    subst hn
    have hrest {part rest : List UInt8} {c : Char} (hbytes : bytes = part ++ rest)
        (hne : part ≠ []) (hpart : ∀ {cs}, Decodes rest cs → Decodes (part ++ rest) (c :: cs))
        (hrun : finish (bytes.foldl step ⟨none, out⟩) =
          finish (rest.foldl step ⟨none, c :: out⟩)) :
        ∃ cs, Decodes bytes cs ∧ finish (bytes.foldl step ⟨none, out⟩) = out.reverse ++ cs := by
      have hlt : rest.length < bytes.length := by
        have := List.length_pos_iff.2 hne
        rw [hbytes, List.length_append]
        omega
      obtain ⟨cs, hcs, hend⟩ := ih rest.length hlt rest (c :: out) rfl
      refine ⟨c :: cs, hbytes ▸ hpart hcs, ?_⟩
      rw [hrun, hend, List.reverse_cons, List.append_assoc]
      rfl
    cases bytes with
    | nil => exact ⟨[], .done, (List.append_nil _).symm⟩
    | cons b bytes =>
      have hstep : (b :: bytes).foldl step ⟨none, out⟩ = bytes.foldl step (begin out b.toNat) := rfl
      obtain ⟨c, hc, hbegin⟩ | ⟨hnone, hbegin⟩ | ⟨o, ho, hbegin⟩ := begin_cases out b
      · have hpart {cs : List Char} (h : Decodes bytes cs) : Decodes ([b] ++ bytes) (c :: cs) :=
          hc ▸ .char c h
        exact hrest rfl (List.cons_ne_nil b []) hpart (by rw [hstep, hbegin])
      · exact hrest rfl (List.cons_ne_nil b []) (.broken (broken_singleton hnone bytes))
          (by rw [hstep, hbegin])
      · have hne (tail : List UInt8) : [b] ++ tail ≠ [] := List.cons_ne_nil b tail
        obtain ⟨c, tail, rest, rfl, hc, hrun⟩ | ⟨tail, rest, rfl, hbroken, hrun⟩ :=
          ho.scan bytes out
        · have hpart {cs : List Char} (h : Decodes rest cs) :
              Decodes (([b] ++ tail) ++ rest) (c :: cs) := hc ▸ .char c h
          exact hrest rfl (hne tail) hpart (by rw [hstep, hbegin, hrun])
        · exact hrest rfl (hne tail) (.broken hbroken) (by rw [hstep, hbegin, hrun])

/-- What a replacement character stands for is determined by the bytes. -/
theorem Broken.unique {part' rest' : List UInt8} (h : Broken part rest) (h' : Broken part' rest')
    (hbytes : part ++ rest = part' ++ rest') : part = part' ∧ rest = rest' := by
  have hle {part rest part' rest' : List UInt8} (h : Broken part rest) (h' : Broken part' rest')
      (hbytes : part ++ rest = part' ++ rest') : part.length ≤ part'.length := by
    obtain hone | ⟨c, hc⟩ := h.begins
    · rw [hone]
      exact List.length_pos_iff.2 h'.ne_nil
    · exact h'.longest part c (hbytes ▸ List.prefix_append part rest) hc
  exact List.append_inj hbytes (Nat.le_antisymm (hle h h' hbytes) (hle h' h hbytes.symm))

/-- Bytes decode to one text only. -/
theorem Decodes.unique {cs cs' : List Char} (h : Decodes bytes cs) (h' : Decodes bytes cs') :
    cs = cs' := by
  induction h generalizing cs' with
  | done =>
    generalize hbytes : ([] : List UInt8) = bytes at h'
    cases h' with
    | done => rfl
    | char c =>
      exact absurd (List.append_eq_nil_iff.1 hbytes.symm).1 String.utf8EncodeChar_ne_nil
    | broken hbroken => exact absurd (List.append_eq_nil_iff.1 hbytes.symm).1 hbroken.ne_nil
  | @char c rest cs _ ih =>
    generalize hbytes : bytesOf c ++ rest = bytes at h'
    cases h' with
    | done => exact absurd (List.append_eq_nil_iff.1 hbytes).1 String.utf8EncodeChar_ne_nil
    | char c' h' =>
      obtain ⟨rfl, rfl⟩ := bytesOf_append_inj hbytes
      rw [ih h']
    | broken hbroken => exact absurd ⟨rest, hbytes⟩ (hbroken.unread c)
  | @broken part rest cs hbroken _ ih =>
    generalize hbytes : part ++ rest = bytes at h'
    cases h' with
    | done => exact absurd (List.append_eq_nil_iff.1 hbytes).1 hbroken.ne_nil
    | @char c rest' => exact absurd ⟨rest', hbytes.symm⟩ (hbroken.unread c)
    | @broken part' rest' _ hbroken' h' =>
      obtain ⟨rfl, rfl⟩ := hbroken.unique hbroken' hbytes
      rw [ih h']

/-- The decoder gives a text exactly if that is what the bytes decode to. -/
theorem decodeLossy_eq_iff (bytes : ByteArray) (s : String) :
    decodeLossy bytes = s ↔ Decodes bytes.data.toList s.toList := by
  obtain ⟨cs, hcs, hend⟩ := exists_decodes bytes.data.toList []
  have htext : decodeLossy bytes = String.ofList cs := by
    rw [decodeLossy, foldl_toList, hend]
    rfl
  rw [htext]
  constructor
  · rintro rfl
    rwa [String.toList_ofList]
  · intro h
    rw [hcs.unique h, String.ofList_toList]

/-- The bytes of characters decode to the characters. -/
theorem decodes_flatMap (cs : List Char) : Decodes (cs.flatMap bytesOf) cs := by
  induction cs with
  | nil => exact .done
  | cons c cs ih => exact .char c ih

/-- The bytes of a text decode to the text. -/
theorem decodeLossy_toUTF8 (s : String) : decodeLossy s.toUTF8 = s := by
  rw [decodeLossy_eq_iff, String.toUTF8_eq_toByteArray, ← String.utf8Encode_toList,
    List.utf8Encode, List.data_toByteArray]
  exact decodes_flatMap s.toList

end ClassViewer.Text.Utf8
