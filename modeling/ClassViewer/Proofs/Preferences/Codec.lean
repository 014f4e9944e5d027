import ClassViewer.Preferences.Database
import Mathlib.Algebra.Group.Nat.Defs

/-!
# Databases that are read back

What is read from a file is what was written into it. `Reads` says so of one part of a file wherever
it stands, and a file is put together from parts : numbers, texts, pairs and lists of them. A file
that was written for a database is the database again (`decode_encode`), however many writes it
remembers.
-/

namespace ClassViewer.Database

/-! ## Parts of a file -/

/-- The reader finds a value in its part of every file, and goes on behind it. -/
def Reads {α : Type} (read : ByteArray → Nat → Option (α × Nat)) (value : α)
    (part : ByteArray) : Prop :=
  ∀ before after : ByteArray, read (before ++ part ++ after) before.size =
    some (value, before.size + part.size)

/-! ## Numbers -/

theorem encodeNumber_succ (width n : Nat) :
    encodeNumber (width + 1) n = ⟨#[n.toUInt8]⟩ ++ encodeNumber width (n >>> 8) := by
  apply ByteArray.ext
  apply Array.toList_inj.1
  have hshift (i : Nat) : n >>> (8 * (i + 1)) = n >>> 8 >>> (8 * i) := by
    rw [← Nat.shiftRight_add]
    congr 1
    omega
  simp [encodeNumber, ByteArray.data_append, List.range_succ_eq_map, Function.comp_def, hshift]

theorem size_encodeNumber (width n : Nat) : (encodeNumber width n).size = width := by
  simp [encodeNumber, ByteArray.size]

theorem get!_append (before : ByteArray) (b : UInt8) (after : ByteArray) :
    (before ++ (⟨#[b]⟩ ++ after)).get! before.size = b := by
  have hget : (before ++ (⟨#[b]⟩ ++ after)).get! before.size =
      (before ++ (⟨#[b]⟩ ++ after)).data[before.data.size]! := rfl
  have hbound : before.data.size < (before.data ++ (#[b] ++ after.data)).size := by
    simp only [Array.size_append, List.size_toArray, List.length_singleton]
    omega
  rw [hget, ByteArray.data_append, ByteArray.data_append, getElem!_pos _ before.data.size hbound,
    Array.getElem_append_right (Nat.le_refl _)]
  simp

/-- A number that was written is read, as far as its bytes go. -/
theorem number_encodeNumber (before after : ByteArray) (width n : Nat) :
    Archive.number (before ++ encodeNumber width n ++ after) before.size width =
      n % 256 ^ width := by
  induction width generalizing before n with
  | zero => simp [Archive.number, Nat.mod_one]
  | succ width ih =>
    have hfirst : (before ++ encodeNumber (width + 1) n ++ after).get! before.size =
        n.toUInt8 := by
      rw [encodeNumber_succ, ByteArray.append_assoc, ByteArray.append_assoc]
      exact get!_append _ _ _
    have hsize : (before ++ ⟨#[n.toUInt8]⟩).size = before.size + 1 := by
      rw [ByteArray.size_append]
      rfl
    have hrest := ih (before ++ ⟨#[n.toUInt8]⟩) (n >>> 8)
    rw [hsize, ByteArray.append_assoc (a := before), ← encodeNumber_succ] at hrest
    have hdigits : n % 256 + 256 * ((n >>> 8) % 256 ^ width) = n % 256 ^ (width + 1) := by
      rw [Nat.shiftRight_eq_div_pow, Nat.pow_succ' (n := width), Nat.mod_mul]
    rw [Archive.number, hfirst, hrest]
    exact hdigits

/-- The numbers that a text or a value may be long. -/
def numberLimit : Nat := 256 ^ 8

theorem reads_decodeNumber {n : Nat} (hn : n < numberLimit) :
    Reads decodeNumber n (encodeNumber 8 n) := by
  intro before after
  have hsize : before.size + 8 ≤ (before ++ encodeNumber 8 n ++ after).size := by
    simp only [ByteArray.size_append, size_encodeNumber]
    omega
  have hvalue : n % 256 ^ 8 = n := Nat.mod_eq_of_lt hn
  rw [decodeNumber, if_pos hsize, number_encodeNumber, hvalue, size_encodeNumber]

/-! ## Texts -/

theorem reads_decodeText {s : String} (hs : s.utf8ByteSize < numberLimit) :
    Reads decodeText s (encodeText s) := by
  intro before after
  have htext : s.toUTF8.size = s.utf8ByteSize := rfl
  have hnumber := reads_decodeNumber hs before (s.toUTF8 ++ after)
  rw [← ByteArray.append_assoc, ByteArray.append_assoc (a := before), ← encodeText,
    size_encodeNumber] at hnumber
  have hfits : before.size + 8 + s.utf8ByteSize ≤ (before ++ encodeText s ++ after).size := by
    simp only [encodeText, ByteArray.size_append, size_encodeNumber, htext]
    omega
  have hextract : (before ++ encodeText s ++ after).extract (before.size + 8)
      (before.size + 8 + s.utf8ByteSize) = s.toUTF8 := by
    have hfront : before.size + 8 = (before ++ encodeNumber 8 s.utf8ByteSize).size + 0 := by
      rw [ByteArray.size_append, size_encodeNumber]
    rw [encodeText, ← ByteArray.append_assoc, ByteArray.append_assoc (c := after), hfront,
      Nat.add_zero]
    exact (ByteArray.extract_append_size_add (i := 0)).trans
      (ByteArray.extract_append_eq_left htext.symm)
  simp only [decodeText, hnumber, Option.bind_eq_bind, Option.bind_some, if_pos hfits, hextract]
  have hvalid : String.fromUTF8? s.toUTF8 = some s := dif_pos s.isValidUTF8
  rw [hvalid, Option.map_some, encodeText, ByteArray.size_append, size_encodeNumber, htext,
    Nat.add_assoc]

/-! ## Pairs and lists -/

theorem Reads.pair {β : Type} {decodeValue : ByteArray → Nat → Option (β × Nat)} {value : β}
    {part : ByteArray} (h : Reads decodeValue value part) {key : String}
    (hkey : key.utf8ByteSize < numberLimit) :
    Reads (fun data => decodePair data (decodeValue data)) (key, value)
      (encodeText key ++ part) := by
  intro before after
  have hfirst := reads_decodeText hkey before (part ++ after)
  have hsecond := h (before ++ encodeText key) after
  rw [ByteArray.append_assoc (a := before), ByteArray.size_append] at hsecond
  rw [← ByteArray.append_assoc, ByteArray.append_assoc (a := before)] at hfirst
  simp only [decodePair, hfirst, hsecond, Option.bind_eq_bind, Option.bind_some,
    ByteArray.size_append, Nat.add_assoc]

theorem foldl_append {α : Type} (f : α → ByteArray) (items : List α) (acc : ByteArray) :
    items.foldl (fun acc i => acc ++ f i) acc =
      acc ++ items.foldl (fun acc i => acc ++ f i) ByteArray.empty := by
  induction items generalizing acc with
  | nil => simp
  | cons i items ih =>
    rw [List.foldl_cons, List.foldl_cons, ih, ih (ByteArray.empty ++ f i)]
    simp [ByteArray.append_assoc]

theorem encodeList_nil {α : Type} (encodeItem : α → ByteArray) :
    encodeList encodeItem [] = ⟨#[0]⟩ := by
  simp [encodeList, encodeNumber]

theorem encodeList_cons {α : Type} (encodeItem : α → ByteArray) (i : α) (items : List α) :
    encodeList encodeItem (i :: items) =
      ⟨#[1]⟩ ++ (encodeItem i ++ encodeList encodeItem items) := by
  have hone : encodeNumber 1 1 = ⟨#[1]⟩ := by simp [encodeNumber]
  rw [encodeList, List.foldl_cons, foldl_append, encodeList, hone]
  simp only [ByteArray.append_assoc, ByteArray.empty_append]

theorem length_le_size_encodeList {α : Type} (encodeItem : α → ByteArray) (items : List α) :
    items.length < (encodeList encodeItem items).size := by
  induction items with
  | nil =>
    rw [encodeList_nil]
    exact Nat.one_pos
  | cons i items ih =>
    have hone : (⟨#[1]⟩ : ByteArray).size = 1 := rfl
    rw [encodeList_cons, ByteArray.size_append, ByteArray.size_append, List.length_cons, hone]
    omega

/-- The items are read one after the other : a one says that there is another. -/
theorem decodeItems_encodeList {α : Type} {decodeItem : ByteArray → Nat → Option (α × Nat)}
    {encodeItem : α → ByteArray} {items : List α}
    (h : ∀ i ∈ items, Reads decodeItem i (encodeItem i)) {fuel : Nat}
    (hfuel : items.length < fuel) (before after : ByteArray) :
    let data := before ++ encodeList encodeItem items ++ after
    decodeItems data (decodeItem data) fuel before.size =
      some (items, before.size + (encodeList encodeItem items).size) := by
  have hone (b : UInt8) : (⟨#[b]⟩ : ByteArray).size = 1 := rfl
  induction items generalizing before fuel with
  | nil =>
    obtain ⟨fuel, rfl⟩ := Nat.exists_eq_add_one.2 hfuel
    have hmore : ¬(before ++ ⟨#[0]⟩ ++ after).size ≤ before.size := by
      simp only [ByteArray.size_append, hone]
      omega
    have hzero : (before ++ ⟨#[0]⟩ ++ after).get! before.size = 0 := by
      rw [ByteArray.append_assoc]
      exact get!_append _ _ _
    simp only [encodeList_nil, decodeItems, if_neg hmore, if_pos hzero, hone]
  | cons i items ih =>
    obtain ⟨hfirst, hrest⟩ := List.forall_mem_cons.1 h
    obtain ⟨fuel, rfl⟩ := Nat.exists_eq_add_one.2 (Nat.zero_lt_of_lt hfuel)
    have hitem := hfirst (before ++ ⟨#[1]⟩) (encodeList encodeItem items ++ after)
    have hitems := ih hrest (Nat.lt_of_succ_lt_succ hfuel) (before ++ ⟨#[1]⟩ ++ encodeItem i)
    intro data
    have hdata : data =
        before ++ ⟨#[1]⟩ ++ encodeItem i ++ encodeList encodeItem items ++ after := by
      simp only [data, encodeList_cons, ByteArray.append_assoc]
    have hmore : ¬data.size ≤ before.size := by
      simp only [hdata, ByteArray.size_append, hone]
      omega
    have hnonzero : data.get! before.size ≠ 0 := by
      have hget : data.get! before.size = 1 := by
        simp only [hdata, ByteArray.append_assoc]
        exact get!_append _ _ _
      rw [hget]
      decide
    rw [← ByteArray.append_assoc, ← hdata, ByteArray.size_append, hone] at hitem
    simp only [← hdata, ByteArray.size_append, hone] at hitems
    rw [decodeItems, if_neg hmore, if_neg hnonzero]
    simp only [hitem, hitems, Option.bind_eq_bind, Option.bind_some]
    simp only [encodeList_cons, ByteArray.size_append, hone, Nat.add_assoc]

theorem reads_decodeList {α : Type} {decodeItem : ByteArray → Nat → Option (α × Nat)}
    {encodeItem : α → ByteArray} {items : List α}
    (h : ∀ i ∈ items, Reads decodeItem i (encodeItem i)) :
    Reads (fun data => decodeList data (decodeItem data)) items (encodeList encodeItem items) := by
  intro before after
  refine decodeItems_encodeList h ?_ before after
  have hlength := length_le_size_encodeList encodeItem items
  simp only [ByteArray.size_append]
  omega

/-! ## Files -/

/-- A database whose texts are not too long to be written, and whose space is what its writes have
left. -/
structure Writable (c : Stored) : Prop where
  writes : ∀ w ∈ c.writes, w.1.utf8ByteSize < numberLimit ∧ w.2 < numberLimit
  table : ∀ e ∈ c.table, e.1.utf8ByteSize < numberLimit ∧ e.2.utf8ByteSize < numberLimit
  space : Space.ofWrites c.writes = some c.space

theorem size_header : header.size = headerSize := by
  simp only [header, ByteArray.size_append, size_encodeNumber]
  rfl

/-- What the header says is read in it, whatever follows. -/
theorem number_header (after : ByteArray) :
    Archive.number (header ++ after) 10 2 = metaFlag ∧
      Archive.number (header ++ after) 16 4 = magic ∧
      Archive.number (header ++ after) 20 4 = formatVersion := by
  have hsizes : (encodeNumber 10 0).size = 10 ∧
      (encodeNumber 10 0 ++ encodeNumber 2 metaFlag ++ encodeNumber 4 0).size = 16 ∧
      (encodeNumber 10 0 ++ encodeNumber 2 metaFlag ++ encodeNumber 4 0 ++
        encodeNumber 4 magic).size = 20 := by
    simp only [ByteArray.size_append, size_encodeNumber, and_self]
  have hflag := number_encodeNumber (encodeNumber 10 0) (encodeNumber 4 0 ++ encodeNumber 4 magic ++
    encodeNumber 4 formatVersion ++ encodeNumber (headerSize - 24) 0 ++ after) 2 metaFlag
  have hmagic := number_encodeNumber (encodeNumber 10 0 ++ encodeNumber 2 metaFlag ++
    encodeNumber 4 0) (encodeNumber 4 formatVersion ++ encodeNumber (headerSize - 24) 0 ++ after)
    4 magic
  have hversion := number_encodeNumber (encodeNumber 10 0 ++ encodeNumber 2 metaFlag ++
    encodeNumber 4 0 ++ encodeNumber 4 magic) (encodeNumber (headerSize - 24) 0 ++ after) 4
    formatVersion
  rw [hsizes.1] at hflag
  rw [hsizes.2.1] at hmagic
  rw [hsizes.2.2] at hversion
  simp only [ByteArray.append_assoc] at hflag hmagic hversion
  simp only [header, ByteArray.append_assoc]
  exact ⟨hflag, hmagic, hversion⟩

/-- A file that was written for a database is read as that database. -/
theorem decode_encode {c : Stored} (hc : Writable c) : decode (encode c) = .ok c := by
  have hwrites : Reads _ c.writes _ := reads_decodeList fun w hw =>
    (reads_decodeNumber (hc.writes w hw).2).pair (hc.writes w hw).1
  have htable : Reads _ c.table _ := reads_decodeList fun e he =>
    (reads_decodeText (hc.table e he).2).pair (hc.table e he).1
  have hfirst := hwrites header (encodeList (fun e => encodeText e.1 ++ encodeText e.2) c.table)
  have hsecond := htable (header ++
    encodeList (fun w => encodeText w.1 ++ encodeNumber 8 w.2) c.writes) ByteArray.empty
  rw [← encode, size_header] at hfirst
  rw [← encode, ByteArray.append_empty, ByteArray.size_append, size_header] at hsecond
  have hsize : headerSize +
      (encodeList (fun w => encodeText w.1 ++ encodeNumber 8 w.2) c.writes).size +
      (encodeList (fun e => encodeText e.1 ++ encodeText e.2) c.table).size =
        (encode c).size := by
    simp only [encode, ByteArray.size_append, size_header]
  have hbody : decodeBody (encode c) = some c := by
    simp only [decodeBody, hfirst, hsecond, hc.space, Option.bind_eq_bind, Option.bind_some, hsize,
      if_true]
  have hlong : headerSize ≤ (encode c).size := by
    simp only [encode, ByteArray.size_append, size_header]
    omega
  have hpositive : 0 < headerSize := by decide
  obtain ⟨hflag, hmagic, hversion⟩ := number_header
    (encodeList (fun w => encodeText w.1 ++ encodeNumber 8 w.2) c.writes ++
      encodeList (fun e => encodeText e.1 ++ encodeText e.2) c.table)
  rw [← ByteArray.append_assoc, ← encode] at hflag hmagic hversion
  have hvalid : ¬((encode c).size < headerSize ∨
      Archive.number (encode c) 10 2 &&& metaFlag = 0 ∨
      Archive.number (encode c) 16 4 ≠ magic) := by
    rw [hflag, hmagic]
    simp only [not_or, Nat.not_lt, hlong, true_and]
    decide
  rw [decode, if_neg (by omega), if_neg hvalid, if_neg (by rw [hversion]; decide), hbody]

end ClassViewer.Database
