import ClassViewer.Proofs.Lines.Mapping
import ClassViewer.Proofs.Lines.Targets

/-!
# Realigning twice

A text is left as it is exactly if none of its lines is mapped beyond itself
(`realign_eq_self_iff`) : one line that is pushed pushes all lines behind it, so the text would get
longer. The lines of a realigned text are not mapped beyond themselves by the mapping of each line
to itself, nor by the mapping that was used with its keys moved to where the lines stand now
(`LineMapping.rekeyed`). So a second pass with either of them changes nothing
(`second_pass_changes_nothing`).
-/

namespace ClassViewer

namespace LineMapping

/-- Each of the first `n` lines mapped to itself, as far as lines have numbers. -/
def identity (n : Nat) : LineMapping :=
  ofPairs ((List.range' 1 (min n LineNumber.max.toNat)).map fun i =>
    (UInt32.ofNat i, UInt32.ofNat i))

/-- The number of the line where line `k` of a text of `n` lines stands once the text is realigned,
if there is such a number. -/
def newKey? (m : LineMapping) (n : Nat) (k : LineNumber) : Option LineNumber :=
  if k.toNat ≤ n ∧ m.landing k.toNat < 0x100000000 then some (UInt32.ofNat (m.landing k.toNat))
  else none

variable {m : LineMapping}

theorem target?_eq_some_iff {j t : Nat} : m.target? j = some t ↔
    ∃ d s : LineNumber, d.toNat = j ∧ s.toNat = t ∧ m.get? d = some s := by
  unfold target?
  split
  · rename_i hj
    rw [Option.map_eq_some_iff]
    constructor
    · rintro ⟨s, hs, rfl⟩
      exact ⟨UInt32.ofNat j, s, UInt32.toNat_ofNat_of_lt' hj, rfl, hs⟩
    · rintro ⟨d, s, rfl, rfl, hs⟩
      rw [UInt32.ofNat_toNat]
      exact ⟨s, hs, rfl⟩
  · rename_i hj
    refine ⟨fun h => (Option.some_ne_none t h.symm).elim, ?_⟩
    rintro ⟨d, s, rfl, -, -⟩
    exact absurd d.toNat_lt hj

/-- A line that is mapped to itself is mapped to nothing else. -/
theorem target?_identity {n k t : Nat} (h : (identity n).target? k = some t) : t = k := by
  obtain ⟨d, s, rfl, rfl, hget⟩ := target?_eq_some_iff.1 h
  rw [identity, get?_ofPairs] at hget
  obtain ⟨i, -, hi⟩ := List.mem_map.1 (mem_of_lastSource hget)
  obtain ⟨rfl, rfl⟩ := Prod.mk.inj hi
  rfl

theorem newKey?_eq_some_iff {n : Nat} {k d : LineNumber} :
    m.newKey? n k = some d ↔ k.toNat ≤ n ∧ m.landing k.toNat = d.toNat := by
  unfold newKey?
  constructor
  · intro h
    obtain ⟨⟨hk, hlt⟩, hd⟩ := Option.ite_some_none_eq_some.1 h
    rw [← hd, UInt32.toNat_ofNat_of_lt' hlt]
    exact ⟨hk, rfl⟩
  · rintro ⟨hk, hd⟩
    rw [if_pos ⟨hk, hd ▸ d.toNat_lt⟩, hd, UInt32.ofNat_toNat]

/-- The entries for the lines of a text of `n` lines, each moved to where its line stands once the
text is realigned. -/
def rekeyed (m : LineMapping) (n : Nat) : LineMapping where
  entries := m.entries.filterMap fun e => (m.newKey? n e.1).map (·, e.2)
  ascending := by
    refine List.pairwise_filterMap.2 (m.ascending.imp fun {e e'} hlt f hf f' hf' => ?_)
    obtain ⟨d, hd, rfl⟩ := Option.map_eq_some_iff.1 hf
    obtain ⟨d', hd', rfl⟩ := Option.map_eq_some_iff.1 hf'
    have hland := m.strictMono_landing (UInt32.lt_iff_toNat_lt.1 hlt)
    rw [(newKey?_eq_some_iff.1 hd).2, (newKey?_eq_some_iff.1 hd').2] at hland
    exact UInt32.lt_iff_toNat_lt.2 hland
  known := by
    intro f hf
    obtain ⟨e, he, hnew⟩ := List.mem_filterMap.1 hf
    obtain ⟨d, hd, rfl⟩ := Option.map_eq_some_iff.1 hnew
    obtain ⟨hkey, hsource⟩ := m.known e he
    have hle := m.le_landing e.1.toNat
    rw [(newKey?_eq_some_iff.1 hd).2] at hle
    exact ⟨UInt32.lt_iff_toNat_lt.2 (Nat.lt_of_lt_of_le (UInt32.lt_iff_toNat_lt.1 hkey) hle),
      hsource⟩

/-- No two lines are given the same new number. -/
theorem newKey?_unique {n : Nat} {k d : LineNumber} (hk : m.newKey? n k = some d) :
    ∀ k', m.newKey? n k' = some d → k' = k := by
  intro k' hk'
  rw [newKey?_eq_some_iff] at hk hk'
  exact UInt32.toNat_inj.1 (m.strictMono_landing.injective (hk'.2.trans hk.2.symm))

/-- The moved entries map a line as the line was mapped that stands there now. -/
theorem target?_rekeyed {n p t : Nat} (hp : 0 < p) : (m.rekeyed n).target? p = some t ↔
    p < 0x100000000 ∧ ∃ k, m.Maps n k t ∧ m.landing k = p := by
  rw [target?_eq_some_iff]
  constructor
  · rintro ⟨d, s, rfl, rfl, hget⟩
    refine ⟨d.toNat_lt, ?_⟩
    by_cases hkey : ∃ k, m.newKey? n k = some d
    · obtain ⟨k, hk⟩ := hkey
      rw [get?, rekeyed, lookup_filterMap_of_unique hk (newKey?_unique hk)] at hget
      obtain ⟨hkn, hland⟩ := newKey?_eq_some_iff.1 hk
      refine ⟨k.toNat, ⟨?_, hkn, target?_eq_some_iff.2 ⟨k, s, rfl, rfl, hget⟩⟩, hland⟩
      refine Nat.pos_of_ne_zero fun hzero => ?_
      rw [hzero, landing_zero] at hland
      omega
    · have hnone : ∀ k, m.newKey? n k ≠ some d := fun k hk => hkey ⟨k, hk⟩
      rw [get?, rekeyed, lookup_filterMap_of_forall_ne hnone] at hget
      cases hget
  · rintro ⟨hlt, k, ⟨-, hkn, htarget⟩, rfl⟩
    obtain ⟨d, s, rfl, rfl, hget⟩ := target?_eq_some_iff.1 htarget
    have hkey : m.newKey? n d = some (UInt32.ofNat (m.landing d.toNat)) := if_pos ⟨hkn, hlt⟩
    refine ⟨_, s, UInt32.toNat_ofNat_of_lt' hlt, rfl, ?_⟩
    rw [get?, rekeyed, lookup_filterMap_of_unique hkey (newKey?_unique hkey)]
    exact hget

/-- Lines that are not mapped beyond themselves land where they are. -/
theorem landing_eq_self {n : Nat} (h : ∀ k t, m.Maps n k t → t ≤ k) {i : Nat} (hi : i ≤ n) :
    m.landing i = i := by
  refine Nat.le_antisymm ?_ (m.le_landing i)
  rcases (m.isGreatest_landing i).1 with hown | ⟨j, t, hpos, hji, htarget, hpushed⟩
  · omega
  · have hle := h j t ⟨hpos, hji.trans hi, htarget⟩
    omega

end LineMapping

/-- A text is left as it is exactly if no line of it is mapped beyond itself. -/
theorem realign_eq_self_iff (m : LineMapping) (text : String) :
    realign text m = text ↔ ∀ k t, m.Maps (lineCount text) k t → t ≤ k := by
  have hlands := lines_land_on_targets m text
  constructor
  · intro h k t hk
    have hsize : lineCount text = m.landing (lineCount text) := by
      have hlength := hlands.size
      rwa [h] at hlength
    -- A line that is pushed pushes the last line as far.
    have hapart := m.landing_add_le k (lineCount text - k)
    have hle := hk.2.1
    have htarget := hk.le_landing
    rw [Nat.add_sub_cancel' hle] at hapart
    omega
  · intro h
    have hself : ∀ {i}, i ≤ lineCount text → m.landing i = i := LineMapping.landing_eq_self h
    have hlength : (Text.newlineSplit (realign text m)).length = lineCount text := by
      rw [hlands.size]
      exact hself (Nat.le_refl _)
    refine eq_of_newlineSplit_eq (List.ext_getElem? fun i => ?_)
    by_cases hi : i < lineCount text
    · have hline := hlands.line hi
      rw [hself hi] at hline
      exact hline
    · rw [List.getElem?_eq_none (by omega), List.getElem?_eq_none (Nat.le_of_not_lt hi)]

/-- A text is left as it is exactly if no line of it is mapped beyond itself. A realigned text is
left as it is if it is realigned again with every line mapped to itself, and if it is realigned
again with the entries that were used moved to where their lines stand. -/
theorem second_pass_changes_nothing (m : LineMapping) (text : String) :
    (realign text m = text ↔ ∀ k t, m.Maps (lineCount text) k t → t ≤ k) ∧
    realign (realign text m) (.identity (lineCount (realign text m))) = realign text m ∧
    (∀ p t, 0 < p → ((m.rekeyed (lineCount text)).target? p = some t ↔
      p < 0x100000000 ∧ ∃ k, m.Maps (lineCount text) k t ∧ StandsAt m text k p)) ∧
    realign (realign text m) (m.rekeyed (lineCount text)) = realign text m := by
  refine ⟨realign_eq_self_iff m text, ?_, fun p t hp => ?_, ?_⟩
  · rw [realign_eq_self_iff]
    intro k t hk
    exact Nat.le_of_eq (LineMapping.target?_identity hk.2.2)
  · rw [LineMapping.target?_rekeyed hp]
    refine and_congr_right fun _ => exists_congr fun k => and_congr_right fun hk => ?_
    rw [standsAt_iff hk.1 hk.2.1, eq_comm]
  · rw [realign_eq_self_iff]
    intro p t hp
    obtain ⟨-, k, hk, rfl⟩ := (LineMapping.target?_rekeyed hp.1).1 hp.2.2
    exact hk.le_landing

end ClassViewer
