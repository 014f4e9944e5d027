import ClassViewer.Disk.Basic
import ClassViewer.Proofs.Text

/-!
# Laws of paths

A path that is joined to another has the steps of both (`steps_join`), and a path without its last
component lies on the way to it (`onTheWay_parent?`). Whatever lies on the way to a path that was
joined to a root without climbing is on the way to the root, or lies within it
(`OnTheWay.above_or_within`).
-/

namespace ClassViewer

namespace Text

/-- The first pieces, joined, are a beginning of all pieces joined. -/
theorem join_take_isPrefix (sep : String) (parts : List String) (n : Nat) :
    (join sep (parts.take n)).toList <+: (join sep parts).toList := by
  have hjoin : ∀ front back : List String,
      (join sep front).toList <+: (join sep (front ++ back)).toList := by
    intro front back
    induction back generalizing front with
    | nil => simp
    | cons b back ih =>
      have hstep := ih (front ++ [b])
      rw [List.append_assoc, List.singleton_append] at hstep
      refine List.IsPrefix.trans ?_ hstep
      by_cases hne : front = []
      · subst hne
        exact List.nil_prefix
      · rw [join_concat hne, String.append_assoc, String.toList_append]
        exact List.prefix_append _ _
  have htake := hjoin (parts.take n) (parts.drop n)
  rwa [List.take_append_drop] at htake

/-- Dropping a leading separator drops empty pieces. -/
theorem mem_split_dropLeading {sep : Char} {s piece : String} (hne : piece ≠ "") :
    piece ∈ split sep (dropLeading sep s) ↔ piece ∈ split sep s := by
  have hpieces : ∀ cs : List Char, ∀ p : List Char, p ≠ [] →
      (p ∈ pieces sep (cs.dropWhile (· == sep)) ↔ p ∈ pieces sep cs) := by
    intro cs p hp
    induction cs with
    | nil => rfl
    | cons c cs ih =>
      by_cases hc : c = sep
      · subst hc
        rw [List.dropWhile_cons_of_pos (by simp), ih, pieces_cons_sep, List.mem_cons]
        exact ⟨.inr, fun h => h.resolve_left hp⟩
      · rw [List.dropWhile_cons_of_neg (by simpa using hc)]
  have hmem : ∀ t : String, piece ∈ split sep t ↔ piece.toList ∈ pieces sep t.toList := by
    intro t
    rw [split, List.mem_map]
    constructor
    · rintro ⟨p, hp, rfl⟩
      simpa using hp
    · intro hp
      exact ⟨piece.toList, hp, by simp⟩
  rw [hmem, hmem, toList_dropLeading]
  refine hpieces s.toList piece.toList fun hnil => hne ?_
  exact String.toList_injective (by simpa using hnil)

/-- The pieces before the last one stay when text is appended. -/
theorem mem_split_append {sep : Char} {s piece : String} (h : piece ∈ (split sep s).dropLast)
    (t : String) : piece ∈ split sep (s ++ t) := by
  obtain ⟨last, hlast⟩ : ∃ last, split sep s = (split sep s).dropLast ++ [last] :=
    ⟨_, (List.dropLast_concat_getLast (split_ne_nil sep s)).symm⟩
  have hfront : (split sep s).dropLast ≠ [] := List.ne_nil_of_mem h
  have hs : s = join (String.singleton sep) (split sep s).dropLast ++ String.singleton sep ++
      last := by
    rw [← join_concat hfront, ← hlast, join_split]
  have hsplit := split_append_sep sep (join (String.singleton sep) (split sep s).dropLast)
    (last ++ t)
  rw [← String.append_assoc, ← hs, split_join hfront fun p hp =>
    not_mem_of_mem_split ((List.dropLast_sublist _).mem hp)] at hsplit
  rw [hsplit]
  exact List.mem_append_left _ h

end Text

namespace Path

open Disk (steps)

variable {p q root inner : Path}

/-! ## Steps -/

/-- The steps of a path that lead anywhere : its segments but for the empty ones and the dots. -/
def trail (p : Path) : List String := (Text.split '/' p.text).filter fun s => s != "" && s != "."

theorem trail_eq (p : Path) : p.trail = (steps p.text).filter (· != ".") := by
  simp only [trail, steps, List.filter_filter, Bool.and_comm]

theorem steps_append_slash (s t : String) : steps (s ++ "/" ++ t) = steps s ++ steps t := by
  rw [steps, Text.split_slash, List.filter_append, steps, steps]

/-- A path joined to another has the steps of both. -/
theorem steps_join (h : inner.isAbsolute = false) :
    steps (root.join inner).text = steps root.text ++ steps inner.text := by
  unfold join
  by_cases hempty : root.text = ""
  · rw [if_pos (.inr hempty), hempty]
    rfl
  · rw [if_neg (by simp [h, hempty])]
    split
    · rename_i hslash
      obtain ⟨r, hr⟩ := Text.endsWith_iff.1 hslash
      have hroot : steps root.text = steps r := by
        have happend := steps_append_slash r ""
        rw [String.append_empty, ← hr] at happend
        rw [happend]
        exact List.append_nil _
      rw [hroot, hr]
      exact steps_append_slash r inner.text
    · exact steps_append_slash root.text inner.text

theorem isAbsolute_join (h : inner.isAbsolute = false) :
    (root.join inner).isAbsolute = root.isAbsolute := by
  unfold join
  by_cases hempty : root.text = ""
  · rw [if_pos (.inr hempty), h, isAbsolute, hempty]
    rfl
  · rw [if_neg (by simp [h, hempty])]
    obtain ⟨c, cs, hcs⟩ : ∃ c cs, root.text.toList = c :: cs := by
      cases hl : root.text.toList with
      | nil => exact absurd (String.toList_injective (by simpa using hl)) hempty
      | cons c cs => exact ⟨c, cs, rfl⟩
    split
    · simp [isAbsolute, String.toList_append, hcs]
    · simp [isAbsolute, String.toList_append, hcs]

theorem join_text_ne_empty (h : q.text ≠ "") (p : Path) : (p.join q).text ≠ "" := by
  unfold join
  split
  · exact h
  · split
    · simp [h]
    · simp

/-! ## On the way -/

/-- `q` is passed on the way to `p`. -/
structure OnTheWay (q p : Path) : Prop where
  start : q.isAbsolute = p.isAbsolute
  along : steps q.text <+: steps p.text

theorem OnTheWay.trans {r : Path} (h : r.OnTheWay q) (h' : q.OnTheWay p) : r.OnTheWay p :=
  ⟨h.start.trans h'.start, h.along.trans h'.along⟩

theorem isAbsolute_of_isPrefix (h : q.text.toList <+: p.text.toList) (hne : q.text ≠ "") :
    q.isAbsolute = p.isAbsolute := by
  obtain ⟨rest, hrest⟩ := h
  unfold isAbsolute
  rw [← hrest]
  cases hq : q.text.toList with
  | nil => exact absurd (String.toList_injective (by simpa using hq)) hne
  | cons c cs => rfl

theorem steps_upTo (p : Path) (i : Nat) :
    steps (p.upTo i).text = ((Text.split '/' p.text).take (i + 1)).filter (· != "") := by
  have hne : (Text.split '/' p.text).take (i + 1) ≠ [] := by
    simp [Text.split_ne_nil]
  have hsplit : Text.split '/' (p.upTo i).text = (Text.split '/' p.text).take (i + 1) :=
    Text.split_join hne fun s hs => Text.not_mem_of_mem_split (List.mem_of_mem_take hs)
  rw [steps, hsplit]

/-- A segment that counts is not empty, and a path up to it is not either. -/
theorem steps_upTo_ne_nil {seg : String × Nat} (h : seg ∈ p.segments.filter isSignificant) :
    steps (p.upTo seg.2).text ≠ [] := by
  obtain ⟨hmem, hsig⟩ := List.mem_filter.1 h
  have hget : (Text.split '/' p.text)[seg.2]? = some seg.1 := List.mem_zipIdx_iff_getElem?.1 hmem
  rw [steps_upTo]
  refine List.ne_nil_of_mem (a := seg.1) (List.mem_filter.2 ⟨?_, ?_⟩)
  · refine List.mem_of_getElem? (i := seg.2) ?_
    rw [List.getElem?_take_of_lt (Nat.lt_succ_self _), hget]
  · unfold isSignificant at hsig
    exact (Bool.and_eq_true_iff.1 hsig).1

/-- A path without its last component is passed on the way to it. -/
theorem onTheWay_parent? (h : p.parent? = some q) : q.OnTheWay p := by
  unfold parent? at h
  split at h
  · cases h
  · obtain rfl := Option.some.inj h
    cases habs : p.isAbsolute with
    | true => exact ⟨habs.symm, List.nil_prefix⟩
    | false => exact ⟨habs.symm, List.nil_prefix⟩
  · rename_i last before front hrev
    obtain rfl := Option.some.inj h
    have hmem : before ∈ p.segments.filter isSignificant := by
      rw [← List.mem_reverse, hrev]
      simp
    refine ⟨isAbsolute_of_isPrefix ?_ ?_, ?_⟩
    · have hprefix := Text.join_take_isPrefix "/" (Text.split '/' p.text) (before.2 + 1)
      rwa [show Text.join "/" (Text.split '/' p.text) = p.text from Text.join_split '/' _]
        at hprefix
    · intro hempty
      refine steps_upTo_ne_nil hmem ?_
      rw [hempty]
      rfl
    · rw [steps_upTo]
      exact (List.take_prefix _ _).filter _

/-! ## Within -/

/-- By its spelling, `q` is `root` or lies below it. -/
structure Within (root q : Path) : Prop where
  start : q.isAbsolute = root.isAbsolute
  below : ∃ rest, q.trail = root.trail ++ rest ∧ ".." ∉ rest

/-- What lies on the way to a path that was joined to a root without climbing is on the way to the
root, or lies within it. -/
theorem OnTheWay.above_or_within (hrel : inner.isAbsolute = false)
    (hdots : ".." ∉ steps inner.text) (h : q.OnTheWay (root.join inner)) :
    q.OnTheWay root ∨ root.Within q := by
  have hstart := h.start.trans (isAbsolute_join hrel)
  have hsteps := h.along
  rw [steps_join hrel] at hsteps
  rcases List.prefix_or_prefix_of_prefix hsteps (List.prefix_append _ _) with habove | hbelow
  · exact .inl ⟨hstart, habove⟩
  · obtain ⟨rest, hrest⟩ := hbelow
    rw [← hrest] at hsteps
    have hinner := (List.prefix_append_right_inj _).1 hsteps
    refine .inr ⟨hstart, rest.filter (· != "."), ?_, ?_⟩
    · rw [trail_eq, trail_eq, ← hrest, List.filter_append]
    · exact fun hmem => hdots (hinner.mem (List.mem_filter.1 hmem).1)

theorem within_join (hrel : inner.isAbsolute = false) (hdots : ".." ∉ steps inner.text) :
    root.Within (root.join inner) := by
  refine ⟨isAbsolute_join hrel, (steps inner.text).filter (· != "."), ?_, ?_⟩
  · rw [trail_eq, trail_eq, steps_join hrel, List.filter_append]
  · exact fun hmem => hdots (List.mem_filter.1 hmem).1

/-! ## Components -/

/-- Whether any component climbs can be seen from the segments. -/
theorem parent_mem_components (h : p.isAbsolute = false) :
    Component.parent ∈ p.components ↔ ".." ∈ Text.split '/' p.text := by
  have hparent : ∀ s, Component.ofSegment s = .parent ↔ s = ".." := by
    intro s
    unfold Component.ofSegment
    split
    · simp_all
    · split <;> simp_all
  simp only [components, h, List.mem_append, List.mem_map, hparent]
  constructor
  · rintro (hroot | ⟨seg, hseg, hdots⟩)
    · simp at hroot
    · have hget : (Text.split '/' p.text)[seg.2]? = some seg.1 :=
        List.mem_zipIdx_iff_getElem?.1 (List.mem_filter.1 hseg).1
      rw [hdots] at hget
      exact List.mem_of_getElem? hget
  · intro hmem
    obtain ⟨i, hi⟩ := List.mem_iff_getElem?.1 hmem
    exact .inr ⟨("..", i), List.mem_filter.2 ⟨List.mem_zipIdx_iff_getElem?.2 hi, rfl⟩, rfl⟩

theorem root_not_mem_components (h : p.isAbsolute = false) : Component.root ∉ p.components := by
  have hroot : ∀ s, Component.ofSegment s ≠ .root := by
    intro s
    unfold Component.ofSegment
    split
    · simp
    · split <;> simp
  simp only [components, h, List.mem_append, List.mem_map, not_or, not_exists, not_and]
  exact ⟨by simp, fun seg _ => hroot seg.1⟩

end Path

end ClassViewer
