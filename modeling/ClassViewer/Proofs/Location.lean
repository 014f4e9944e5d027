import ClassViewer.Naming
import ClassViewer.Proofs.Text

/-!
# Locations as text

A location is read from a text at the last separator of archives in it, and shown with one. A text
is cut at the last occurrence of two characters exactly if these do not occur behind the cut
(`Text.splitAtLastPair?_eq_some_iff`), so that what is read is told by the text alone
(`Location.Reads`). Reading undoes showing for every location that has a plain text of its own, and
for no other (`Location.parse_display_iff`); what introduces an address is taken off once.
`Location.display_read_back` puts this together.
-/

namespace ClassViewer

namespace Text

variable {a b : Char}

/-! ## The last pair -/

/-- The two characters stand next to each other in the text. -/
def HoldsPair (a b : Char) (s : String) : Prop := [a, b] <:+: s.toList

/-- The two characters as a text. -/
def pair (a b : Char) : String := String.ofList [a, b]

theorem holdsPair_append_pair (front back : String) :
    HoldsPair a b (front ++ pair a b ++ back) :=
  ⟨front.toList, back.toList, by simp [pair, String.toList_append]⟩

/-- What is cut off behind a pair holds no other, where none reaches from the text that is left into
the text behind. -/
theorem cutAtLastPair_spec (rs tail : List Char) (h : ¬[a, b] <:+: rs.head?.toList ++ tail) :
    (cutAtLastPair a b rs tail = none ∧ ¬[a, b] <:+: rs.reverse ++ tail) ∨
      ∃ front back, cutAtLastPair a b rs tail = some (front, back) ∧
        rs.reverse ++ tail = front ++ a :: b :: back ∧ ¬[a, b] <:+: back := by
  fun_induction cutAtLastPair a b rs tail with
  | case1 y x rest tail hpair =>
    obtain ⟨rfl, rfl⟩ := hpair
    refine .inr ⟨_, _, rfl, by simp, fun hc => h ?_⟩
    exact hc.trans (List.suffix_cons _ _).isInfix
  | case2 y x rest tail hpair ih =>
    have hnext : ¬[a, b] <:+: (x :: rest).head?.toList ++ y :: tail := by
      intro hc
      rcases List.infix_cons_iff.1 hc with hc | hc
      · obtain ⟨hx, hc⟩ := List.cons_prefix_cons.1 hc
        obtain ⟨hy, -⟩ := List.cons_prefix_cons.1 hc
        exact hpair ⟨hx.symm, hy.symm⟩
      · exact h hc
    simpa using ih hnext
  | case3 rs tail hshort =>
    refine .inl ⟨rfl, ?_⟩
    match rs, hshort with
    | [], _ => exact h
    | [y], _ => exact h
    | y :: x :: rest, hshort => exact absurd rfl (hshort y x rest)

/-- There is one way at most to cut a list at a pair with none behind. -/
theorem eq_of_append_pair {front front' back back' : List Char} (hne : a ≠ b)
    (h : front ++ a :: b :: back = front' ++ a :: b :: back') (hb : ¬[a, b] <:+: back)
    (hb' : ¬[a, b] <:+: back') : front = front' ∧ back = back' := by
  -- the longer front would reach over the pair of the shorter one, or end inside of it
  have hshort : ∀ {front front' back back' : List Char} (_ : ¬[a, b] <:+: back) {c : List Char},
      front' = front ++ c → a :: b :: back = c ++ a :: b :: back' → c = [] := by
    intro front front' back back' hb c _ hc
    match c, hc with
    | [], _ => rfl
    | [x], hc =>
      simp only [List.cons_append, List.nil_append, List.cons.injEq] at hc
      exact absurd hc.2.1.symm hne
    | x :: y :: c, hc =>
      simp only [List.cons_append, List.cons.injEq] at hc
      exact absurd ⟨c, back', by simp [hc.2.2]⟩ hb
  rcases List.append_eq_append_iff.1 h with ⟨c, hf, hc⟩ | ⟨c, hf, hc⟩
  · obtain rfl := hshort hb hf hc
    simp_all
  · obtain rfl := hshort hb' hf hc
    simp_all

theorem splitAtLastPair?_spec (a b : Char) (s : String) :
    (splitAtLastPair? a b s = none ∧ ¬HoldsPair a b s) ∨
      ∃ front back, splitAtLastPair? a b s = some (front, back) ∧
        s = front ++ pair a b ++ back ∧ ¬HoldsPair a b back := by
  have hstart : ¬[a, b] <:+: s.toList.reverse.head?.toList ++ [] := by
    cases s.toList.reverse with
    | nil => simp
    | cons c cs => simp [List.infix_cons_iff]
  rcases cutAtLastPair_spec _ _ hstart with ⟨hnone, hs⟩ | ⟨front, back, hsome, hs, hback⟩
  · exact .inl ⟨by rw [splitAtLastPair?, hnone]; rfl, by simpa [HoldsPair] using hs⟩
  · refine .inr ⟨String.ofList front, String.ofList back, by rw [splitAtLastPair?, hsome]; rfl, ?_,
      by simpa [HoldsPair] using hback⟩
    apply String.toList_injective
    simpa [pair, String.toList_append] using hs

/-- A text is left whole exactly if the pair does not occur in it. -/
theorem splitAtLastPair?_eq_none_iff {s : String} :
    splitAtLastPair? a b s = none ↔ ¬HoldsPair a b s := by
  rcases splitAtLastPair?_spec a b s with ⟨hnone, hs⟩ | ⟨front, back, hsome, rfl, -⟩
  · exact ⟨fun _ => hs, fun _ => hnone⟩
  · rw [hsome]
    exact ⟨nofun, fun h => absurd (holdsPair_append_pair front back) h⟩

/-- A text is cut at a pair of different characters exactly if it does not occur behind. -/
theorem splitAtLastPair?_eq_some_iff (hne : a ≠ b) {s front back : String} :
    splitAtLastPair? a b s = some (front, back) ↔
      s = front ++ pair a b ++ back ∧ ¬HoldsPair a b back := by
  rcases splitAtLastPair?_spec a b s with ⟨hnone, hs⟩ | ⟨front', back', hsome, rfl, hback'⟩
  · rw [hnone]
    refine ⟨nofun, ?_⟩
    rintro ⟨rfl, -⟩
    exact absurd (holdsPair_append_pair front back) hs
  · rw [hsome]
    constructor
    · rintro ⟨⟩
      exact ⟨rfl, hback'⟩
    · rintro ⟨h, hback⟩
      have hl := congrArg String.toList h
      simp only [pair, String.toList_append, String.toList_ofList, List.append_assoc,
        List.cons_append, List.nil_append] at hl
      obtain ⟨hf, hb⟩ := eq_of_append_pair hne hl hback' hback
      rw [String.toList_injective hf, String.toList_injective hb]

theorem HoldsPair.of_dropLeading {c : Char} {s : String} (h : HoldsPair a b (dropLeading c s)) :
    HoldsPair a b s := by
  rw [HoldsPair, toList_dropLeading] at h
  exact h.trans (List.dropWhile_suffix _).isInfix

end Text

namespace Location

/-! ## What is read -/

/-- What stands between the archive and the member. -/
def separator : String := Text.pair '!' '/'

/-- The text has a separator of archives in it. -/
def HoldsSeparator (s : String) : Prop := Text.HoldsPair '!' '/' s

/-- What of a text names the location : all but the head of an address. -/
def body (raw : String) : String := (Text.dropHead? addressHead raw).getD raw

/-- The archive that is named by the text before the separator. -/
def archiveNamed (front : String) : Option Path := if front = "" then none else some ⟨front⟩

theorem body_address (s : String) : body (addressHead ++ s) = s := by
  simp [body, Text.dropHead?_append]

theorem body_eq_self {s : String} (h : Text.startsWith addressHead s = false) : body s = s := by
  simp [body, Text.dropHead?_eq_none_iff.2 h]

theorem length_body_lt {s : String} (h : Text.startsWith addressHead s = true) :
    (body s).toList.length < s.toList.length := by
  obtain ⟨r, rfl⟩ := Text.startsWith_iff.1 h
  have hhead : 0 < addressHead.toList.length := by decide
  rw [body_address, String.toList_append, List.length_append]
  omega

theorem archiveNamed_injective {front front' : String}
    (h : archiveNamed front = archiveNamed front') : front = front' := by
  unfold archiveNamed at h
  split at h <;> split at h <;> simp_all

theorem archiveNamed_eq_some_iff {front : String} {a : Path} :
    archiveNamed front = some a ↔ front = a.text ∧ front ≠ "" := by
  unfold archiveNamed
  split
  · simp [*]
  · constructor
    · rintro ⟨⟩
      exact ⟨rfl, ‹_›⟩
    · rintro ⟨rfl, -⟩
      rfl

/-- The location is what the text says : a file where no separator occurs, and otherwise what stands
before and behind the last one. -/
inductive Reads (s : String) : Location → Prop where
  | file (h : ¬HoldsSeparator s) : Reads s (.file ⟨s⟩)
  | archived (front behind : String) (hs : s = front ++ separator ++ behind)
      (h : ¬HoldsSeparator behind) :
      Reads s (.archived (archiveNamed front) (Text.dropLeading '/' behind))

theorem reads_parse (raw : String) : Reads (body raw) (parse raw) := by
  cases hs : Text.splitAtLastPair? '!' '/' (body raw) with
  | none =>
    have hparse : parse raw = .file ⟨body raw⟩ := by
      unfold body at hs
      simp only [parse, hs, body]
    rw [hparse]
    exact .file (Text.splitAtLastPair?_eq_none_iff.1 hs)
  | some cut =>
    have hparse : parse raw = .archived (archiveNamed cut.1) (Text.dropLeading '/' cut.2) := by
      unfold body at hs
      simp only [parse, hs, archiveNamed]
    obtain ⟨hbody, hbehind⟩ := (Text.splitAtLastPair?_eq_some_iff (by decide)).1 hs
    rw [hparse]
    exact .archived cut.1 cut.2 hbody hbehind

theorem Reads.exists_cut {s entry : String} {archive : Option Path}
    (h : Reads s (.archived archive entry)) :
    ∃ front behind, s = front ++ separator ++ behind ∧ archiveNamed front = archive := by
  generalize hl : Location.archived archive entry = l at h
  cases h with
  | file => cases hl
  | archived front behind hcut => exact ⟨front, behind, hcut, (Location.archived.inj hl).1.symm⟩

/-- A text says one location only. -/
theorem Reads.unique {s : String} {l l' : Location} (h : Reads s l) (h' : Reads s l') : l = l' := by
  cases h with
  | file hs =>
    cases h' with
    | file => rfl
    | archived front behind hcut => exact absurd (hcut ▸ Text.holdsPair_append_pair front behind) hs
  | archived front behind hcut hbehind =>
    cases h' with
    | file hs => exact absurd (hcut ▸ Text.holdsPair_append_pair front behind) hs
    | archived front' behind' hcut' hbehind' =>
      have hsplit := (Text.splitAtLastPair?_eq_some_iff (by decide)).2 ⟨hcut, hbehind⟩
      have hsplit' := (Text.splitAtLastPair?_eq_some_iff (by decide)).2 ⟨hcut', hbehind'⟩
      rw [hsplit] at hsplit'
      cases hsplit'
      rfl

theorem parse_eq_iff {raw : String} {l : Location} : parse raw = l ↔ Reads (body raw) l :=
  ⟨fun h => h ▸ reads_parse raw, fun h => (reads_parse raw).unique h⟩

/-! ## What is shown -/

/-- The location has a text of its own : a file without a separator in its path, or a member of a
known archive whose name does not begin with a slash and has no separator in it. -/
def IsPlain : Location → Prop
  | file path => ¬HoldsSeparator path.text
  | archived (some archive) entry =>
    archive.text ≠ "" ∧ entry.toList.head? ≠ some '/' ∧ ¬HoldsSeparator entry
  | archived none _ => False

/-- The location is a file or in a known archive. -/
def IsKnown : Location → Prop
  | file _ => True
  | archived archive _ => archive ≠ none

/-- The name of the member has no slash in front and no separator in it. -/
def HasCleanEntry : Location → Prop
  | file _ => True
  | archived _ entry => entry.toList.head? ≠ some '/' ∧ ¬HoldsSeparator entry

theorem Reads.hasCleanEntry {s : String} {l : Location} (h : Reads s l) : l.HasCleanEntry := by
  cases h with
  | file => trivial
  | archived front behind hs hbehind =>
    exact ⟨Text.head?_dropLeading '/' behind, fun h => hbehind h.of_dropLeading⟩

theorem display_archived (archive : Path) (entry : String) :
    display (.archived (some archive) entry) = archive.text ++ separator ++ entry := rfl

/-- A text that is read as a known location is no shorter than that is shown. -/
theorem Reads.length_display_le {s : String} {l : Location} (h : Reads s l) (hl : l.IsKnown) :
    l.display.toList.length ≤ s.toList.length := by
  cases h with
  | file => exact Nat.le_refl _
  | archived front behind hs =>
    obtain ⟨archive, harchive⟩ := Option.ne_none_iff_exists'.1 hl
    obtain ⟨rfl, -⟩ := archiveNamed_eq_some_iff.1 harchive
    have hbehind := Text.length_dropLeading_le '/' behind
    rw [harchive, display_archived, hs]
    simp only [String.toList_append, List.length_append]
    omega

/-- What is read is a plain location if it is a known one. -/
theorem Reads.isPlain_iff {s : String} {l : Location} (h : Reads s l) : l.IsPlain ↔ l.IsKnown := by
  have hentry := h.hasCleanEntry
  cases h with
  | file hs => exact iff_of_true hs trivial
  | archived front behind hs hbehind =>
    cases harchive : archiveNamed front with
    | none => exact iff_of_false id fun hknown => hknown rfl
    | some archive =>
      obtain ⟨rfl, hne⟩ := archiveNamed_eq_some_iff.1 harchive
      exact iff_of_true ⟨hne, hentry⟩ nofun

/-- A plain location is what its own text says. -/
theorem IsPlain.reads_display {l : Location} (h : l.IsPlain) : Reads l.display l := by
  match l, h with
  | .file path, h => exact .file h
  | .archived (some archive) entry, ⟨hne, hslash, hentry⟩ =>
    have hreads := Reads.archived archive.text entry rfl hentry
    rw [Text.dropLeading_eq_self hslash, archiveNamed_eq_some_iff.2 ⟨rfl, hne⟩] at hreads
    exact hreads

/-- The text of a member of an unknown archive names an archive. -/
theorem not_reads_display_unknown (entry : String) :
    ¬Reads (body (display (.archived none entry))) (.archived none entry) := by
  have hshown : display (.archived none entry) = "<unknown archive>!/" ++ entry := rfl
  have hhead : (display (.archived none entry)).toList.head? = some '<' := by
    rw [hshown, String.toList_append]
    rfl
  have hbody : body (display (.archived none entry)) = display (.archived none entry) := by
    refine body_eq_self (Bool.eq_false_iff.2 fun hs => ?_)
    obtain ⟨r, hr⟩ := Text.startsWith_iff.1 hs
    rw [hr, String.toList_append] at hhead
    cases hhead
  rw [hbody]
  intro h
  obtain ⟨front, behind, hcut, hnone⟩ := h.exists_cut
  have hempty : front = "" := archiveNamed_injective (hnone : _ = archiveNamed "")
  rw [hcut, hempty, String.toList_append] at hhead
  cases hhead

theorem isKnown_of_reads_display {l : Location} (h : Reads (body l.display) l) : l.IsKnown := by
  rcases l with path | ⟨_ | archive, entry⟩
  · trivial
  · exact absurd h (not_reads_display_unknown entry)
  · exact nofun

/-- Reading undoes showing exactly for the plain locations whose text is not that of an address. -/
theorem parse_display_iff (l : Location) : parse l.display = l ↔
    l.IsPlain ∧ Text.startsWith addressHead l.display = false := by
  rw [parse_eq_iff]
  constructor
  · intro h
    have hknown := isKnown_of_reads_display h
    have hlength := h.length_display_le hknown
    refine ⟨h.isPlain_iff.2 hknown, Bool.eq_false_iff.2 fun haddress => ?_⟩
    exact absurd (length_body_lt haddress) (Nat.not_lt.2 hlength)
  · rintro ⟨hplain, haddress⟩
    rw [body_eq_self haddress]
    exact hplain.reads_display

/-- A text with the head of an address in front says another location than without. -/
theorem Reads.ne_of_address {s : String} {l l' : Location} (h : Reads s l)
    (h' : Reads (addressHead ++ s) l') : l' ≠ l := by
  have hlonger : ∀ t, addressHead ++ t ≠ t := by
    intro t ht
    have hlength := congrArg (fun t => t.toList.length) ht
    have hhead : 0 < addressHead.toList.length := by decide
    simp only [String.toList_append, List.length_append] at hlength
    omega
  cases h with
  | file hs =>
    cases h' with
    | file => exact fun hl => hlonger s (congrArg Path.text (Location.file.inj hl))
    | archived => exact nofun
  | archived front behind hcut hbehind =>
    have haddress : addressHead ++ s = addressHead ++ front ++ separator ++ behind := by
      simp only [hcut, String.append_assoc]
    rw [h'.unique (.archived (addressHead ++ front) behind haddress hbehind)]
    exact fun hl => hlonger front (archiveNamed_injective (Location.archived.inj hl).1)

/-- The head of an address makes no difference exactly if it does not stand there already. -/
theorem parse_address_iff (s : String) : parse (addressHead ++ s) = parse s ↔
    Text.startsWith addressHead s = false := by
  constructor
  · intro h
    refine Bool.eq_false_iff.2 fun haddress => ?_
    obtain ⟨r, rfl⟩ := Text.startsWith_iff.1 haddress
    have hr := reads_parse (addressHead ++ r)
    have hs := reads_parse (addressHead ++ (addressHead ++ r))
    rw [body_address] at hr hs
    exact hr.ne_of_address hs h
  · intro h
    rw [parse_eq_iff, body_address, ← body_eq_self h, ← parse_eq_iff, body_eq_self h]

/-- What a text is read as has a member without a slash in front and without a separator in its
name, behind an archive that is all that stands before the last separator. Reading undoes showing
exactly for the plain locations not shown as an address, among them every one that was read as a
file or as a member of a known archive. The head of an address is taken off once. -/
theorem display_read_back :
    (∀ raw, (parse raw).HasCleanEntry ∧ Reads (body raw) (parse raw)) ∧
      (∀ l : Location, parse l.display = l ↔
        l.IsPlain ∧ Text.startsWith addressHead l.display = false) ∧
      (∀ raw, parse (parse raw).display = parse raw ↔
        (parse raw).IsKnown ∧ Text.startsWith addressHead (parse raw).display = false) ∧
      ∀ s, parse (addressHead ++ s) = parse s ↔ Text.startsWith addressHead s = false := by
  refine ⟨fun raw => ⟨(reads_parse raw).hasCleanEntry, reads_parse raw⟩, parse_display_iff,
    fun raw => ?_, parse_address_iff⟩
  rw [parse_display_iff, (reads_parse raw).isPlain_iff]

end Location

end ClassViewer
