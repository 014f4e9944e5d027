import ClassViewer.Proofs.Disk.Resolution

/-!
# Direct ways

As long as no link lies on the way, where a path leads can be found segment by segment (`direct`).
It is where the path leads by the rules, for whatever end (`locate_of_leadsDirectly`).
-/

namespace ClassViewer.Disk

deriving instance DecidableEq for Spot

/-- Where segments lead if no link lies on the way. -/
def direct (d : Disk) (here : Route) : List String → Option Spot
  | [] => some (.found here ((d.item? here).getD .directory))
  | seg :: rest =>
    if seg = "." then direct d here rest
    else if seg = ".." then direct d here.dropLast rest
    else if nameLimit < seg.utf8ByteSize then none
    else match d.item? (here ++ [seg]) with
      | none => if rest = [] ∧ d.takesNames here = true then some (.vacant here seg) else none
      | some .directory => direct d (here ++ [seg]) rest
      | some (.link _) => none
      | some i => if rest = [] then some (.found (here ++ [seg]) i) else none

/-- Whether a path leads directly to a spot and asks for nothing else there. -/
def leadsDirectly (d : Disk) (here : Route) (p : Path) (spot : Spot) : Bool :=
  !Text.holds (Char.ofNat 0) p.text && p.text != "" && p.text.utf8ByteSize < pathLimit &&
    !asksDirectory p && d.direct (if p.isAbsolute then [] else here) (steps p.text) == some spot

variable {d : Disk} {here r : Route} {p : Path} {segs : List String} {spot : Spot} {i : Item}

theorem leads_of_direct (h : d.direct here segs = some spot) (ending : Ending) (links : Nat) :
    Leads d ending links here false segs spot := by
  fun_induction direct d here segs with
  | case1 here =>
    obtain rfl := Option.some.inj h
    exact .arrive
  | case2 here rest ih => exact .stay (ih h)
  | case3 here rest _ ih => exact .climb (ih h)
  | case4 => cases h
  | case5 here seg rest hdot hdots hshort hi hend =>
    obtain ⟨rfl, htakes⟩ := hend
    obtain rfl := Option.some.inj h
    exact .free ⟨hdot, hdots, by simp, hshort⟩ hi htakes
  | case6 => cases h
  | case7 here seg rest hdot hdots hshort hi ih =>
    exact .enter ⟨hdot, hdots, by simp, hshort⟩ hi (ih h)
  | case8 => cases h
  | case9 here seg hdot hdots hshort i hdir hlink hi =>
    obtain rfl := Option.some.inj h
    exact .item ⟨hdot, hdots, by simp, hshort⟩ hi hdir hlink (.inl rfl)
  | case10 => cases h

theorem locate_of_leadsDirectly (h : d.leadsDirectly here p spot = true) (ending : Ending) :
    d.locate here ending p = .ok spot := by
  simp only [leadsDirectly, Bool.and_eq_true, Bool.not_eq_true', bne_iff_ne, decide_eq_true_eq,
    beq_iff_eq] at h
  obtain ⟨⟨⟨⟨hnul, hne⟩, hshort⟩, hslash⟩, hdirect⟩ := h
  refine locate_eq_ok_iff.2 ⟨hshort, follow_eq_ok_iff.2 ⟨⟨hnul, hne⟩, ?_⟩⟩
  rw [LeadsTo, hslash]
  exact leads_of_direct hdirect ending linkLimit

theorem lookup_of_leadsDirectly (h : d.leadsDirectly here p (.found r i) = true) :
    d.lookup here true p = .ok (r, i) :=
  lookup_eq_ok_iff.2 (locate_of_leadsDirectly h .target)

end ClassViewer.Disk
