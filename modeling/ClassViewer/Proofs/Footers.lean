import ClassViewer.Engine.Basic
import ClassViewer.Proofs.Text

/-!
# Footers

A footer names an engine in the last line of a text, and is looked for at the end of the text with
the white space behind it left out. The line of an engine ends as the name of the engine does
(`endsInInk_attribution_iff`), so a name that is empty or ends in white space is never found: the
end of its line has been trimmed away with the rest. Every other name is found wherever its line
stands with nothing but white space behind it (`hasFooter_iff`), and that is where `withFooter` puts
it (`footer_found_iff`).
-/

namespace ClassViewer

theorem attribution_eq (d : Descriptor) : attribution d = "// Decompiled with " ++ d.displayName :=
  rfl

/-- The line of an engine ends as the name of the engine does. -/
theorem endsInInk_attribution_iff (d : Descriptor) :
    Text.EndsInInk (attribution d) ↔ Text.EndsInInk d.displayName := by
  have hfixed : ¬Text.EndsInInk "// Decompiled with " := by
    rintro ⟨c, hlast, hink⟩
    have hspace : "// Decompiled with ".toList.getLast? = some ' ' := by decide
    obtain rfl := Option.some.inj (hspace.symm.trans hlast)
    exact absurd hink (by decide)
  rw [attribution_eq, Text.endsInInk_append_iff]
  exact or_iff_left fun h => hfixed h.2

theorem attribution_ne_empty (d : Descriptor) : attribution d ≠ "" := by
  intro h
  have hlength := congrArg (fun s => s.toList.length) h
  simp [attribution_eq, String.toList_append] at hlength

/-- A text ends in the footer of an engine exactly when the name of the engine does not end in white
space and the line of the engine stands in the text with nothing but white space behind it. -/
theorem hasFooter_iff (text : String) (d : Descriptor) : hasFooter text d = true ↔
    Text.EndsInInk d.displayName ∧
      ∃ front w, text = front ++ attribution d ++ w ∧ Text.AllBlank w := by
  rw [hasFooter, Text.endsWith_iff]
  constructor
  · rintro ⟨front, hfront⟩
    have hne : Text.trimEnd text ≠ "" := by
      intro hempty
      have hparts := congrArg String.toList (hfront.symm.trans hempty)
      simp only [String.toList_append, String.toList_empty, List.append_eq_nil_iff] at hparts
      exact attribution_ne_empty d (String.toList_injective hparts.2)
    have hink := Text.endsInInk_trimEnd hne
    obtain ⟨w, htext, hw⟩ := Text.exists_trimEnd text
    rw [hfront] at htext hink
    rcases (Text.endsInInk_append_iff _ _).1 hink with hline | ⟨hempty, -⟩
    · exact ⟨(endsInInk_attribution_iff d).1 hline, front, w, htext, hw⟩
    · exact absurd hempty (attribution_ne_empty d)
  · rintro ⟨hname, front, w, rfl, hw⟩
    have hline := (endsInInk_attribution_iff d).2 hname
    have hink := (Text.endsInInk_append_iff front _).2 (.inl hline)
    rw [Text.trimEnd_append_of_allBlank _ hw, Text.trimEnd_eq_self hink]
    exact ⟨front, rfl⟩

/-- A footer is found where it was put if its name does not end in white space. -/
theorem hasFooter_withFooter_iff (text : String) (d : Descriptor) :
    hasFooter (withFooter text d) d = true ↔ Text.EndsInInk d.displayName := by
  rw [hasFooter_iff]
  exact and_iff_left ⟨text ++ "\n\n", "\n", rfl, by decide⟩

/-- White space at the end of a text hides no footer and makes none. -/
theorem hasFooter_append_of_allBlank (text : String) {w : String} (hw : Text.AllBlank w)
    (d : Descriptor) : hasFooter (text ++ w) d = hasFooter text d := by
  rw [hasFooter, hasFooter, Text.trimEnd_append_of_allBlank text hw]

/-- A footer that was put behind a text is found again exactly when the name of its engine is not
empty and does not end in white space, whatever the text ends in. White space behind it makes no
difference, the text stays in front, and a footer is found nowhere but at the end. -/
theorem footer_found_iff (text : String) (d : Descriptor) :
    (hasFooter (withFooter text d) d = true ↔
      ∃ c, d.displayName.toList.getLast? = some c ∧ Text.isBlank c = false) ∧
    (∀ w : String, (∀ c ∈ w.toList, Text.isBlank c = true) →
      hasFooter (text ++ w) d = hasFooter text d) ∧
    text.toList <+: (withFooter text d).toList ∧
    (hasFooter text d = true ↔
      (∃ c, d.displayName.toList.getLast? = some c ∧ Text.isBlank c = false) ∧
      ∃ front w : String, text = front ++ ("// Decompiled with " ++ d.displayName) ++ w ∧
        ∀ c ∈ w.toList, Text.isBlank c = true) := by
  refine ⟨hasFooter_withFooter_iff text d, fun w hw => hasFooter_append_of_allBlank text hw d, ?_,
    hasFooter_iff text d⟩
  rw [withFooter, String.append_assoc, String.append_assoc, String.toList_append]
  exact List.prefix_append _ _

/-- A text that ends in the footer of another engine, and a name with a space inside. -/
theorem footer_found_behind_another :
    let d : Descriptor := ⟨"jd", "JD Core", "An engine"⟩
    let text := "package a;\n\n// Decompiled with CFR\n \u3000"
    (∀ c ∈ "\u3000\t\n".toList, Text.isBlank c = true) ∧
      hasFooter (withFooter text d ++ "\u3000\t\n") d = true ∧
      hasFooter (text ++ "\u3000\t\n") d = false := by
  intro d text
  have hblank : Text.AllBlank "\u3000\t\n" := by decide
  have hname : ∃ c, d.displayName.toList.getLast? = some c ∧ Text.isBlank c = false :=
    ⟨'e', by decide, by decide⟩
  refine ⟨hblank, ?_, ?_⟩
  · rw [(footer_found_iff (withFooter text d) d).2.1 _ hblank]
    exact (footer_found_iff text d).1.2 hname
  · rw [(footer_found_iff text d).2.1 _ hblank]
    decide

/-- A name that ends in white space is not found again. -/
example : hasFooter (withFooter "package a;" ⟨"jd", "JD ", ""⟩) ⟨"jd", "JD ", ""⟩ = false := by
  decide

end ClassViewer
