import PolicyModelRouter.AuthorizationContract

/-!
# Texts without white space

The constrained texts of the contracts: stripping them changes nothing.
-/

namespace PolicyModelRouter.StrippedTexts
open AuthorizationContract GovernedVocabularies PythonText

theorem isGraphic_of_isIdentifierEdge {c : Char} (h : isIdentifierEdge c = true) :
    isGraphic c = true := by
  simp only [isIdentifierEdge, Bool.or_eq_true, Bool.and_eq_true, decide_eq_true_eq] at h
  rcases h with h | h
  · exact isGraphic_of_range h (by decide) (by decide)
  · exact isGraphic_of_range h (by decide) (by decide)

private theorem isGraphic_of_isIdentifierChar {c : Char} (h : isIdentifierChar c = true) :
    isGraphic c = true := by
  simp only [isIdentifierChar, Bool.or_eq_true, beq_iff_eq] at h
  rcases h with ((h | rfl) | rfl) | rfl
  · exact isGraphic_of_isIdentifierEdge h
  all_goals decide

private theorem isGraphic_of_isHexDigit {c : Char} (h : isHexDigit c = true) : isGraphic c = true := by
  simp only [isHexDigit, Bool.or_eq_true, Bool.and_eq_true, decide_eq_true_eq] at h
  rcases h with h | h
  · exact isGraphic_of_range h (by decide) (by decide)
  · exact isGraphic_of_range h (by decide) (by decide)

theorem isGraphic_of_isAlphanumeric {c : Char} (h : isAlphanumeric c = true) :
    isGraphic c = true := by
  simp only [isAlphanumeric, Bool.or_eq_true, Bool.and_eq_true, decide_eq_true_eq] at h
  rcases h with (h | h) | h
  · exact isGraphic_of_range h (by decide) (by decide)
  · exact isGraphic_of_range h (by decide) (by decide)
  · exact isGraphic_of_range h (by decide) (by decide)

theorem strip_of_isPolicyIdentifier {s : String} (h : isPolicyIdentifier s = true) : strip s = s :=
  strip_eq_self_of_isGraphic fun _ hc => isGraphic_of_isIdentifierChar (isIdentifierChar_of_mem h hc)

/-- Every character of a text of a given shape is of one of its two kinds. -/
theorem of_hasShape {first rest : Char → Bool} {low high : ℕ} {s : String}
    (h : hasShape first rest low high s = true) {c : Char} (hc : c ∈ s.toList) :
    first c = true ∨ rest c = true := by
  simp only [hasShape, Bool.and_eq_true] at h
  cases hs : s.toList with
  | nil => simp [hs] at hc
  | cons d ds =>
    rw [hs] at h hc
    rcases List.mem_cons.mp hc with rfl | hc
    · exact .inl (by simpa using h.1.2)
    · exact .inr (List.all_eq_true.mp h.2 c hc)

theorem length_of_hasShape {first rest : Char → Bool} {low high : ℕ} {s : String}
    (h : hasShape first rest low high s = true) : low ≤ s.length ∧ s.length ≤ high := by
  simp only [hasShape, Bool.and_eq_true, decide_eq_true_eq] at h
  exact ⟨h.1.1.1, h.1.1.2⟩

/-- A policy identifier has every shape that takes its characters and its length. -/
theorem hasShape_iff_of_isPolicyIdentifier {first rest : Char → Bool} {low high : ℕ} {s : String}
    (h : isPolicyIdentifier s = true) (edges : ∀ c, isIdentifierEdge c = true → first c = true)
    (chars : ∀ c, isIdentifierChar c = true → rest c = true) :
    hasShape first rest low high s = true ↔ low ≤ s.length ∧ s.length ≤ high := by
  constructor
  · exact length_of_hasShape
  · rintro ⟨hlow, hhigh⟩
    simp only [hasShape, Bool.and_eq_true, decide_eq_true_eq]
    refine ⟨⟨⟨hlow, hhigh⟩, ?_⟩, ?_⟩
    · have hhead := head_of_isPolicyIdentifier h
      obtain ⟨hpos, -⟩ := length_of_isPolicyIdentifier h
      cases hs : s.toList with
      | nil =>
        rw [← String.length_toList, hs] at hpos
        cases hpos
      | cons c cs => simpa using edges c (by simpa [hs] using hhead)
    · exact List.all_eq_true.mpr fun c hc =>
        chars c (isIdentifierChar_of_mem h (List.mem_of_mem_tail hc))

theorem strip_of_isDigest {s : String} (h : isDigest s = true) : strip s = s :=
  strip_eq_self_of_isGraphic fun _ hc =>
    (of_hasShape h hc).elim isGraphic_of_isHexDigit isGraphic_of_isHexDigit

theorem strip_of_isIdentifier {s : String} (h : isIdentifier s = true) : strip s = s := by
  refine strip_eq_self_of_isGraphic fun c hc => ?_
  rcases of_hasShape h hc with h | h
  · exact isGraphic_of_isAlphanumeric h
  · simp only [Bool.or_eq_true, beq_iff_eq] at h
    rcases h with ((((h | rfl) | rfl) | rfl) | rfl) | rfl
    · exact isGraphic_of_isAlphanumeric h
    all_goals decide

theorem strip_of_isRoutingGroup {s : String} (h : isRoutingGroup s = true) : strip s = s :=
  strip_eq_self_of_isGraphic fun _ hc =>
    (of_hasShape h hc).elim isGraphic_of_isIdentifierEdge isGraphic_of_isIdentifierChar

theorem strip_of_isStripped {low high : ℕ} {s : String} (h : isStripped low high s = true) :
    strip s = s := by
  simp only [isStripped, Bool.and_eq_true, decide_eq_true_eq] at h
  exact h.1.1

theorem strip_of_isSignatureText {s : String} (h : isSignatureText s = true) : strip s = s := by
  have hchar : ∀ c, (isAlphanumeric c || c == '_' || c == '-') = true → isGraphic c = true := by
    intro c hc
    simp only [Bool.or_eq_true, beq_iff_eq] at hc
    rcases hc with (hc | rfl) | rfl
    · exact isGraphic_of_isAlphanumeric hc
    all_goals decide
  exact strip_eq_self_of_isGraphic fun c hc => (of_hasShape h hc).elim (hchar c) (hchar c)

end PolicyModelRouter.StrippedTexts
