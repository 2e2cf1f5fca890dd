import SolidityBuild.Proofs.Json.Reading
import SolidityBuild.Proofs.Json.VisibleText

/-!
Where texts are printed as they are, a printed value has surrogates exactly where its texts and keys have
them: everything else that is printed is ASCII. With the rule that UTF-8 refuses a text exactly for its
surrogates, this says which values have no UTF-8 form.
-/

set_option autoImplicit false

namespace SolidityBuild

namespace Json

/-! ## Printed texts -/

theorem scalar_escapePoint (c : CodePoint) :
    (escapePoint false c).Scalar ↔ c.isSurrogate = false := by
  have hshape := escaped_escapePoint false c
  generalize escapePoint false c = printed at hshape ⊢
  cases hshape with
  | @short e letter means =>
    rw [iff_true_right (shortEscape?_scalar means)]
    exact Text.scalar_of_visible (Text.visible_cons.mpr ⟨by decide,
      Text.visible_cons.mpr ⟨visible_of_shortEscape means, Text.visible_nil⟩⟩)
  | plain quote slash control ascii =>
    rw [Text.scalar_cons]
    exact and_iff_left Text.scalar_nil
  | unit small needed =>
    have hlt : c.val < 32 := needed.resolve_right Bool.false_ne_true
    refine iff_of_true (Text.scalar_of_visible (visible_escapeUnit _)) ?_
    rw [CodePoint.isSurrogate, Bool.and_eq_false_iff, decide_eq_false_iff_not]
    left
    omega
  | pair large needed => exact absurd needed Bool.false_ne_true

theorem scalar_printText (t : Text) : (printText false t).Scalar ↔ t.Scalar := by
  have hflat : Text.Scalar (t.flatMap (escapePoint false)) ↔ t.Scalar := by
    induction t with
    | nil => rfl
    | cons c t ih => rw [List.flatMap_cons, Text.scalar_append, Text.scalar_cons, scalar_escapePoint, ih]
  have hquote : (34 : CodePoint).isSurrogate = false := by decide
  unfold printText
  simp only [Text.scalar_cons, Text.scalar_append, Text.scalar_nil, hflat, hquote, true_and, and_true]

theorem scalar_of_numberShape {t : Text} (h : NumberShape t) : t.Scalar :=
  Text.scalar_of_visible (visible_of_numberShape h)

theorem scalar_printFloat (x : Binary64) : (printFloat x).Scalar := by
  cases x with
  | finite negative x => exact scalar_of_numberShape (numberShape_printFloat negative x)
  | infinity negative =>
    cases negative with
    | false => exact Text.scalar_ofString "Infinity"
    | true => exact Text.scalar_ofString "-Infinity"
  | nan => exact Text.scalar_ofString "NaN"

theorem scalar_of_blank {t : Text} (h : Blank t) : t.Scalar := by
  refine Text.scalar_of_ascii fun c hc => ?_
  have hspace := h c hc
  unfold isSpace at hspace
  simp only [Bool.or_eq_true, decide_eq_true_eq, or_assoc] at hspace
  rcases hspace with rfl | rfl | rfl | rfl <;> decide

/-! ## Printed values -/

section Values

variable {layout : Layout}

theorem scalar_lineBreak (layout : Layout) (depth : Nat) : (lineBreak layout depth).Scalar :=
  scalar_of_blank (blank_lineBreak layout depth)

theorem scalar_separator (hl : layout.Standard) (depth : Nat) : (separator layout depth).Scalar := by
  obtain ⟨s, hs, hblank⟩ := hl.separator_eq depth
  rw [hs]
  exact Text.scalar_cons.mpr ⟨by decide, scalar_of_blank hblank⟩

theorem scalar_afterKey (hl : layout.Standard) : layout.afterKey.Scalar := by
  obtain ⟨s, hs, hblank⟩ := hl.colon
  rw [hs]
  exact Text.scalar_cons.mpr ⟨by decide, scalar_of_blank hblank⟩

theorem scalar_printItems (hl : layout.Standard) (depth : Nat) (items : List Json) :
    (printItems layout depth items).Scalar ↔ ∀ x ∈ items, (printAt layout depth x).Scalar := by
  induction items with
  | nil =>
    rw [printItems]
    exact iff_of_true Text.scalar_nil fun x hx => absurd hx List.not_mem_nil
  | cons x xs ih =>
    rw [List.forall_mem_cons]
    -- only between items does a separator stand
    by_cases hxs : xs = []
    · subst hxs
      simp only [printItems, List.not_mem_nil, false_imp_iff, implies_true, and_true]
    · simp only [printItems_cons hxs, Text.scalar_append, scalar_separator hl, ih, true_and]

theorem scalar_printEntries (hl : layout.Standard) (hraw : layout.asciiOnly = false) (depth : Nat)
    (entries : List (Text × Json)) : (printEntries layout depth entries).Scalar ↔
      ∀ e ∈ entries, e.1.Scalar ∧ (printAt layout depth e.2).Scalar := by
  induction entries with
  | nil =>
    rw [printEntries]
    exact iff_of_true Text.scalar_nil fun e he => absurd he List.not_mem_nil
  | cons e es ih =>
    obtain ⟨k, x⟩ := e
    rw [List.forall_mem_cons]
    by_cases hes : es = []
    · subst hes
      simp only [printEntries_singleton, Text.scalar_append, hraw, scalar_printText, scalar_afterKey hl,
        List.not_mem_nil, false_imp_iff, implies_true, true_and, and_true]
    · simp only [printEntries_cons hes, Text.scalar_append, hraw, scalar_printText, scalar_afterKey hl,
        scalar_separator hl, ih, true_and, and_assoc]

theorem scalar_printAt_list (hl : layout.Standard) (depth : Nat) (items : List Json) :
    (printAt layout depth (.list items)).Scalar ↔
      ∀ x ∈ items, (printAt layout (depth + 1) x).Scalar := by
  by_cases hne : items = []
  · subst hne
    rw [printAt]
    exact iff_of_true (Text.scalar_ofString "[]") fun x hx => absurd hx List.not_mem_nil
  · have hopen : (91 : CodePoint).isSurrogate = false := by decide
    have hclose : Text.Scalar [93] := Text.scalar_ofString "]"
    simp only [printAt_list hne, Text.scalar_cons, Text.scalar_append, scalar_printItems hl,
      scalar_lineBreak, hopen, hclose, true_and, and_true]

theorem scalar_printAt_object (hl : layout.Standard) (hraw : layout.asciiOnly = false) (depth : Nat)
    (entries : List (Text × Json)) : (printAt layout depth (.object entries)).Scalar ↔
      ∀ e ∈ entries, e.1.Scalar ∧ (printAt layout (depth + 1) e.2).Scalar := by
  by_cases hne : entries = []
  · subst hne
    rw [printAt]
    exact iff_of_true (Text.scalar_ofString "\x7b\x7d") fun e he => absurd he List.not_mem_nil
  · have hopen : (123 : CodePoint).isSurrogate = false := by decide
    have hclose : Text.Scalar [125] := Text.scalar_ofString "\x7d"
    simp only [printAt_object hne, Text.scalar_cons, Text.scalar_append, scalar_printEntries hl hraw,
      scalar_lineBreak, hopen, hclose, true_and, and_true]

/-- **A printed value has surrogates exactly where its texts and keys have them**, if these are printed
as they are. -/
theorem scalar_printAt_iff (hl : layout.Standard) (hraw : layout.asciiOnly = false) {p : Text → Prop}
    {j : Json} (h : WellFormed p j) (depth : Nat) :
    (printAt layout depth j).Scalar ↔ ∀ t ∈ j.texts, t.Scalar := by
  induction h generalizing depth with
  | null =>
    rw [printAt]
    exact iff_of_true (Text.scalar_ofString "null") fun t ht => absurd ht List.not_mem_nil
  | bool b =>
    rw [printAt]
    refine iff_of_true ?_ fun t ht => absurd ht List.not_mem_nil
    cases b with
    | false => exact Text.scalar_ofString "false"
    | true => exact Text.scalar_ofString "true"
  | int short =>
    rw [printAt]
    exact iff_of_true (scalar_of_numberShape (numberShape_ofInt _)) fun t ht => absurd ht List.not_mem_nil
  | float x =>
    rw [printAt]
    exact iff_of_true (scalar_printFloat x) fun t ht => absurd ht List.not_mem_nil
  | text holds =>
    rw [printAt, hraw, scalar_printText, texts, List.forall_mem_singleton]
  | list _ ih =>
    rw [scalar_printAt_list hl, texts]
    constructor
    · intro hitems t ht
      obtain ⟨x, hx, htx⟩ := mem_textsOfItems.mp ht
      exact (ih x hx _).mp (hitems x hx) t htx
    · intro htexts x hx
      exact (ih x hx _).mpr fun t ht => htexts t (mem_textsOfItems.mpr ⟨x, hx, ht⟩)
  | object _ _ _ ih =>
    rw [scalar_printAt_object hl hraw, texts]
    constructor
    · intro hentries t ht
      obtain ⟨e, he, rfl | hte⟩ := mem_textsOfEntries.mp ht
      · exact (hentries e he).1
      · exact (ih e he _).mp (hentries e he).2 t hte
    · intro htexts e he
      -- its key, and the texts of its value
      refine ⟨htexts _ (mem_textsOfEntries.mpr ⟨e, he, Or.inl rfl⟩), (ih e he _).mpr fun t ht => ?_⟩
      exact htexts t (mem_textsOfEntries.mpr ⟨e, he, Or.inr ht⟩)

end Values

end Json

end SolidityBuild
