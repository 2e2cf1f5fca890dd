import SolidityBuild.Proofs.Json.RoundTrip

/-!
The plain text of a value is written with visible code points of ASCII only: all others are escaped, and no
lines are broken. So it survives whatever leaves these code points as they are.
-/

set_option autoImplicit false

namespace SolidityBuild

namespace Text

theorem visible_hex (k n : Nat) : Visible (hex k n) := by
  induction k generalizing n with
  | zero => exact visible_nil
  | succ k ih =>
    refine visible_append.mpr ⟨ih _, visible_cons.mpr ⟨?_, visible_nil⟩⟩
    rw [CodePoint.ofHexDigit]
    split <;> constructor <;> dsimp only <;> omega

end Text

namespace Json

open Text

/-! ## Texts in quotes -/

theorem visible_escapeUnit (n : Nat) : (escapeUnit n).Visible := by
  have hmark : Text.Visible "\\u" := visible_cons.mpr ⟨by decide, visible_cons.mpr ⟨by decide, visible_nil⟩⟩
  exact visible_append.mpr ⟨hmark, visible_hex 4 n⟩

theorem visible_of_shortEscape {e c : CodePoint} (means : shortEscape? e = some c) : e.Visible := by
  unfold shortEscape? at means
  split_ifs at means with h h h h h h
  · rcases h with rfl | rfl | rfl <;> decide
  all_goals
    rw [h]
    decide

theorem visible_escapePoint (c : CodePoint) : (escapePoint true c).Visible := by
  have hshape := escaped_escapePoint true c
  generalize escapePoint true c = printed at hshape ⊢
  cases hshape with
  | short letter means =>
    exact visible_cons.mpr ⟨by decide, visible_cons.mpr ⟨visible_of_shortEscape means, visible_nil⟩⟩
  | plain quote slash control ascii => exact visible_cons.mpr ⟨⟨control, ascii rfl⟩, visible_nil⟩
  | unit small needed => exact visible_escapeUnit _
  | pair large needed => exact visible_append.mpr ⟨visible_escapeUnit _, visible_escapeUnit _⟩

theorem visible_printText (t : Text) : (printText true t).Visible := by
  have hflat : Text.Visible (t.flatMap (escapePoint true)) := by
    intro c hc
    obtain ⟨d, -, hd⟩ := List.mem_flatMap.mp hc
    exact visible_escapePoint d c hd
  have hquote : (34 : CodePoint).Visible := by decide
  exact visible_cons.mpr ⟨hquote, visible_append.mpr ⟨hflat, visible_cons.mpr ⟨hquote, visible_nil⟩⟩⟩

/-! ## Values -/

theorem visible_printFloat (x : Binary64) : (printFloat x).Visible := by
  cases x with
  | finite negative x => exact visible_of_numberShape (numberShape_printFloat negative x)
  | infinity negative => cases negative <;> decide
  | nan => decide

/-- A layout that escapes all code points but the visible ones, and puts none between values but those with a
property, which the visible ones have. -/
structure Layout.Within (layout : Layout) (q : CodePoint → Prop) : Prop where
  ascii : layout.asciiOnly = true
  visible : ∀ c : CodePoint, c.Visible → q c
  betweenItems : ∀ c ∈ layout.betweenItems, q c
  afterKey : ∀ c ∈ layout.afterKey, q c
  lineBreak : ∀ depth, ∀ c ∈ lineBreak layout depth, q c

namespace Layout.Within

variable {layout : Layout} {q : CodePoint → Prop}

theorem of_visible (h : layout.Within q) {t : Text} (ht : t.Visible) : ∀ c ∈ t, q c :=
  fun c hc => h.visible c (ht c hc)

theorem separator (h : layout.Within q) (depth : Nat) : ∀ c ∈ separator layout depth, q c :=
  List.forall_mem_append.mpr ⟨h.betweenItems, h.lineBreak depth⟩

theorem printText (h : layout.Within q) (t : Text) : ∀ c ∈ printText layout.asciiOnly t, q c := by
  rw [h.ascii]
  exact h.of_visible (visible_printText t)

theorem printItems (h : layout.Within q) {depth : Nat} {items : List Json}
    (hitems : ∀ x ∈ items, ∀ c ∈ printAt layout depth x, q c) : ∀ c ∈ printItems layout depth items, q c := by
  induction items with
  | nil =>
    rw [Json.printItems]
    exact List.forall_mem_nil _
  | cons x xs ih =>
    obtain ⟨hx, hxs⟩ := List.forall_mem_cons.mp hitems
    by_cases hne : xs = []
    · rwa [hne, Json.printItems]
    · rw [printItems_cons hne]
      exact List.forall_mem_append.mpr ⟨hx, List.forall_mem_append.mpr ⟨h.separator depth, ih hxs⟩⟩

theorem printEntries (h : layout.Within q) {depth : Nat} {entries : List (Text × Json)}
    (hentries : ∀ e ∈ entries, ∀ c ∈ printAt layout depth e.2, q c) :
    ∀ c ∈ printEntries layout depth entries, q c := by
  induction entries with
  | nil =>
    rw [Json.printEntries]
    exact List.forall_mem_nil _
  | cons e es ih =>
    obtain ⟨k, x⟩ := e
    obtain ⟨hx, hes⟩ := List.forall_mem_cons.mp hentries
    have hkey : ∀ c ∈ Json.printText layout.asciiOnly k ++ layout.afterKey, q c :=
      List.forall_mem_append.mpr ⟨h.printText k, h.afterKey⟩
    by_cases hne : es = []
    · rw [hne, printEntries_singleton, ← List.append_assoc]
      exact List.forall_mem_append.mpr ⟨hkey, hx⟩
    · rw [printEntries_cons hne, ← List.append_assoc]
      exact List.forall_mem_append.mpr ⟨hkey, List.forall_mem_append.mpr ⟨hx,
        List.forall_mem_append.mpr ⟨h.separator depth, ih hes⟩⟩⟩

/-- What stands between brackets is within the property if what is inside is. -/
theorem between (h : layout.Within q) {opening closing : CodePoint} {depth : Nat} {t : Text}
    (hopening : opening.Visible) (hclosing : closing.Visible) (ht : ∀ c ∈ t, q c) :
    ∀ c ∈ opening :: (Json.lineBreak layout (depth + 1) ++ (t ++ (Json.lineBreak layout depth ++ [closing]))),
      q c :=
  List.forall_mem_cons.mpr ⟨h.visible _ hopening, List.forall_mem_append.mpr ⟨h.lineBreak _,
    List.forall_mem_append.mpr ⟨ht, List.forall_mem_append.mpr ⟨h.lineBreak _,
      List.forall_mem_singleton.mpr (h.visible _ hclosing)⟩⟩⟩⟩

theorem printAt (h : layout.Within q) {p : Text → Prop} {j : Json} (hj : WellFormed p j) (depth : Nat) :
    ∀ c ∈ printAt layout depth j, q c := by
  induction hj generalizing depth with
  | null =>
    rw [Json.printAt]
    exact h.of_visible (by decide)
  | bool b =>
    rw [Json.printAt]
    refine h.of_visible ?_
    cases b <;> decide
  | int short =>
    rw [Json.printAt]
    exact h.of_visible (visible_of_numberShape (numberShape_ofInt _))
  | float x =>
    rw [Json.printAt]
    exact h.of_visible (visible_printFloat x)
  | text holds =>
    rw [Json.printAt]
    exact h.printText _
  | @list items _ ih =>
    by_cases hne : items = []
    · rw [hne, Json.printAt]
      exact h.of_visible (by decide)
    · rw [printAt_list hne]
      exact h.between (by decide : (91 : CodePoint).Visible) (by decide : (93 : CodePoint).Visible)
        (h.printItems fun x hx => ih x hx _)
  | @object entries _ _ _ ih =>
    by_cases hne : entries = []
    · rw [hne, Json.printAt]
      exact h.of_visible (by decide)
    · rw [printAt_object hne]
      exact h.between (by decide : (123 : CodePoint).Visible) (by decide : (125 : CodePoint).Visible)
        (h.printEntries fun e he => ih e he _)

end Layout.Within

theorem Layout.within_plain : Layout.Within .plain CodePoint.Visible where
  ascii := rfl
  visible _ h := h
  betweenItems := (by decide : Text.Visible Layout.plain.betweenItems)
  afterKey := (by decide : Text.Visible Layout.plain.afterKey)
  lineBreak _ := List.forall_mem_nil _

/-- **The plain text of a value is visible ASCII.** -/
theorem visible_render {p : Text → Prop} {j : Json} (h : WellFormed p j) : j.render.Visible :=
  Layout.within_plain.printAt h 0

/-- Lines are broken by line feeds, and what is indented stands behind blanks. -/
theorem Layout.within_indented : Layout.Within .indented fun c => c.Visible ∨ c = 10 where
  ascii := rfl
  visible _ h := .inl h
  betweenItems := fun c hc => .inl ((by decide : Text.Visible Layout.indented.betweenItems) c hc)
  afterKey := fun c hc => .inl ((by decide : Text.Visible Layout.indented.afterKey) c hc)
  lineBreak depth := by
    refine List.forall_mem_cons.mpr ⟨.inr rfl, fun c hc => .inl ?_⟩
    rw [List.eq_of_mem_replicate hc]
    decide

end Json

end SolidityBuild
