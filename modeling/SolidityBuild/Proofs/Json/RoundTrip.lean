import SolidityBuild.Proofs.Json.NumberText
import SolidityBuild.Proofs.Json.QuotedText
import SolidityBuild.Proofs.Json.WellFormed
import SolidityBuild.Proofs.Table

/-!
A value is read as it was printed, in every layout that separates items by a comma and a key from its
value by a colon, with any blanks behind them. The statement about reading has a rest of text behind
the value and an amount of fuel that covers three units for each printed code point, less the two that a
value alone does not spend; with the fuel that `parse` takes for the whole text, nothing of either is
left in the main theorem.
-/

set_option autoImplicit false

namespace SolidityBuild

namespace Json

/-! ## Blanks -/

/-- A text of blanks. -/
def Blank (t : Text) : Prop := ∀ c ∈ t, isSpace c = true

theorem skipSpace_append {s : Text} (hs : Blank s) (t : Text) : skipSpace (s ++ t) = skipSpace t :=
  List.dropWhile_append_of_pos hs

theorem skipSpace_cons {c : CodePoint} (hc : isSpace c = false) (t : Text) :
    skipSpace (c :: t) = c :: t :=
  (Text.endsRun_cons.mpr hc).dropWhile_eq

theorem blank_replicate (n : Nat) : Blank (List.replicate n 32) := by
  intro c hc
  rw [List.eq_of_mem_replicate hc]
  decide

theorem blank_lineBreak (layout : Layout) (depth : Nat) : Blank (lineBreak layout depth) := by
  unfold lineBreak
  split
  · exact fun c hc => absurd hc List.not_mem_nil
  · rintro c (_ | ⟨_, hc⟩)
    · decide
    · exact blank_replicate _ c hc

/-- A layout with a comma between items and a colon behind a key, each with blanks after it. -/
structure Layout.Standard (layout : Layout) : Prop where
  comma : ∃ s, layout.betweenItems = 44 :: s ∧ Blank s
  colon : ∃ s, layout.afterKey = 58 :: s ∧ Blank s

theorem Layout.standard_plain : Layout.Standard .plain :=
  ⟨⟨[32], rfl, blank_replicate 1⟩, ⟨[32], rfl, blank_replicate 1⟩⟩

theorem Layout.standard_compact : Layout.Standard .compact :=
  ⟨⟨[], rfl, blank_replicate 0⟩, ⟨[], rfl, blank_replicate 0⟩⟩

theorem Layout.standard_indented : Layout.Standard .indented :=
  ⟨⟨[], rfl, blank_replicate 0⟩, ⟨[32], rfl, blank_replicate 1⟩⟩

/-! ## How a value begins -/

/-- A code point that begins a value: ASCII, no blank, and neither of the closing brackets. -/
def BeginsValue (c : CodePoint) : Prop :=
  isSpace c = false ∧ c.val ≠ 93 ∧ c.val ≠ 125 ∧ c.val < 128

instance decidableBeginsValue (c : CodePoint) : Decidable (BeginsValue c) :=
  inferInstanceAs (Decidable (isSpace c = false ∧ c.val ≠ 93 ∧ c.val ≠ 125 ∧ c.val < 128))

theorem beginsValue_of_isDigit {c : CodePoint} (hc : c.isDigit = true) : BeginsValue c := by
  rw [CodePoint.isDigit, Bool.and_eq_true, decide_eq_true_eq, decide_eq_true_eq] at hc
  refine ⟨?_, by omega, by omega, by omega⟩
  have hne : ∀ d : CodePoint, d.val < 48 → ¬ c = d := by
    rintro d hd rfl
    omega
  unfold isSpace
  simp only [Bool.or_eq_false_iff, decide_eq_false_iff_not]
  exact ⟨⟨⟨hne _ (by decide), hne _ (by decide)⟩, hne _ (by decide)⟩, hne _ (by decide)⟩

/-- A number is none of the words, since no word begins with a digit behind an optional minus. -/
theorem readWord?_number {negative : Bool} {d : CodePoint} (hd : d.isDigit = true) (t : Text) :
    readWord? (signText negative ++ d :: t) = none := by
  have hne : ∀ c : CodePoint, c.isDigit = false → ¬ c = d := by
    rintro c hc rfl
    rw [hd] at hc
    exact Bool.noConfusion hc
  have h110 : ¬ (110 : CodePoint) = d := hne 110 rfl
  have h116 : ¬ (116 : CodePoint) = d := hne 116 rfl
  have h102 : ¬ (102 : CodePoint) = d := hne 102 rfl
  have h78 : ¬ (78 : CodePoint) = d := hne 78 rfl
  have h73 : ¬ (73 : CodePoint) = d := hne 73 rfl
  have hnull : ("null" : Text) = 110 :: "ull" := rfl
  have htrue : ("true" : Text) = 116 :: "rue" := rfl
  have hfalse : ("false" : Text) = 102 :: "alse" := rfl
  have hnan : ("NaN" : Text) = 78 :: "aN" := rfl
  have hinfinity : ("Infinity" : Text) = 73 :: "nfinity" := rfl
  have hminus : ("-Infinity" : Text) = 45 :: 73 :: "nfinity" := rfl
  cases negative with
  | false =>
    have h45 : ¬ (45 : CodePoint) = d := hne 45 rfl
    simp only [readWord?, words, signText, List.findSome?, hnull, htrue, hfalse, hnan, hinfinity, hminus,
      Text.after?, Bool.false_eq_true, if_false, List.nil_append, if_neg h110, if_neg h116, if_neg h102,
      if_neg h78, if_neg h73, if_neg h45, Option.map_none]
  | true =>
    have h45 : ∀ c : CodePoint, c.val ≠ 45 → ¬ c = 45 := fun c hc heq => hc (by rw [heq]; rfl)
    simp only [readWord?, words, signText, List.findSome?, hnull, htrue, hfalse, hnan, hinfinity, hminus,
      Text.after?, if_true, List.cons_append, List.nil_append, if_neg (h45 110 (by decide)),
      if_neg (h45 116 (by decide)), if_neg (h45 102 (by decide)), if_neg (h45 78 (by decide)),
      if_neg (h45 73 (by decide)), if_neg h73, Option.map_none]

/-! ## The reader by the first code point -/

section Equations

variable {fuel : Nat} {t : Text}

theorem readValue_scalar {c : CodePoint} (hquote : c.val ≠ 34) (hbrace : c.val ≠ 123)
    (hbracket : c.val ≠ 91) :
    readValue (fuel + 1) (c :: t) =
      match readWord? (c :: t) with
      | some found => .ok found
      | none => readNumber (c :: t) := by
  have h34 : ¬ c = CodePoint.ofChar '"' := fun heq => hquote (by rw [heq]; rfl)
  have h123 : ¬ c = 0x7B := fun heq => hbrace (by rw [heq]; rfl)
  have h91 : ¬ c = CodePoint.ofChar '[' := fun heq => hbracket (by rw [heq]; rfl)
  cases hword : readWord? (c :: t) with
  | none => rw [readValue, if_neg h34, if_neg h123, if_neg h91, hword]
  | some found => rw [readValue, if_neg h34, if_neg h123, if_neg h91, hword]

theorem readValue_text : readValue (fuel + 1) (34 :: t) =
    (readText t).map fun found => (.text found.1, found.2) := by
  have h34 : (34 : CodePoint) = CodePoint.ofChar '"' := by decide
  rw [readValue, if_pos h34]
  cases readText t <;> rfl

theorem readValue_object : readValue (fuel + 1) (123 :: t) =
    (readEntries fuel true (skipSpace t)).map fun found => (.object (Table.ofEntries found.1), found.2) := by
  have h34 : ¬ (123 : CodePoint) = CodePoint.ofChar '"' := by decide
  rw [readValue, if_neg h34, if_pos rfl]
  cases readEntries fuel true (skipSpace t) <;> rfl

theorem readValue_list : readValue (fuel + 1) (91 :: t) =
    (readItems fuel true (skipSpace t)).map fun found => (.list found.1, found.2) := by
  have h34 : ¬ (91 : CodePoint) = CodePoint.ofChar '"' := by decide
  have h123 : ¬ (91 : CodePoint) = 0x7B := by decide
  have h91 : (91 : CodePoint) = CodePoint.ofChar '[' := by decide
  rw [readValue, if_neg h34, if_neg h123, if_pos h91]
  cases readItems fuel true (skipSpace t) <;> rfl

theorem readItems_end : readItems (fuel + 1) true (93 :: t) = .ok ([], t) := by
  have h93 : (93 : CodePoint) = CodePoint.ofChar ']' := by decide
  rw [readItems, if_pos h93]

theorem readItems_begin {c : CodePoint} (hc : c.val ≠ 93) (first : Bool) :
    readItems (fuel + 1) first (c :: t) = readItem fuel (c :: t) := by
  have h93 : ¬ c = CodePoint.ofChar ']' := fun heq => hc (by rw [heq]; rfl)
  cases first with
  | false => rw [readItems]; simp
  | true => rw [readItems, if_neg h93]

theorem readItem_last {x : Json} {rest rest' : Text} (hx : readValue fuel t = .ok (x, rest))
    (hrest : skipSpace rest = 93 :: rest') : readItem (fuel + 1) t = .ok ([x], rest') := by
  have h93 : (93 : CodePoint) = CodePoint.ofChar ']' := by decide
  simp only [readItem, hx, hrest, bind, Except.bind, if_pos h93]
  rfl

theorem readItem_more {x : Json} {xs : List Json} {rest rest' rest'' : Text}
    (hx : readValue fuel t = .ok (x, rest)) (hrest : skipSpace rest = 44 :: rest')
    (hxs : readItems fuel false (skipSpace rest') = .ok (xs, rest'')) :
    readItem (fuel + 1) t = .ok (x :: xs, rest'') := by
  have h93 : ¬ (44 : CodePoint) = CodePoint.ofChar ']' := by decide
  have h44 : (44 : CodePoint) = CodePoint.ofChar ',' := by decide
  simp only [readItem, hx, hrest, bind, Except.bind, if_neg h93, if_pos h44, hxs]
  rfl

theorem readEntries_end : readEntries (fuel + 1) true (125 :: t) = .ok ([], t) := by
  rw [readEntries, if_pos rfl]

theorem readEntries_begin {c : CodePoint} (hc : c.val ≠ 125) (first : Bool) :
    readEntries (fuel + 1) first (c :: t) = readEntry fuel (c :: t) := by
  have h125 : ¬ c = 0x7D := fun heq => hc (by rw [heq]; rfl)
  cases first with
  | false => rw [readEntries]; simp
  | true => rw [readEntries, if_neg h125]

theorem readEntry_last {k : Text} {x : Json} {rest₁ rest₂ rest₃ rest₄ : Text}
    (hk : readText t = .ok (k, rest₁)) (hcolon : skipSpace rest₁ = 58 :: rest₂)
    (hx : readValue fuel (skipSpace rest₂) = .ok (x, rest₃)) (hrest : skipSpace rest₃ = 125 :: rest₄) :
    readEntry (fuel + 1) (34 :: t) = .ok ([(k, x)], rest₄) := by
  have h34 : ¬ (34 : CodePoint) ≠ CodePoint.ofChar '"' := by decide
  have h58 : ¬ (58 : CodePoint) ≠ CodePoint.ofChar ':' := by decide
  simp only [readEntry, if_neg h34, hk, hcolon, bind, Except.bind, if_neg h58, hx, hrest]
  rfl

theorem readEntry_more {k : Text} {x : Json} {xs : List (Text × Json)}
    {rest₁ rest₂ rest₃ rest₄ rest₅ : Text}
    (hk : readText t = .ok (k, rest₁)) (hcolon : skipSpace rest₁ = 58 :: rest₂)
    (hx : readValue fuel (skipSpace rest₂) = .ok (x, rest₃)) (hrest : skipSpace rest₃ = 44 :: rest₄)
    (hxs : readEntries fuel false (skipSpace rest₄) = .ok (xs, rest₅)) :
    readEntry (fuel + 1) (34 :: t) = .ok ((k, x) :: xs, rest₅) := by
  have h34 : ¬ (34 : CodePoint) ≠ CodePoint.ofChar '"' := by decide
  have h58 : ¬ (58 : CodePoint) ≠ CodePoint.ofChar ':' := by decide
  have h125 : ¬ (44 : CodePoint) = 0x7D := by decide
  have h44 : (44 : CodePoint) = CodePoint.ofChar ',' := by decide
  simp only [readEntry, if_neg h34, hk, hcolon, bind, Except.bind, if_neg h58, hx, hrest, if_neg h125,
    if_pos h44, hxs]
  rfl

end Equations

/-! ## What is printed -/

section Printed

variable {layout : Layout} {depth : Nat}

theorem printAt_list {items : List Json} (hne : items ≠ []) :
    printAt layout depth (.list items) =
      91 :: (lineBreak layout (depth + 1) ++ (printItems layout (depth + 1) items ++
        (lineBreak layout depth ++ [93]))) := by
  rw [printAt, List.append_assoc, List.append_assoc, List.append_assoc]
  · rfl
  · exact hne

theorem printAt_object {entries : List (Text × Json)} (hne : entries ≠ []) :
    printAt layout depth (.object entries) =
      123 :: (lineBreak layout (depth + 1) ++ (printEntries layout (depth + 1) entries ++
        (lineBreak layout depth ++ [125]))) := by
  rw [printAt, List.append_assoc, List.append_assoc, List.append_assoc]
  · rfl
  · exact hne

theorem exists_numberShape_cons {t : Text} (ht : NumberShape t) : ∃ c s, t = c :: s ∧ BeginsValue c := by
  obtain ⟨negative, d, s, rfl, hd, -⟩ := ht
  cases negative with
  | false => exact ⟨d, s, rfl, beginsValue_of_isDigit hd⟩
  | true => exact ⟨45, d :: s, rfl, by decide⟩

theorem exists_printAt_cons (layout : Layout) (depth : Nat) (j : Json) :
    ∃ c t, printAt layout depth j = c :: t ∧ BeginsValue c := by
  cases j with
  | null => exact ⟨110, "ull", by rw [printAt]; rfl, by decide⟩
  | bool b =>
    cases b with
    | false => exact ⟨102, "alse", by rw [printAt]; rfl, by decide⟩
    | true => exact ⟨116, "rue", by rw [printAt]; rfl, by decide⟩
  | int n =>
    rw [printAt]
    exact exists_numberShape_cons (numberShape_ofInt n)
  | float x =>
    rw [printAt]
    cases x with
    | finite negative x => exact exists_numberShape_cons (numberShape_printFloat negative x)
    | infinity negative =>
      cases negative with
      | false => exact ⟨73, "nfinity", rfl, by decide⟩
      | true => exact ⟨45, "Infinity", rfl, by decide⟩
    | nan => exact ⟨78, "aN", rfl, by decide⟩
  | text t => exact ⟨34, _, by rw [printAt]; rfl, by decide⟩
  | list items =>
    cases items with
    | nil => exact ⟨91, [93], by rw [printAt]; rfl, by decide⟩
    | cons x xs =>
      exact ⟨91, _, printAt_list (List.cons_ne_nil x xs), by decide⟩
  | object entries =>
    cases entries with
    | nil => exact ⟨123, [125], by rw [printAt]; rfl, by decide⟩
    | cons e es =>
      exact ⟨123, _, printAt_object (List.cons_ne_nil e es), by decide⟩

/-- What separates one item from the next. -/
def separator (layout : Layout) (depth : Nat) : Text :=
  layout.betweenItems ++ lineBreak layout depth

theorem printItems_cons {x : Json} {xs : List Json} (hne : xs ≠ []) :
    printItems layout depth (x :: xs) =
      printAt layout depth x ++ (separator layout depth ++ printItems layout depth xs) := by
  rw [printItems, separator, List.append_assoc, List.append_assoc, List.append_assoc]
  exact hne

theorem printEntries_cons {k : Text} {x : Json} {xs : List (Text × Json)} (hne : xs ≠ []) :
    printEntries layout depth ((k, x) :: xs) =
      printText layout.asciiOnly k ++ (layout.afterKey ++ (printAt layout depth x ++
        (separator layout depth ++ printEntries layout depth xs))) := by
  rw [printEntries, separator, List.append_assoc, List.append_assoc, List.append_assoc,
    List.append_assoc, List.append_assoc]
  exact hne

theorem printEntries_singleton {k : Text} {x : Json} :
    printEntries layout depth [(k, x)] =
      printText layout.asciiOnly k ++ (layout.afterKey ++ printAt layout depth x) := by
  rw [printEntries, List.append_assoc]

variable (layout depth) in
theorem exists_printItems_cons {items : List Json} (hne : items ≠ []) :
    ∃ c t, printItems layout depth items = c :: t ∧ BeginsValue c := by
  obtain ⟨x, xs, rfl⟩ := List.exists_cons_of_ne_nil hne
  obtain ⟨c, t, hc, hbegins⟩ := exists_printAt_cons layout depth x
  by_cases hxs : xs = []
  · rw [hxs, printItems]
    exact ⟨c, t, hc, hbegins⟩
  · rw [printItems_cons hxs, hc]
    exact ⟨c, _, rfl, hbegins⟩

variable (layout depth) in
theorem exists_printEntries_cons {entries : List (Text × Json)} (hne : entries ≠ []) :
    ∃ t, printEntries layout depth entries = 34 :: t := by
  obtain ⟨⟨k, x⟩, xs, rfl⟩ := List.exists_cons_of_ne_nil hne
  by_cases hxs : xs = []
  · rw [hxs, printEntries_singleton]
    exact ⟨_, rfl⟩
  · rw [printEntries_cons hxs]
    exact ⟨_, rfl⟩

end Printed

/-! ## Reading what was printed -/

/-- Nothing of a number begins with a blank, a comma or a closing bracket. -/
theorem endsNumber_append {s t : Text} (hs : Blank s) (ht : EndsNumber t) : EndsNumber (s ++ t) := by
  cases s with
  | nil => exact ht
  | cons c s =>
    intro d hd
    obtain rfl := Option.some.inj hd
    have hc := hs c List.mem_cons_self
    have hval : c.val = 32 ∨ c.val = 9 ∨ c.val = 10 ∨ c.val = 13 := by
      unfold isSpace at hc
      simp only [Bool.or_eq_true, decide_eq_true_eq, or_assoc] at hc
      rcases hc with rfl | rfl | rfl | rfl <;> decide
    refine ⟨?_, by omega, by omega, by omega⟩
    rw [CodePoint.isDigit, Bool.and_eq_false_iff, decide_eq_false_iff_not]
    left
    omega

theorem endsNumber_cons {c : CodePoint} {t : Text}
    (hc : c.isDigit = false ∧ c.val ≠ 46 ∧ c.val ≠ 101 ∧ c.val ≠ 69) : EndsNumber (c :: t) := by
  intro d hd
  rwa [← Option.some.inj hd]

theorem endsNumber_nil : EndsNumber [] := fun _ hc => nomatch hc

/-- A value is read wherever it stands, with fuel for each of its code points. -/
def ReadBack (layout : Layout) (j : Json) : Prop :=
  ∀ (depth : Nat) (rest : Text) (fuel : Nat), EndsNumber rest →
    3 * (printAt layout depth j).length ≤ fuel + 2 →
      readValue fuel (printAt layout depth j ++ rest) = .ok (j, rest)

section ReadBack

variable {layout : Layout}

theorem readBack_of_number {j : Json} {t : Text} (hprint : ∀ depth, printAt layout depth j = t)
    (hshape : NumberShape t)
    (hread : ∀ rest, EndsNumber rest → readNumber (t ++ rest) = .ok (j, rest)) :
    ReadBack layout j := by
  intro depth rest fuel hrest hfuel
  rw [hprint] at hfuel ⊢
  obtain ⟨c, s, hcons, -⟩ := exists_numberShape_cons hshape
  have hlength : 0 < t.length := by rw [hcons, List.length_cons]; omega
  obtain ⟨fuel, rfl⟩ := Nat.exists_eq_add_one_of_ne_zero (by omega : fuel ≠ 0)
  have hword : readWord? (t ++ rest) = none := by
    obtain ⟨negative, d, s', rfl, hd, -⟩ := hshape
    rw [List.append_assoc, List.cons_append]
    exact readWord?_number hd _
  have hscalar : c.val ≠ 34 ∧ c.val ≠ 123 ∧ c.val ≠ 91 := by
    obtain ⟨negative, d, s', rfl, hd, -⟩ := hshape
    rw [CodePoint.isDigit, Bool.and_eq_true, decide_eq_true_eq, decide_eq_true_eq] at hd
    cases negative with
    | false =>
      obtain ⟨rfl, -⟩ := List.cons.inj hcons
      exact ⟨by omega, by omega, by omega⟩
    | true =>
      obtain ⟨rfl, -⟩ := List.cons.inj hcons
      exact ⟨by decide, by decide, by decide⟩
  rw [← hread rest hrest]
  rw [hcons, List.cons_append] at hword ⊢
  rw [readValue_scalar hscalar.1 hscalar.2.1 hscalar.2.2, hword]

theorem readBack_of_word {j : Json} {c : CodePoint} {t : Text}
    (hprint : ∀ depth, printAt layout depth j = c :: t)
    (hscalar : c.val ≠ 34 ∧ c.val ≠ 123 ∧ c.val ≠ 91)
    (hread : ∀ rest, readWord? (c :: t ++ rest) = some (j, rest)) : ReadBack layout j := by
  intro depth rest fuel _ hfuel
  rw [hprint, List.length_cons] at hfuel
  obtain ⟨fuel, rfl⟩ := Nat.exists_eq_add_one_of_ne_zero (by omega : fuel ≠ 0)
  have hword := hread rest
  rw [hprint]
  rw [List.cons_append] at hword ⊢
  rw [readValue_scalar hscalar.1 hscalar.2.1 hscalar.2.2, hword]

theorem readBack_float (x : Binary64) : ReadBack layout (.float x) := by
  have hprint : ∀ depth, printAt layout depth (.float x) = printFloat x := fun depth => by rw [printAt]
  cases x with
  | finite negative x =>
    exact readBack_of_number hprint (numberShape_printFloat negative x)
      fun rest hrest => readNumber_printFloat negative x hrest
  | infinity negative =>
    cases negative with
    | false => exact readBack_of_word hprint (by decide) fun rest => rfl
    | true => exact readBack_of_word hprint (by decide) fun rest => rfl
  | nan => exact readBack_of_word hprint (by decide) fun rest => rfl

theorem readBack_text {t : Text} (ht : layout.asciiOnly = true → t.PairFree) :
    ReadBack layout (.text t) := by
  intro depth rest fuel _ hfuel
  rw [printAt, printText, List.length_cons] at hfuel
  obtain ⟨fuel, rfl⟩ := Nat.exists_eq_add_one_of_ne_zero (by omega : fuel ≠ 0)
  rw [printAt, printText, List.cons_append, List.append_assoc, List.singleton_append, readValue_text,
    readText_printed ht]
  rfl

/-- A separator is a comma with blanks behind it. -/
theorem Layout.Standard.separator_eq (hl : layout.Standard) (depth : Nat) :
    ∃ s, separator layout depth = 44 :: s ∧ Blank s := by
  obtain ⟨s, hs, hblank⟩ := hl.comma
  refine ⟨s ++ lineBreak layout depth, by rw [separator, hs, List.cons_append], ?_⟩
  intro c hc
  rcases List.mem_append.mp hc with h | h
  · exact hblank c h
  · exact blank_lineBreak layout depth c h

theorem skipSpace_blank_cons {s t : Text} {c : CodePoint} (hs : Blank s) (hc : isSpace c = false) :
    skipSpace (s ++ c :: t) = c :: t := by
  rw [skipSpace_append hs, skipSpace_cons hc]

theorem length_printAt_pos (layout : Layout) (depth : Nat) (j : Json) :
    0 < (printAt layout depth j).length := by
  obtain ⟨c, t, hc, -⟩ := exists_printAt_cons layout depth j
  rw [hc, List.length_cons]
  omega

/-- Items are read up to the closing bracket, which may stand on a line of its own. -/
theorem readItem_printItems (hl : layout.Standard) {depth : Nat} {s rest : Text} (hs : Blank s)
    {items : List Json} (hne : items ≠ []) (h : ∀ x ∈ items, ReadBack layout x) {fuel : Nat}
    (hfuel : 3 * (printItems layout depth items).length ≤ fuel + 1) :
    readItem fuel (printItems layout depth items ++ (s ++ 93 :: rest)) = .ok (items, rest) := by
  -- every item takes two units of fuel, and its text with the separator is longer than one
  induction items generalizing fuel with
  | nil => exact absurd rfl hne
  | cons x xs ih =>
    have hx := h x List.mem_cons_self
    have hpos := length_printAt_pos layout depth x
    by_cases hxs : xs = []
    · subst hxs
      rw [printItems] at hfuel ⊢
      obtain ⟨fuel, rfl⟩ := Nat.exists_eq_add_one_of_ne_zero (by omega : fuel ≠ 0)
      have hends : EndsNumber (s ++ 93 :: rest) := endsNumber_append hs (endsNumber_cons (by decide))
      exact readItem_last (hx depth _ fuel hends (by omega)) (skipSpace_blank_cons hs (by decide))
    · obtain ⟨sep, hsep, hblank⟩ := hl.separator_eq depth
      obtain ⟨c, t, hc, hbegins⟩ := exists_printItems_cons layout depth hxs
      rw [printItems_cons hxs, hsep, List.length_append, List.cons_append, List.length_cons,
        List.length_append] at hfuel
      rw [printItems_cons hxs, hsep, List.append_assoc, List.cons_append, List.cons_append,
        List.append_assoc]
      obtain ⟨fuel, rfl⟩ := Nat.exists_eq_add_one_of_ne_zero (by omega : fuel ≠ 0)
      refine readItem_more (hx depth _ fuel (endsNumber_cons (by decide)) (by omega))
        (skipSpace_cons (by decide) _) ?_
      obtain ⟨fuel, rfl⟩ := Nat.exists_eq_add_one_of_ne_zero (by omega : fuel ≠ 0)
      have hshort : 3 * (printItems layout depth xs).length ≤ fuel + 1 := by omega
      have hread := ih hxs (fun y hy => h y (List.mem_cons_of_mem _ hy)) hshort
      rw [skipSpace_append hblank]
      -- behind the separator stands a value, so the list is not closed there
      rw [hc, List.cons_append] at hread ⊢
      rw [skipSpace_cons hbegins.1, readItems_begin hbegins.2.1, hread]

theorem readBack_list (hl : layout.Standard) {items : List Json} (h : ∀ x ∈ items, ReadBack layout x) :
    ReadBack layout (.list items) := by
  intro depth rest fuel _ hfuel
  -- an empty list is printed without a line break
  by_cases hne : items = []
  · subst hne
    have hprint : printAt layout depth (.list []) = [91, 93] := by rw [printAt]; rfl
    rw [hprint, List.length_cons, List.length_singleton] at hfuel
    obtain ⟨fuel, rfl⟩ := Nat.exists_eq_add_one_of_ne_zero (by omega : fuel ≠ 0)
    obtain ⟨fuel, rfl⟩ := Nat.exists_eq_add_one_of_ne_zero (by omega : fuel ≠ 0)
    rw [hprint, List.cons_append, List.singleton_append, readValue_list, skipSpace_cons (by decide),
      readItems_end]
    rfl
  · obtain ⟨c, t, hc, hbegins⟩ := exists_printItems_cons layout (depth + 1) hne
    rw [printAt_list hne, List.length_cons, List.length_append, List.length_append, List.length_append,
      List.length_singleton] at hfuel
    obtain ⟨fuel, rfl⟩ := Nat.exists_eq_add_one_of_ne_zero (by omega : fuel ≠ 0)
    obtain ⟨fuel, rfl⟩ := Nat.exists_eq_add_one_of_ne_zero (by omega : fuel ≠ 0)
    have hread : readItem fuel (printItems layout (depth + 1) items ++ (lineBreak layout depth ++ 93 :: rest)) =
        .ok (items, rest) :=
      readItem_printItems hl (blank_lineBreak layout depth) hne h (by omega)
    rw [printAt_list hne, List.cons_append, readValue_list, List.append_assoc,
      skipSpace_append (blank_lineBreak layout (depth + 1)), List.append_assoc, List.append_assoc,
      List.singleton_append]
    rw [hc, List.cons_append] at hread ⊢
    rw [skipSpace_cons hbegins.1, readItems_begin hbegins.2.1, hread]
    rfl

theorem printText_append (asciiOnly : Bool) (k t : Text) :
    printText asciiOnly k ++ t = 34 :: (k.flatMap (escapePoint asciiOnly) ++ 34 :: t) := by
  rw [printText, List.cons_append, List.append_assoc, List.singleton_append]

/-- Blanks in front of a value are not part of it. -/
theorem skipSpace_printAt {s : Text} (hs : Blank s) (depth : Nat) (x : Json) (t : Text) :
    skipSpace (s ++ (printAt layout depth x ++ t)) = printAt layout depth x ++ t := by
  obtain ⟨c, u, hc, hbegins⟩ := exists_printAt_cons layout depth x
  rw [hc, List.cons_append, skipSpace_blank_cons hs hbegins.1]

/-- Entries are read up to the closing brace, which may stand on a line of its own. -/
theorem readEntry_printEntries (hl : layout.Standard) {depth : Nat} {s rest : Text} (hs : Blank s)
    {entries : List (Text × Json)} (hne : entries ≠ [])
    (hkeys : ∀ e ∈ entries, layout.asciiOnly = true → e.1.PairFree)
    (h : ∀ e ∈ entries, ReadBack layout e.2) {fuel : Nat}
    (hfuel : 3 * (printEntries layout depth entries).length ≤ fuel + 1) :
    readEntry fuel (printEntries layout depth entries ++ (s ++ 125 :: rest)) = .ok (entries, rest) := by
  induction entries generalizing fuel with
  | nil => exact absurd rfl hne
  | cons e es ih =>
    obtain ⟨k, x⟩ := e
    have hk := hkeys (k, x) List.mem_cons_self
    have hx : ReadBack layout x := h (k, x) List.mem_cons_self
    have hpos := length_printAt_pos layout depth x
    obtain ⟨after, hafter, hblank⟩ := hl.colon
    by_cases hes : es = []
    · subst hes
      rw [printEntries_singleton, List.length_append, List.length_append, hafter, List.length_cons]
        at hfuel
      obtain ⟨fuel, rfl⟩ := Nat.exists_eq_add_one_of_ne_zero (by omega : fuel ≠ 0)
      have hends : EndsNumber (s ++ 125 :: rest) := endsNumber_append hs (endsNumber_cons (by decide))
      rw [printEntries_singleton, List.append_assoc, printText_append, hafter, List.append_assoc,
        List.cons_append]
      refine readEntry_last (readText_printed hk _) (skipSpace_cons (by decide) _) ?_
        (skipSpace_blank_cons hs (by decide))
      rw [skipSpace_printAt hblank]
      exact hx depth _ fuel hends (by omega)
    · obtain ⟨sep, hsep, hblank'⟩ := hl.separator_eq depth
      obtain ⟨t, ht⟩ := exists_printEntries_cons layout depth hes
      rw [printEntries_cons hes, List.length_append, List.length_append, hafter, List.length_cons,
        List.length_append, hsep, List.length_append, List.length_cons] at hfuel
      obtain ⟨fuel, rfl⟩ := Nat.exists_eq_add_one_of_ne_zero (by omega : fuel ≠ 0)
      rw [printEntries_cons hes, List.append_assoc, printText_append, hafter, hsep, List.append_assoc,
        List.append_assoc, List.append_assoc, List.cons_append, List.cons_append]
      refine readEntry_more (readText_printed hk _) (skipSpace_cons (by decide) _) ?_
        (skipSpace_cons (by decide) (sep ++ (printEntries layout depth es ++ (s ++ 125 :: rest)))) ?_
      · rw [skipSpace_printAt hblank]
        exact hx depth _ fuel (endsNumber_cons (by decide)) (by omega)
      · obtain ⟨fuel, rfl⟩ := Nat.exists_eq_add_one_of_ne_zero (by omega : fuel ≠ 0)
        have hshort : 3 * (printEntries layout depth es).length ≤ fuel + 1 := by omega
        have hread := ih hes (fun e he => hkeys e (List.mem_cons_of_mem _ he))
          (fun e he => h e (List.mem_cons_of_mem _ he)) hshort
        rw [skipSpace_append hblank']
        -- behind the separator stands a key, so the object is not closed there
        rw [ht, List.cons_append] at hread ⊢
        rw [skipSpace_cons (by decide), readEntries_begin (by decide), hread]

theorem readBack_object (hl : layout.Standard) {entries : List (Text × Json)}
    (hdistinct : (Table.keys entries).Nodup)
    (hkeys : ∀ e ∈ entries, layout.asciiOnly = true → e.1.PairFree)
    (h : ∀ e ∈ entries, ReadBack layout e.2) : ReadBack layout (.object entries) := by
  intro depth rest fuel _ hfuel
  -- an empty object is printed without a line break
  by_cases hne : entries = []
  · subst hne
    have hprint : printAt layout depth (.object []) = [123, 125] := by rw [printAt]; rfl
    rw [hprint, List.length_cons, List.length_singleton] at hfuel
    obtain ⟨fuel, rfl⟩ := Nat.exists_eq_add_one_of_ne_zero (by omega : fuel ≠ 0)
    obtain ⟨fuel, rfl⟩ := Nat.exists_eq_add_one_of_ne_zero (by omega : fuel ≠ 0)
    rw [hprint, List.cons_append, List.singleton_append, readValue_object, skipSpace_cons (by decide),
      readEntries_end]
    rfl
  · obtain ⟨t, ht⟩ := exists_printEntries_cons layout (depth + 1) hne
    rw [printAt_object hne, List.length_cons, List.length_append, List.length_append,
      List.length_append, List.length_singleton] at hfuel
    obtain ⟨fuel, rfl⟩ := Nat.exists_eq_add_one_of_ne_zero (by omega : fuel ≠ 0)
    obtain ⟨fuel, rfl⟩ := Nat.exists_eq_add_one_of_ne_zero (by omega : fuel ≠ 0)
    have hread : readEntry fuel (printEntries layout (depth + 1) entries ++
        (lineBreak layout depth ++ 125 :: rest)) = .ok (entries, rest) :=
      readEntry_printEntries hl (blank_lineBreak layout depth) hne hkeys h (by omega)
    rw [printAt_object hne, List.cons_append, readValue_object, List.append_assoc,
      skipSpace_append (blank_lineBreak layout (depth + 1)), List.append_assoc, List.append_assoc,
      List.singleton_append]
    rw [ht, List.cons_append] at hread ⊢
    rw [skipSpace_cons (by decide), readEntries_begin (by decide), hread]
    -- of distinct keys none is replaced by a later one
    simp only [Except.map, Table.ofEntries_of_nodup hdistinct]

/-- **Every well-formed value is read back**, by induction on the value: what the readers of items and
entries need to know of the values inside is that they are read back in turn. -/
theorem readBack_of_wellFormed (hl : layout.Standard) {j : Json}
    (h : WellFormed (fun t => layout.asciiOnly = true → t.PairFree) j) : ReadBack layout j := by
  induction h with
  | null => exact readBack_of_word (fun depth => by rw [printAt]; rfl) (by decide) fun rest => rfl
  | bool b =>
    cases b with
    | false => exact readBack_of_word (fun depth => by rw [printAt]; rfl) (by decide) fun rest => rfl
    | true => exact readBack_of_word (fun depth => by rw [printAt]; rfl) (by decide) fun rest => rfl
  | int short =>
    exact readBack_of_number (fun depth => by rw [printAt]) (numberShape_ofInt _)
      fun rest hrest => readNumber_ofInt short hrest
  | float x => exact readBack_float x
  | text holds => exact readBack_text holds
  | list _ ih => exact readBack_list hl ih
  | object distinct keys_hold _ ih => exact readBack_object hl distinct keys_hold ih

end ReadBack

/-! ## Whole texts -/

/-- **A value is read as it was printed**, in every layout in use, whatever blanks follow. Texts and keys must be
free of surrogate pairs where they are escaped. -/
theorem parse_print_append {layout : Layout} (hl : layout.Standard) {j : Json}
    (h : WellFormed (fun t => layout.asciiOnly = true → t.PairFree) j) {s : Text} (hs : Blank s) :
    parse (j.print layout ++ s) = .ok j := by
  obtain ⟨c, t, hc, hspace, -, -, hascii⟩ := exists_printAt_cons layout 0 j
  have hends : EndsNumber s := List.append_nil s ▸ endsNumber_append hs endsNumber_nil
  have hread := readBack_of_wellFormed hl h 0 s (fuelFor (printAt layout 0 j ++ s)) hends
    (by rw [fuelFor, List.length_append]; omega)
  have hrest : skipSpace s = [] := by
    have hskip := skipSpace_append hs []
    rwa [List.append_nil] at hskip
  have hmark : ¬ (c :: t ++ s).head? = some 0xFEFF := by
    intro heq
    have hval : c.val = 0xFEFF := congrArg Fin.val (Option.some.inj heq)
    omega
  rw [hc] at hread
  rw [print, hc, parse, if_neg hmark, List.cons_append, skipSpace_cons hspace, ← List.cons_append, hread]
  dsimp only [bind, Except.bind]
  rw [hrest]
  rfl

theorem parse_print {layout : Layout} (hl : layout.Standard) {j : Json}
    (h : WellFormed (fun t => layout.asciiOnly = true → t.PairFree) j) :
    parse (j.print layout) = .ok j :=
  List.append_nil (j.print layout) ▸ parse_print_append hl h (blank_replicate 0)

/-- The plain text of a value without surrogate pairs is read back. -/
theorem parse_render {j : Json} (h : WellFormed Text.PairFree j) : parse j.render = .ok j :=
  parse_print Layout.standard_plain (h.mono fun _ ht _ => ht)

/-- The compact text of any value is read back. -/
theorem parse_compact {p : Text → Prop} {j : Json} (h : WellFormed p j) :
    parse (j.print .compact) = .ok j :=
  parse_print Layout.standard_compact (h.mono fun _ _ hraw => absurd hraw Bool.false_ne_true)

/-- A whole number with more digits than a number may have is not read. -/
theorem parse_of_many_digits {digits : Text} (hdigits : WholePart digits) (hlong : digitLimit < digits.length) :
    parse digits = .error (.tooManyDigits digits.length) := by
  have hnumber : readNumber (signText false ++ (digits ++ [])) = _ :=
    readNumber_of_parts hdigits (fun _ hc => nomatch hc) (fraction_of_no_point fun _ hc => nomatch hc)
      (exponent_of_no_mark fun _ hc => nomatch hc)
  rw [signText, if_neg Bool.false_ne_true, List.nil_append, List.append_nil, if_pos ⟨rfl, rfl⟩,
    if_pos hlong] at hnumber
  obtain ⟨c, rest, rfl⟩ := List.exists_cons_of_ne_nil hdigits.notEmpty
  have hc : c.isDigit = true := hdigits.digits c List.mem_cons_self
  obtain ⟨hspace, -, -, hascii⟩ := beginsValue_of_isDigit hc
  rw [CodePoint.isDigit, Bool.and_eq_true, decide_eq_true_eq, decide_eq_true_eq] at hc
  have hmark : ¬ (c :: rest).head? = some 0xFEFF := by
    intro heq
    have hval : c.val = 0xFEFF := congrArg Fin.val (Option.some.inj heq)
    omega
  have hword : readWord? (c :: rest) = none :=
    @readWord?_number false c (hdigits.digits c List.mem_cons_self) rest
  have hread : readValue (fuelFor (c :: rest)) (c :: rest) = .error (.digits (c :: rest).length) := by
    rw [fuelFor, readValue_scalar (by omega) (by omega) (by omega), hword]
    exact hnumber
  rw [parse, if_neg hmark, skipSpace_cons hspace, hread]
  rfl

end Json

end SolidityBuild
