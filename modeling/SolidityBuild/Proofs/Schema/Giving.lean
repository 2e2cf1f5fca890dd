import SolidityBuild.Proofs.Json.WellFormed
import SolidityBuild.Proofs.Number.DecimalDigits
import SolidityBuild.Proofs.Schema.Acceptance
import SolidityBuild.Schema.Scalar

/-!
What decoders give of well-formed values. Texts are texts of the value, tables have its distinct keys, and a whole
number has no more digits than a number may have, however it was written; so what is built of decoded parts can
be well-formed again.
-/

set_option autoImplicit false

namespace SolidityBuild

open Json

variable {α : Type} {p : Text → Prop} {Q : α → Prop}

/-! ## Whole numbers -/

namespace Schema

/-- Between the digits that are read there are underscores at most. -/
theorem separatedDigits?_spec {t digits : Text} (h : separatedDigits? t = some digits) :
    digits ≠ [] ∧ digits.length ≤ t.length ∧ ∀ c ∈ digits, CodePoint.isDigit c = true := by
  -- along the recursion: a digit is read with what follows it, and an underscore only before a digit
  fun_induction separatedDigits? t generalizing digits with
  | case1 => exact nomatch h
  | case2 c hc =>
    cases h
    exact ⟨List.cons_ne_nil _ _, le_refl _, List.forall_mem_singleton.mpr hc⟩
  | case3 => exact nomatch h
  | case4 => exact nomatch h
  | case5 c rest hc ih =>
    obtain ⟨more, hmore, rfl⟩ := Option.map_eq_some_iff.mp h
    obtain ⟨-, hlength, hdigits⟩ := ih hmore
    refine ⟨List.cons_ne_nil _ _, ?_, List.forall_mem_cons.mpr ⟨by simpa using hc, hdigits⟩⟩
    simp only [List.length_cons]
    omega
  | case6 c d rest hc hd ih =>
    obtain ⟨more, hmore, rfl⟩ := Option.map_eq_some_iff.mp h
    obtain ⟨-, hlength, hdigits⟩ := ih hmore
    refine ⟨List.cons_ne_nil _ _, ?_, List.forall_mem_cons.mpr ⟨by simpa using hc, hdigits⟩⟩
    simp only [List.length_cons] at hlength ⊢
    omega

theorem length_trimWhiteSpace_le (t : Text) : t.trimWhiteSpace.length ≤ t.length := by
  rw [Text.trimWhiteSpace, Text.trimRightBy, Text.trimLeftBy, List.length_reverse]
  calc ((t.dropWhile CodePoint.isWhiteSpace).reverse.dropWhile CodePoint.isWhiteSpace).length
      ≤ (t.dropWhile CodePoint.isWhiteSpace).reverse.length := (List.dropWhile_sublist _).length_le
    _ ≤ t.length := by
      rw [List.length_reverse]
      exact (List.dropWhile_sublist _).length_le

/-- A number that is read of a text has no more digits than the text is long. -/
theorem length_readInteger?_le {t : Text} {n : Int} (h : readInteger? t = some n) :
    (decimalDigits n.natAbs).length ≤ t.length := by
  -- the digits are found in what is left of the text without its white space, its sign and its fraction
  obtain ⟨negative, u, digits, hu, hdigits, rfl⟩ : ∃ (negative : Bool) (u digits : Text),
      u.length ≤ t.trimWhiteSpace.length ∧
      separatedDigits? (u.takeWhile fun c => c ≠ CodePoint.ofChar '.') = some digits ∧
      (if negative then -(Text.digitsValue digits : Int) else Text.digitsValue digits) = n := by
    rw [readInteger?] at h
    split at h
    rename_i negative u hunsigned
    dsimp only at h
    obtain ⟨-, h⟩ := Option.ite_none_right_eq_some.mp h
    obtain ⟨digits, hdigits, hvalue⟩ := Option.map_eq_some_iff.mp h
    refine ⟨negative, u, digits, ?_, hdigits, hvalue⟩
    cases hword : t.trimWhiteSpace with
    | nil =>
      rw [hword] at hunsigned
      cases hunsigned
      exact le_refl _
    | cons s rest =>
      rw [hword] at hunsigned
      dsimp only at hunsigned
      split_ifs at hunsigned
      · cases hunsigned
        exact Nat.le_succ _
      · cases hunsigned
        exact Nat.le_succ _
      · cases hunsigned
        exact le_refl _
  obtain ⟨hne, hshort, hall⟩ := separatedDigits?_spec hdigits
  have habs : (if negative then -(Text.digitsValue digits : Int) else Text.digitsValue digits).natAbs =
      Text.digitsValue digits := by
    split_ifs
    · rw [Int.natAbs_neg, Int.natAbs_natCast]
    · exact Int.natAbs_natCast _
  rw [habs]
  calc (decimalDigits (Text.digitsValue digits)).length
      ≤ digits.length := Text.length_decimalDigits_digitsValue hne hall
    _ ≤ (u.takeWhile fun c => c ≠ CodePoint.ofChar '.').length := hshort
    _ ≤ u.length := (List.takeWhile_sublist _).length_le
    _ ≤ t.trimWhiteSpace.length := hu
    _ ≤ t.length := length_trimWhiteSpace_le t

/-! ## Decoders -/

/-- What a decoder gives of a well-formed value has a property. -/
def Decoder.Gives (p : Text → Prop) (d : Decoder α) (Q : α → Prop) : Prop :=
  ∀ (j : Json) (a : α), WellFormed p j → d j = .value a → Q a

/-- Whatever is said of what is there, it is said of nothing. -/
theorem forall_of_none : ∀ a, (none : Option α) = some a → Q a := fun _ h => nomatch h

namespace Decoder

variable {d : Decoder α}

theorem gives_text : Gives p text p := by
  intro j t hj h
  obtain rfl := text_eq_value h
  cases hj with
  | text holds => exact holds

theorem gives_mapping : Gives p mapping fun t => WellFormed p (.object t) := by
  intro j t hj h
  obtain rfl := mapping_eq_value h
  exact hj

/-- A whole number has no more digits than a number may have, also if it was written as a text or with a point. -/
theorem gives_integer : Gives p integer fun n => WellFormed p (.int n) := by
  intro j n hj h
  have hword : ∀ {n : Int}, n.natAbs < 10 ^ 19 → WellFormed p (.int n) := fun hn =>
    .int (((length_decimalDigits_le_iff (by decide)).mpr hn).trans (by decide))
  cases j with
  | int m =>
    cases h
    exact hj
  | bool b =>
    cases h
    cases b <;> exact hword (by decide)
  | float x =>
    -- a float is taken only within the range of a word, whose numbers are short
    rw [integer, integerOfFloat] at h
    split at h
    · exact nomatch h
    · split at h
      · exact nomatch h
      · split_ifs at h with hrange
        · cases h
          rw [wordLimit] at hrange
          exact hword (by omega)
        · exact nomatch h
  | text t =>
    rw [integer] at h
    split_ifs at h with hlong
    · exact nomatch h
    · cases hread : readInteger? t with
      | none =>
        rw [hread] at h
        exact nomatch h
      | some m =>
        rw [hread] at h
        cases h
        exact .int ((length_readInteger?_le hread).trans (Nat.not_lt.mp hlong))
  | null | list items | object entries => exact nomatch h

theorem Gives.nullable (h : Gives p d Q) : Gives p (nullable d) fun found => ∀ a, found = some a → Q a := by
  intro j found hj hfound a ha
  rcases nullable_eq_value hfound with ⟨-, rfl⟩ | ⟨b, hb, rfl⟩
  · exact nomatch ha
  · cases ha
    exact h _ _ hj hb

theorem Gives.list (h : Gives p d Q) : Gives p (list d) fun as => ∀ a ∈ as, Q a := by
  intro j as hj has a ha
  obtain ⟨items, rfl, hitems⟩ := list_eq_value has
  obtain ⟨x, hx, hxa⟩ := exists_mem_of_forall₂ hitems ha
  exact h _ _ (hj.items_of_list x hx) hxa

theorem Gives.table (h : Gives p d Q) : Gives p (table d) (Table.Holds p Q) := by
  intro j t hj ht
  obtain ⟨entries, rfl, hentries⟩ := table_eq_value ht
  exact (wellFormed_object_iff.mp hj).of_forall₂ h hentries

end Decoder

/-- A field of a well-formed object has the property of what its decoder gives, if its default has it. -/
theorem Field.gives {f : Field} {t : Table Json} {default a : α} {d : Decoder α} (h : Decoder.Gives p d Q)
    (ht : WellFormed p (.object t)) (hdefault : Q default) (hread : f.withDefault t default d = .value a) : Q a := by
  rcases Field.read_cases hread with ⟨-, habsent⟩ | ⟨k, x, -, hx, ha⟩
  · cases habsent
    exact hdefault
  · exact h _ _ (ht.of_get? hx) ha

/-- So has a field that must be there. -/
theorem Field.gives_required {f : Field} {t : Table Json} {a : α} {d : Decoder α} (h : Decoder.Gives p d Q)
    (ht : WellFormed p (.object t)) (hread : f.required t d = .value a) : Q a := by
  rcases Field.read_cases hread with ⟨-, habsent⟩ | ⟨k, x, -, hx, ha⟩
  · exact nomatch habsent
  · exact h _ _ (ht.of_get? hx) ha

end Schema

end SolidityBuild
