import SolidityBuild.Proofs.Json.QuotedText
import SolidityBuild.Proofs.Json.WellFormed
import SolidityBuild.Proofs.Narrated
import SolidityBuild.Proofs.Number.DecimalDigits
import SolidityBuild.Proofs.Table
import Mathlib.Data.List.TakeWhile

/-!
Whatever is read is well-formed. Readers take what they read off the front of a text, so what is left
is a suffix of it; whole numbers are refused beyond the limit of digits, and a repeated key keeps one
place. If the text itself has no surrogates, those in the texts that are read come from escapes only, and
then none of these texts has a surrogate pair: an escaped high surrogate with an escaped low one behind
it has been read as one code point.
-/

set_option autoImplicit false

namespace SolidityBuild

namespace Json

/-! ## Escapes -/

theorem hexDigits?_suffix {k value n : Nat} {t rest : Text}
    (h : hexDigits? k value t = some (n, rest)) : rest <:+ t := by
  induction k generalizing value t with
  | zero =>
    obtain ⟨-, rfl⟩ := Prod.mk.inj (Option.some.inj h)
    exact List.suffix_refl t
  | succ k ih =>
    cases t with
    | nil => cases h
    | cons c t =>
      rw [hexDigits?] at h
      split at h
      · exact (ih h).trans (List.suffix_cons c t)
      · cases h

theorem bounds_of_high {n : Nat} (h : (codePoint n).isHighSurrogate = true) :
    0xD800 ≤ n ∧ n ≤ 0xDBFF := by
  unfold codePoint at h
  split at h
  · rwa [CodePoint.isHighSurrogate, Bool.and_eq_true, decide_eq_true_eq, decide_eq_true_eq] at h
  · exact absurd h (by decide)

theorem bounds_of_low {n : Nat} (h : (codePoint n).isLowSurrogate = true) :
    0xDC00 ≤ n ∧ n ≤ 0xDFFF := by
  unfold codePoint at h
  split at h
  · rwa [CodePoint.isLowSurrogate, Bool.and_eq_true, decide_eq_true_eq, decide_eq_true_eq] at h
  · exact absurd h (by decide)

/-- A pair stands for a code point beyond the first plane. -/
theorem pair_ge {high low : Nat} (hhigh : (codePoint high).isHighSurrogate = true)
    (hlow : (codePoint low).isLowSurrogate = true) :
    0x10000 ≤ (codePoint (0x10000 + (high - 0xD800) * 0x400 + (low - 0xDC00))).val := by
  have hh := bounds_of_high hhigh
  have hl := bounds_of_low hlow
  rw [codePoint, dif_pos (by omega)]
  dsimp only
  omega

/-- An escape that is read does not end the text, and is the code point of its digits unless it is that
of a pair. -/
theorem unicodeEscape_ok {t rest : Text} {c : CodePoint} (h : unicodeEscape t = .ok (c, rest)) :
    t.drop 4 ≠ [] ∧ rest <:+ t ∧ ∃ n r, hexDigits? 4 0 t = some (n, r) ∧
      (c = codePoint n ∧ rest = r ∨ 0x10000 ≤ c.val) := by
  unfold unicodeEscape at h
  -- nothing behind the digits is an error
  split at h
  · exact nomatch h
  · next hempty =>
    refine ⟨by rwa [List.isEmpty_iff] at hempty, ?_⟩
    split at h
    · exact nomatch h
    · next n r hn =>
      have hr : r <:+ t := hexDigits?_suffix hn
      have hsingle : (Except.ok (codePoint n, r) : Except Stop (CodePoint × Text)) = .ok (c, rest) →
          rest <:+ t ∧ ∃ n r, hexDigits? 4 0 t = some (n, r) ∧
            (c = codePoint n ∧ rest = r ∨ 0x10000 ≤ c.val) := by
        intro heq
        obtain ⟨rfl, rfl⟩ := Prod.mk.inj (Except.ok.inj heq)
        exact ⟨hr, n, r, hn, Or.inl ⟨rfl, rfl⟩⟩
      -- a high surrogate looks for a low one behind it
      split at h
      · next hopens =>
        split at h
        · exact hsingle h
        · next r' hr' =>
          split at h
          · exact nomatch h
          · next m r'' hm =>
            split at h
            · next hlow =>
              obtain ⟨rfl, rfl⟩ := Prod.mk.inj (Except.ok.inj h)
              have hsuffix : r' <:+ r := by
                rw [Text.after?_eq_some_iff.mp hr']
                exact List.suffix_append _ r'
              exact ⟨(hexDigits?_suffix hm).trans (hsuffix.trans hr), n, r, hn,
                Or.inr (pair_ge hopens.1 hlow)⟩
            · exact hsingle h
      · exact hsingle h

/-- The text does not begin with an escape that is read as a low surrogate. -/
def ClosesNoPair (t : Text) : Prop :=
  ∀ t' c rest, t = 92 :: 117 :: t' → unicodeEscape t' = .ok (c, rest) → c.isLowSurrogate = false

/-- Behind an escape that is read as a high surrogate stands none that is read as a low one. -/
theorem closesNoPair_of_high {t rest : Text} {c : CodePoint} (h : unicodeEscape t = .ok (c, rest))
    (hc : c.isHighSurrogate = true) : ClosesNoPair rest := by
  rintro t' d rest' rfl hd
  by_contra hlow
  rw [Bool.not_eq_false] at hlow
  have hbounds := hlow
  rw [CodePoint.isLowSurrogate, Bool.and_eq_true, decide_eq_true_eq, decide_eq_true_eq] at hbounds
  obtain ⟨-, -, n, r, hn, hsingle⟩ := unicodeEscape_ok h
  obtain ⟨hdrop, -, m, r', hm, hsingle'⟩ := unicodeEscape_ok hd
  rw [CodePoint.isHighSurrogate, Bool.and_eq_true, decide_eq_true_eq, decide_eq_true_eq] at hc
  obtain ⟨rfl, rfl⟩ := hsingle.resolve_right (by omega)
  obtain ⟨rfl, -⟩ := hsingle'.resolve_right (by omega)
  -- both escapes are there, so the first would have been read together with the second
  have hopens : (codePoint n).isHighSurrogate = true ∧
      (!((92 :: 117 :: t' : Text).drop 6).isEmpty) = true := by
    rw [Bool.not_eq_true', List.isEmpty_eq_false_iff]
    refine ⟨?_, hdrop⟩
    rw [CodePoint.isHighSurrogate, Bool.and_eq_true, decide_eq_true_eq, decide_eq_true_eq]
    exact hc
  have hafter : Text.after? "\\u" (92 :: 117 :: t') = some t' := rfl
  unfold unicodeEscape at h
  split at h
  · cases h
  · rw [hn] at h
    dsimp only at h
    rw [if_pos hopens, hafter] at h
    dsimp only at h
    rw [hm] at h
    dsimp only at h
    rw [if_pos hlow] at h
    have hpair := congrArg Fin.val (Prod.mk.inj (Except.ok.inj h)).1
    have hge := pair_ge hopens.1 hlow
    omega

/-! ## Texts -/

theorem shortEscape?_scalar {e c : CodePoint} (h : shortEscape? e = some c) : c.isSurrogate = false := by
  unfold shortEscape? at h
  split_ifs at h with he
  · rw [← Option.some.inj h]
    rcases he with rfl | rfl | rfl <;> decide
  all_goals
    rw [← Option.some.inj h]
    decide

/-- What the reader of texts guarantees: what is left is a suffix, and from a text without surrogates no
surrogate pair is read. Whether the first code point that is read closes a pair depends on what stands
before it, so the guarantee says when it closes none. -/
structure TextRead (t s rest : Text) : Prop where
  suffix : rest <:+ t
  pairFree : t.Scalar → s.PairFree
  head : t.Scalar → ClosesNoPair t → ∀ c ∈ s.head?, c.isLowSurrogate = false

theorem textRead_nil {c : CodePoint} {t : Text} : TextRead (c :: t) [] t where
  suffix := List.suffix_cons c t
  pairFree _ := List.isChain_nil
  head _ _ _ hd := nomatch hd

/-- One code point more is read in front of what is read. -/
theorem TextRead.cons {t t' s rest : Text} {c : CodePoint} (h : TextRead t' s rest) (ht : t' <:+ t)
    (hhigh : t.Scalar → c.isHighSurrogate = true → ClosesNoPair t')
    (hlow : t.Scalar → ClosesNoPair t → c.isLowSurrogate = false) : TextRead t (c :: s) rest where
  suffix := h.suffix.trans ht
  pairFree hscalar := List.isChain_cons.mpr
    ⟨fun d hd hc => h.head (hscalar.of_suffix ht) (hhigh hscalar hc) d hd,
      h.pairFree (hscalar.of_suffix ht)⟩
  head hscalar hcloses d hd := by
    rw [← Option.some.inj hd]
    exact hlow hscalar hcloses

/-- A code point that is no surrogate opens and closes no pair. -/
theorem TextRead.cons_scalar {t t' s rest : Text} {c : CodePoint} (h : TextRead t' s rest)
    (ht : t' <:+ t) (hc : t.Scalar → c.isSurrogate = false) : TextRead t (c :: s) rest :=
  h.cons ht (fun hscalar hhigh => absurd hhigh (CodePoint.not_high_of_scalar (hc hscalar)))
    fun hscalar _ => CodePoint.not_low_of_scalar (hc hscalar)

theorem textTail_ok {start : Text} {fuel : Nat} {t s rest : Text}
    (h : textTail start fuel t = .ok (s, rest)) : TextRead t s rest := by
  induction fuel generalizing t s with
  | zero =>
    rw [textTail] at h
    cases h
  | succ fuel ih =>
    cases t with
    | nil =>
      rw [textTail] at h
      cases h
    | cons c t =>
      rw [textTail.eq_def] at h
      dsimp only at h
      -- the closing quote
      split at h
      · obtain ⟨rfl, rfl⟩ := Prod.mk.inj (Except.ok.inj h)
        exact textRead_nil
      -- an escape, with four digits or with one letter
      · split at h
        · next hslash =>
          split at h
          · cases h
          · next e t =>
            have ht : t <:+ c :: e :: t := (List.suffix_cons e t).trans (List.suffix_cons c _)
            split at h
            · next hu =>
              obtain ⟨⟨point, r⟩, hpoint, h⟩ := bind_eq_ok h
              obtain ⟨⟨more, r'⟩, hmore, h⟩ := bind_eq_ok h
              obtain ⟨rfl, rfl⟩ := Prod.mk.inj (Except.ok.inj h)
              refine (ih hmore).cons ((unicodeEscape_ok hpoint).2.1.trans ht)
                (fun _ hhigh => closesNoPair_of_high hpoint hhigh) ?_
              intro _ hcloses
              exact hcloses t point r (by rw [hslash, hu]; rfl) hpoint
            · split at h
              · cases h
              · next point hpoint =>
                obtain ⟨⟨more, r'⟩, hmore, h⟩ := bind_eq_ok h
                obtain ⟨rfl, rfl⟩ := Prod.mk.inj (Except.ok.inj h)
                exact (ih hmore).cons_scalar ht fun _ => shortEscape?_scalar hpoint
        -- a code point that stands for itself, unless it is a control character
        · split at h
          · cases h
          · obtain ⟨⟨more, r'⟩, hmore, h⟩ := bind_eq_ok h
            obtain ⟨rfl, rfl⟩ := Prod.mk.inj (Except.ok.inj h)
            exact (ih hmore).cons_scalar (List.suffix_cons c t) fun hscalar => hscalar c List.mem_cons_self

theorem readText_suffix {t s rest : Text} (h : readText t = .ok (s, rest)) : rest <:+ t :=
  (textTail_ok h).suffix

theorem readText_pairFree {t s rest : Text} (ht : t.Scalar) (h : readText t = .ok (s, rest)) :
    s.PairFree :=
  (textTail_ok h).pairFree ht

/-! ## Numbers

The parts of a number are named here, so that what is left behind each can be followed. -/

theorem digitRun_eq (t : Text) :
    digitRun t = (t.takeWhile CodePoint.isDigit, t.dropWhile CodePoint.isDigit) := by
  rw [digitRun, List.span_eq_takeWhile_dropWhile]

theorem digitRun_suffix (t : Text) : (digitRun t).2 <:+ t := by
  rw [digitRun_eq]
  exact List.dropWhile_suffix _

theorem isDigit_of_mem_digitRun {t : Text} {c : CodePoint} (hc : c ∈ (digitRun t).1) :
    c.isDigit = true := by
  rw [digitRun_eq] at hc
  exact List.mem_takeWhile_imp hc

theorem fraction_suffix (t : Text) : (fraction t).2 <:+ t := by
  cases t with
  | nil => exact List.suffix_refl _
  | cons c t =>
    unfold fraction
    dsimp only
    split
    · exact (digitRun_suffix t).trans (List.suffix_cons c t)
    · exact List.suffix_refl _

/-- The sign in front of an exponent, and what follows it. -/
def exponentSign (t : Text) : Bool × Text :=
  match t with
  | s :: t' => if s = '-' then (true, t') else if s = '+' then (false, t') else (false, t)
  | [] => (false, [])

theorem exponentSign_suffix (t : Text) : (exponentSign t).2 <:+ t := by
  unfold exponentSign
  split
  · split_ifs
    · exact List.suffix_cons _ _
    · exact List.suffix_cons _ _
    · exact List.suffix_refl _
  · exact List.suffix_refl _

theorem exponent_cons (c : CodePoint) (t : Text) : exponent (c :: t) =
    if c = 'e' ∨ c = 'E' then
      if (digitRun (exponentSign t).2).1 = [] then (none, c :: t)
      else
        (some (if (exponentSign t).1 then -(Text.digitsValue (digitRun (exponentSign t).2).1 : Int)
          else Text.digitsValue (digitRun (exponentSign t).2).1), (digitRun (exponentSign t).2).2)
    else (none, c :: t) := rfl

theorem exponent_suffix (t : Text) : (exponent t).2 <:+ t := by
  cases t with
  | nil => exact List.suffix_refl _
  | cons c t =>
    rw [exponent_cons]
    split
    · split
      · exact List.suffix_refl _
      · exact (digitRun_suffix _).trans ((exponentSign_suffix t).trans (List.suffix_cons c t))
    · exact List.suffix_refl _

/-- The sign in front of a number, and what follows it. -/
def numberSign (t : Text) : Bool × Text :=
  match t with
  | c :: t' => if c = '-' then (true, t') else (false, t)
  | [] => (false, [])

theorem numberSign_suffix (t : Text) : (numberSign t).2 <:+ t := by
  unfold numberSign
  split
  · split_ifs
    · exact List.suffix_cons _ _
    · exact List.suffix_refl _
  · exact List.suffix_refl _

/-- The digits in front of the fraction, of which there is one if it is a zero, and what follows them. -/
def wholeDigits (c : CodePoint) (t : Text) : Text × Text :=
  if c = '0' then ([c], t) else digitRun (c :: t)

theorem wholeDigits_suffix (c : CodePoint) (t : Text) : (wholeDigits c t).2 <:+ c :: t := by
  unfold wholeDigits
  split
  · exact List.suffix_cons c t
  · exact digitRun_suffix _

theorem wholeDigits_digits {c : CodePoint} {t : Text} (hc : c.isDigit = true) :
    (wholeDigits c t).1 ≠ [] ∧ ∀ d ∈ (wholeDigits c t).1, CodePoint.isDigit d = true := by
  unfold wholeDigits
  split
  · refine ⟨List.cons_ne_nil c [], fun d hd => ?_⟩
    rwa [List.mem_singleton.mp hd]
  · refine ⟨?_, fun d hd => isDigit_of_mem_digitRun hd⟩
    rw [digitRun_eq, List.takeWhile_cons_of_pos hc]
    exact List.cons_ne_nil _ _

/-- The number of its parts. -/
def numberOf (negative : Bool) (whole decimals : Text) (power : Option Int) (rest : Text) :
    Except Stop (Json × Text) :=
  if decimals = [] ∧ power = none then
    if digitLimit < whole.length then .error (.digits whole.length)
    else .ok (.int (if negative then -(Text.digitsValue whole : Int) else Text.digitsValue whole), rest)
  else .ok (.float (Binary64.ofDecimal negative (Text.digitsValue (whole ++ decimals))
    (power.getD 0 - decimals.length)), rest)

theorem readNumber_eq (start : Text) : readNumber start =
    match (numberSign start).2 with
    | [] => .error (.at .expectingValue start)
    | c :: t =>
      if !c.isDigit then .error (.at .expectingValue start)
      else numberOf (numberSign start).1 (wholeDigits c t).1 (fraction (wholeDigits c t).2).1
        (exponent (fraction (wholeDigits c t).2).2).1 (exponent (fraction (wholeDigits c t).2).2).2 := rfl

theorem numberOf_ok {negative : Bool} {whole decimals rest rest' : Text} {power : Option Int} {j : Json}
    (hne : whole ≠ []) (hdigits : ∀ c ∈ whole, CodePoint.isDigit c = true)
    (h : numberOf negative whole decimals power rest = .ok (j, rest')) :
    rest' = rest ∧ ∀ p, WellFormed p j := by
  unfold numberOf at h
  split at h
  · split at h
    · exact nomatch h
    · next hlimit =>
      obtain ⟨rfl, rfl⟩ := Prod.mk.inj (Except.ok.inj h)
      refine ⟨rfl, fun p => .int ?_⟩
      -- the limit is on the digits that are read, and no more are written
      have hlength := Text.length_decimalDigits_digitsValue hne hdigits
      have habs : ∀ n : Nat, (if negative then -(n : Int) else n).natAbs = n := by
        intro n
        split <;> omega
      rw [habs]
      omega
  · obtain ⟨rfl, rfl⟩ := Prod.mk.inj (Except.ok.inj h)
    exact ⟨rfl, fun p => .float _⟩

theorem readNumber_ok {start rest : Text} {j : Json} (h : readNumber start = .ok (j, rest)) :
    rest <:+ start ∧ ∀ p, WellFormed p j := by
  rw [readNumber_eq] at h
  split at h
  · exact nomatch h
  · next c t hsign =>
    have ht : c :: t <:+ start := by
      rw [← hsign]
      exact numberSign_suffix start
    split at h
    · exact nomatch h
    · next hdigit =>
      have hc : c.isDigit = true := by simpa using hdigit
      obtain ⟨hne, hdigits⟩ := wholeDigits_digits (t := t) hc
      obtain ⟨rfl, hwell⟩ := numberOf_ok hne hdigits h
      exact ⟨(exponent_suffix _).trans ((fraction_suffix _).trans ((wholeDigits_suffix c t).trans ht)),
        hwell⟩

/-! ## Words -/

theorem readWord?_ok {t rest : Text} {j : Json} (h : readWord? t = some (j, rest)) :
    rest <:+ t ∧ ∀ p, WellFormed p j := by
  obtain ⟨⟨word, value⟩, hmem, hfound⟩ := List.exists_of_findSome?_eq_some h
  obtain ⟨rest', hafter, heq⟩ := Option.map_eq_some_iff.mp hfound
  obtain ⟨rfl, rfl⟩ := Prod.mk.inj heq
  refine ⟨?_, fun p => ?_⟩
  · rw [Text.after?_eq_some_iff.mp hafter]
    exact List.suffix_append word rest'
  · simp only [words, List.mem_cons, Prod.mk.injEq, List.not_mem_nil, or_false] at hmem
    rcases hmem with ⟨-, rfl⟩ | ⟨-, rfl⟩ | ⟨-, rfl⟩ | ⟨-, rfl⟩ | ⟨-, rfl⟩ | ⟨-, rfl⟩
    · exact .null
    · exact .bool true
    · exact .bool false
    · exact .float _
    · exact .float _
    · exact .float _

/-! ## Values

The five readers call each other with one unit of fuel less, so what they guarantee together is proved
by induction on the fuel. The property `q` of texts to read from passes to suffixes, and gives every text
that is read the property `p`. -/

theorem skipSpace_suffix (t : Text) : skipSpace t <:+ t := List.dropWhile_suffix _

/-- What stands behind the first code point that is no space. -/
theorem suffix_of_skipSpace {c : CodePoint} {t rest : Text} (h : skipSpace t = c :: rest) : rest <:+ t := by
  have hcons : c :: rest <:+ t := h ▸ skipSpace_suffix t
  exact (List.suffix_cons c rest).trans hcons

/-- What the readers guarantee with some amount of fuel. -/
structure Sound (q p : Text → Prop) (fuel : Nat) : Prop where
  value : ∀ {t rest : Text} {j : Json}, q t → readValue fuel t = .ok (j, rest) →
    rest <:+ t ∧ WellFormed p j
  items : ∀ {first : Bool} {t rest : Text} {xs : List Json}, q t →
    readItems fuel first t = .ok (xs, rest) → rest <:+ t ∧ ∀ x ∈ xs, WellFormed p x
  item : ∀ {t rest : Text} {xs : List Json}, q t → readItem fuel t = .ok (xs, rest) →
    rest <:+ t ∧ ∀ x ∈ xs, WellFormed p x
  entries : ∀ {first : Bool} {t rest : Text} {es : List (Text × Json)}, q t →
    readEntries fuel first t = .ok (es, rest) → rest <:+ t ∧ ∀ e ∈ es, p e.1 ∧ WellFormed p e.2
  entry : ∀ {t rest : Text} {es : List (Text × Json)}, q t → readEntry fuel t = .ok (es, rest) →
    rest <:+ t ∧ ∀ e ∈ es, p e.1 ∧ WellFormed p e.2

section Sound

variable {q p : Text → Prop} {fuel : Nat}

theorem Sound.readValue_succ (h : Sound q p fuel) (hq : ∀ s t, s <:+ t → q t → q s)
    (hp : ∀ {t s rest}, q t → readText t = .ok (s, rest) → p s) {t rest : Text} {j : Json} (ht : q t)
    (hread : readValue (fuel + 1) t = .ok (j, rest)) : rest <:+ t ∧ WellFormed p j := by
  cases t with
  | nil =>
    rw [readValue] at hread
    exact nomatch hread
  | cons c t =>
    have htail : t <:+ c :: t := List.suffix_cons c t
    have hskip : skipSpace t <:+ c :: t := (skipSpace_suffix t).trans htail
    rw [readValue] at hread
    -- the first code point tells texts, objects and lists apart; the rest are words and numbers
    split at hread
    · obtain ⟨⟨s, r⟩, htext, hread⟩ := bind_eq_ok hread
      obtain ⟨rfl, rfl⟩ := Prod.mk.inj (Except.ok.inj hread)
      exact ⟨(readText_suffix htext).trans htail, .text (hp (hq _ _ htail ht) htext)⟩
    · split at hread
      · obtain ⟨⟨es, r⟩, hentries, hread⟩ := bind_eq_ok hread
        obtain ⟨rfl, rfl⟩ := Prod.mk.inj (Except.ok.inj hread)
        obtain ⟨hsuffix, hes⟩ := h.entries (hq _ _ hskip ht) hentries
        exact ⟨hsuffix.trans hskip, .object (Table.nodup_keys_ofEntries es)
          (fun e he => (hes e (Table.mem_ofEntries he)).1)
          fun e he => (hes e (Table.mem_ofEntries he)).2⟩
      · split at hread
        · obtain ⟨⟨xs, r⟩, hitems, hread⟩ := bind_eq_ok hread
          obtain ⟨rfl, rfl⟩ := Prod.mk.inj (Except.ok.inj hread)
          obtain ⟨hsuffix, hxs⟩ := h.items (hq _ _ hskip ht) hitems
          exact ⟨hsuffix.trans hskip, .list hxs⟩
        · split at hread
          · next found hword =>
            obtain rfl := Except.ok.inj hread
            obtain ⟨hsuffix, hwell⟩ := readWord?_ok hword
            exact ⟨hsuffix, hwell p⟩
          · obtain ⟨hsuffix, hwell⟩ := readNumber_ok hread
            exact ⟨hsuffix, hwell p⟩

theorem Sound.readItems_succ (h : Sound q p fuel) {first : Bool} {t rest : Text} {xs : List Json}
    (ht : q t) (hread : readItems (fuel + 1) first t = .ok (xs, rest)) :
    rest <:+ t ∧ ∀ x ∈ xs, WellFormed p x := by
  rw [readItems.eq_def] at hread
  dsimp only at hread
  split at hread
  · next c r =>
    split at hread
    · obtain ⟨rfl, rfl⟩ := Prod.mk.inj (Except.ok.inj hread)
      exact ⟨List.suffix_cons c r, fun x hx => absurd hx List.not_mem_nil⟩
    · exact h.item ht hread
  · exact h.item ht hread

theorem Sound.readItem_succ (h : Sound q p fuel) (hq : ∀ s t, s <:+ t → q t → q s) {t rest : Text}
    {xs : List Json} (ht : q t) (hread : readItem (fuel + 1) t = .ok (xs, rest)) :
    rest <:+ t ∧ ∀ x ∈ xs, WellFormed p x := by
  rw [readItem] at hread
  obtain ⟨⟨x, r⟩, hvalue, hread⟩ := bind_eq_ok hread
  obtain ⟨hr, hx⟩ := h.value ht hvalue
  dsimp only at hread
  split at hread
  · exact nomatch hread
  · next c r' hskip =>
    have hr' : r' <:+ t := (suffix_of_skipSpace hskip).trans hr
    -- the closing bracket, or a comma and further items
    split at hread
    · obtain ⟨rfl, rfl⟩ := Prod.mk.inj (Except.ok.inj hread)
      exact ⟨hr', fun y hy => by rwa [List.mem_singleton.mp hy]⟩
    · split at hread
      · obtain ⟨⟨more, r''⟩, hmore, hread⟩ := bind_eq_ok hread
        obtain ⟨rfl, rfl⟩ := Prod.mk.inj (Except.ok.inj hread)
        have hrest : skipSpace r' <:+ t := (skipSpace_suffix r').trans hr'
        obtain ⟨hsuffix, hxs⟩ := h.items (hq _ _ hrest ht) hmore
        exact ⟨hsuffix.trans hrest, List.forall_mem_cons.mpr ⟨hx, hxs⟩⟩
      · exact nomatch hread

theorem Sound.readEntries_succ (h : Sound q p fuel) {first : Bool} {t rest : Text}
    {es : List (Text × Json)} (ht : q t) (hread : readEntries (fuel + 1) first t = .ok (es, rest)) :
    rest <:+ t ∧ ∀ e ∈ es, p e.1 ∧ WellFormed p e.2 := by
  rw [readEntries.eq_def] at hread
  dsimp only at hread
  split at hread
  · next c r =>
    split at hread
    · obtain ⟨rfl, rfl⟩ := Prod.mk.inj (Except.ok.inj hread)
      exact ⟨List.suffix_cons c r, fun e he => absurd he List.not_mem_nil⟩
    · exact h.entry ht hread
  · exact h.entry ht hread

theorem Sound.readEntry_succ (h : Sound q p fuel) (hq : ∀ s t, s <:+ t → q t → q s)
    (hp : ∀ {t s rest}, q t → readText t = .ok (s, rest) → p s) {t rest : Text}
    {es : List (Text × Json)} (ht : q t) (hread : readEntry (fuel + 1) t = .ok (es, rest)) :
    rest <:+ t ∧ ∀ e ∈ es, p e.1 ∧ WellFormed p e.2 := by
  cases t with
  | nil =>
    rw [readEntry] at hread
    exact nomatch hread
  | cons quote t =>
    have htail : t <:+ quote :: t := List.suffix_cons quote t
    rw [readEntry] at hread
    split at hread
    · exact nomatch hread
    -- the key
    · obtain ⟨⟨k, r₁⟩, hkey, hread⟩ := bind_eq_ok hread
      have hr₁ : r₁ <:+ quote :: t := (readText_suffix hkey).trans htail
      dsimp only at hread
      split at hread
      · exact nomatch hread
      · next c r₂ hcolon =>
        have hr₂ : r₂ <:+ quote :: t := (suffix_of_skipSpace hcolon).trans hr₁
        split at hread
        · exact nomatch hread
        -- the value behind the colon
        · obtain ⟨⟨x, r₃⟩, hvalue, hread⟩ := bind_eq_ok hread
          have hskip : skipSpace r₂ <:+ quote :: t := (skipSpace_suffix r₂).trans hr₂
          obtain ⟨hr₃, hx⟩ := h.value (hq _ _ hskip ht) hvalue
          have hentry : p k ∧ WellFormed p x := ⟨hp (hq _ _ htail ht) hkey, hx⟩
          dsimp only at hread
          split at hread
          · exact nomatch hread
          · next d r₄ hend =>
            have hr₄ : r₄ <:+ quote :: t := (suffix_of_skipSpace hend).trans (hr₃.trans hskip)
            -- the closing brace, or a comma and further entries
            split at hread
            · obtain ⟨rfl, rfl⟩ := Prod.mk.inj (Except.ok.inj hread)
              exact ⟨hr₄, fun e he => by rwa [List.mem_singleton.mp he]⟩
            · split at hread
              · obtain ⟨⟨more, r₅⟩, hmore, hread⟩ := bind_eq_ok hread
                obtain ⟨rfl, rfl⟩ := Prod.mk.inj (Except.ok.inj hread)
                have hrest : skipSpace r₄ <:+ quote :: t := (skipSpace_suffix r₄).trans hr₄
                obtain ⟨hsuffix, hes⟩ := h.entries (hq _ _ hrest ht) hmore
                exact ⟨hsuffix.trans hrest, List.forall_mem_cons.mpr ⟨hentry, hes⟩⟩
              · exact nomatch hread

theorem sound (hq : ∀ s t, s <:+ t → q t → q s)
    (hp : ∀ {t s rest}, q t → readText t = .ok (s, rest) → p s) (fuel : Nat) : Sound q p fuel := by
  induction fuel with
  -- without fuel nothing is read
  | zero =>
    constructor
    · intro t rest j _ h
      rw [readValue] at h
      exact nomatch h
    · intro first t rest xs _ h
      rw [readItems] at h
      exact nomatch h
    · intro t rest xs _ h
      rw [readItem] at h
      exact nomatch h
    · intro first t rest es _ h
      rw [readEntries] at h
      exact nomatch h
    · intro t rest es _ h
      rw [readEntry] at h
      exact nomatch h
  | succ fuel ih =>
    exact ⟨ih.readValue_succ hq hp, ih.readItems_succ, ih.readItem_succ hq, ih.readEntries_succ,
      ih.readEntry_succ hq hp⟩

end Sound

/-! ## Whole texts -/

theorem readValue_of_parse {t : Text} {j : Json} (h : parse t = .ok j) :
    ∃ rest, readValue (fuelFor t) (skipSpace t) = .ok (j, rest) := by
  rw [parse] at h
  split at h
  · next value hresult =>
    obtain rfl := Except.ok.inj h
    split at hresult
    · exact nomatch hresult
    · obtain ⟨⟨value', rest⟩, hvalue, hresult⟩ := bind_eq_ok hresult
      dsimp only at hresult
      split at hresult
      · obtain rfl := Except.ok.inj hresult
        exact ⟨rest, hvalue⟩
      · exact nomatch hresult
  · exact nomatch h
  · exact nomatch h

/-- **Whatever is read is well-formed.** -/
theorem wellFormed_of_parse {t : Text} {j : Json} (h : parse t = .ok j) :
    WellFormed (fun _ => True) j := by
  obtain ⟨rest, hread⟩ := readValue_of_parse h
  exact ((sound (q := fun _ => True) (fun _ _ _ _ => trivial) (fun _ _ => trivial) _).value
    trivial hread).2

/-- **From a text without surrogates no surrogate pair is read.** -/
theorem pairFree_of_parse {t : Text} {j : Json} (ht : t.Scalar) (h : parse t = .ok j) :
    WellFormed Text.PairFree j := by
  obtain ⟨rest, hread⟩ := readValue_of_parse h
  exact ((sound (q := Text.Scalar) (fun _ _ hs hscalar => hscalar.of_suffix hs)
    (fun hscalar htext => readText_pairFree hscalar htext) _).value
      (ht.of_suffix (skipSpace_suffix t)) hread).2

end Json

end SolidityBuild
