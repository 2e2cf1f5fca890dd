import SolidityBuild.Json.Parser
import SolidityBuild.Json.Printer
import SolidityBuild.Proofs.Text.Runs
import SolidityBuild.Proofs.Text.Surrogates
import Mathlib.Tactic.Ring

/-!
Quoted texts are read as they were printed. Printing works code point by code point, and reading undoes
it code point by code point, with one exception: where everything beyond ASCII is escaped, a high
surrogate with a low one behind it is printed as the escapes of the pair are, and read as the one code
point that the pair stands for. So with escapes the statement is about texts without such pairs, and
without escapes it is about all texts.
-/

set_option autoImplicit false

namespace SolidityBuild

/-! ## Hexadecimal digits -/

theorem CodePoint.hexValue?_ofHexDigit (n : Nat) : (CodePoint.ofHexDigit n).hexValue? = some (n % 16) := by
  have hlt : n % 16 < 16 := Nat.mod_lt n (by omega)
  unfold CodePoint.ofHexDigit CodePoint.hexValue? CodePoint.isDigit
  by_cases hten : n % 16 < 10
  · have hle : 48 + n % 16 ≤ 57 := by omega
    simp [hten, hle]
  · have hnot : ¬ 87 + n % 16 ≤ 57 := by omega
    have hlow : 97 ≤ 87 + n % 16 := by omega
    have hhigh : 87 + n % 16 ≤ 102 := by omega
    simp [hten, hnot, hlow, hhigh]

theorem Text.length_hex (k n : Nat) : (Text.hex k n).length = k := by
  induction k generalizing n with
  | zero => rfl
  | succ k ih => rw [Text.hex, List.length_append, ih, List.length_singleton]

namespace Json

/-- One more digit can be read where reading stopped. -/
theorem hexDigits?_succ {k value v d : Nat} {c : CodePoint} {s t : Text}
    (h : hexDigits? k value s = some (v, c :: t)) (hc : c.hexValue? = some d) :
    hexDigits? (k + 1) value s = some (v * 16 + d, t) := by
  induction k generalizing value s with
  | zero =>
    obtain ⟨rfl, rfl⟩ := Prod.mk.inj (Option.some.inj h)
    simp only [hexDigits?, hc]
  | succ k ih =>
    cases s with
    | nil => exact nomatch h
    | cons e s =>
      cases he : e.hexValue? with
      | none => simp only [hexDigits?, he, reduceCtorEq] at h
      | some x =>
        simp only [hexDigits?, he] at h
        rw [hexDigits?]
        simp only [he]
        exact ih h

/-- The lowest digits of a number are read as they were written. -/
theorem hexDigits?_hex (k n value : Nat) (t : Text) :
    hexDigits? k value (Text.hex k n ++ t) = some (value * 16 ^ k + n % 16 ^ k, t) := by
  induction k generalizing n t with
  | zero => simp [hexDigits?, Text.hex, Nat.mod_one]
  | succ k ih =>
    rw [Text.hex, List.append_assoc, List.singleton_append]
    have hsplit : (value * 16 ^ k + n / 16 % 16 ^ k) * 16 + n % 16 =
        value * 16 ^ (k + 1) + n % 16 ^ (k + 1) := by
      rw [Nat.pow_succ', Nat.mod_mul]
      ring
    rw [hexDigits?_succ (ih (n / 16) _) (CodePoint.hexValue?_ofHexDigit n), hsplit]

theorem hexDigits?_hex_four {n : Nat} (hn : n < 0x10000) (t : Text) :
    hexDigits? 4 0 (Text.hex 4 n ++ t) = some (n, t) := by
  have hmod : n % 16 ^ 4 = n := Nat.mod_eq_of_lt hn
  rw [hexDigits?_hex, hmod, Nat.zero_mul, Nat.zero_add]

/-! ## Escapes with four digits -/

theorem escapeUnit_eq (n : Nat) (t : Text) : escapeUnit n ++ t = 92 :: 117 :: (Text.hex 4 n ++ t) := rfl

theorem codePoint_val (c : CodePoint) : codePoint c.val = c := by
  rw [codePoint, dif_pos c.isLt]

/-- The text does not begin with the escape of a low surrogate, and what it begins with, if it looks
like an escape, is one. -/
def NoLowEscape (t : Text) : Prop :=
  ∀ rest, Text.after? "\\u" t = some rest →
    ∃ n rest', hexDigits? 4 0 rest = some (n, rest') ∧ (codePoint n).isLowSurrogate = false

theorem noLowEscape_of_head {t : Text} (h : ∀ c : CodePoint, c ∈ t.head? → c.val ≠ 92) :
    NoLowEscape t := by
  intro rest hrest
  cases t with
  | nil => exact absurd hrest (by simp [Text.after?, Text.ofString])
  | cons c t =>
    have hc : ¬ CodePoint.ofChar '\\' = c := fun heq => h c rfl (by rw [← heq]; rfl)
    have hu : ("\\u" : Text) = [CodePoint.ofChar '\\', CodePoint.ofChar 'u'] := rfl
    rw [hu, Text.after?, if_neg hc] at hrest
    exact absurd hrest.symm (Option.some_ne_none rest)

theorem noLowEscape_backslash {c : CodePoint} {t : Text} (hc : c.val ≠ 117) :
    NoLowEscape (92 :: c :: t) := by
  intro rest hrest
  have hslash : CodePoint.ofChar '\\' = 92 := by decide
  have hne : ¬ CodePoint.ofChar 'u' = c := fun heq => hc (by rw [← heq]; rfl)
  have hu : ("\\u" : Text) = [CodePoint.ofChar '\\', CodePoint.ofChar 'u'] := rfl
  rw [hu, Text.after?, if_pos hslash, Text.after?, if_neg hne] at hrest
  exact absurd hrest.symm (Option.some_ne_none rest)

theorem after?_escapeUnit (n : Nat) (t : Text) :
    Text.after? "\\u" (escapeUnit n ++ t) = some (Text.hex 4 n ++ t) := by
  have hunit : escapeUnit n ++ t = ("\\u" : Text) ++ (Text.hex 4 n ++ t) := escapeUnit_eq n t
  exact Text.after?_eq_some_iff.mpr hunit

theorem noLowEscape_escapeUnit {n : Nat} (hn : n < 0x10000)
    (hlow : (codePoint n).isLowSurrogate = false) (t : Text) : NoLowEscape (escapeUnit n ++ t) := by
  intro rest hrest
  rw [after?_escapeUnit] at hrest
  obtain rfl := Option.some.inj hrest
  exact ⟨n, t, hexDigits?_hex_four hn t, hlow⟩

theorem drop_hex_four (n : Nat) (t : Text) : (Text.hex 4 n ++ t).drop 4 = t :=
  List.drop_left' (Text.length_hex 4 n)

/-- An escaped unit that does not open a pair is a code point of its own. -/
theorem unicodeEscape_single {n : Nat} {t : Text} (hn : n < 0x10000) (ht : t ≠ [])
    (hhigh : (codePoint n).isHighSurrogate = true → NoLowEscape t) :
    unicodeEscape (Text.hex 4 n ++ t) = .ok (codePoint n, t) := by
  have hempty : ¬ t.isEmpty = true := by rwa [List.isEmpty_iff]
  rw [unicodeEscape, drop_hex_four, if_neg hempty, hexDigits?_hex_four hn]
  dsimp only
  by_cases hopens : (codePoint n).isHighSurrogate = true ∧ (!(t.drop 6).isEmpty) = true
  · rw [if_pos hopens]
    cases hrest : Text.after? "\\u" t with
    | none => rfl
    | some rest =>
      obtain ⟨m, rest', hm, hlow⟩ := hhigh hopens.1 rest hrest
      simp only [hm, hlow, Bool.false_eq_true, if_false]
  · rw [if_neg hopens]

/-- The escapes of a surrogate pair are one code point. -/
theorem unicodeEscape_pair {c : CodePoint} {t : Text} (hc : 0x10000 ≤ c.val) (ht : t ≠ []) :
    unicodeEscape (Text.hex 4 (0xD800 + (c.val - 0x10000) / 0x400) ++
      (escapeUnit (0xDC00 + (c.val - 0x10000) % 0x400) ++ t)) = .ok (c, t) := by
  -- both halves are named, so that arithmetic does not see how they are computed
  obtain ⟨high, hhigh⟩ : ∃ n, n = 0xD800 + (c.val - 0x10000) / 0x400 := ⟨_, rfl⟩
  obtain ⟨low, hlow⟩ : ∃ n, n = 0xDC00 + (c.val - 0x10000) % 0x400 := ⟨_, rfl⟩
  have hlt := c.isLt
  have hhighs : (codePoint high).isHighSurrogate = true := by
    rw [codePoint, dif_pos (by omega), CodePoint.isHighSurrogate, Bool.and_eq_true, decide_eq_true_eq,
      decide_eq_true_eq]
    dsimp only
    omega
  have hlows : (codePoint low).isLowSurrogate = true := by
    rw [codePoint, dif_pos (by omega), CodePoint.isLowSurrogate, Bool.and_eq_true, decide_eq_true_eq,
      decide_eq_true_eq]
    dsimp only
    omega
  have hback : 0x10000 + (high - 0xD800) * 0x400 + (low - 0xDC00) = c.val := by omega
  have hdrop : (escapeUnit low ++ t).drop 6 = t := by
    rw [escapeUnit_eq, List.drop_succ_cons, List.drop_succ_cons, drop_hex_four]
  have hempty : ¬ (escapeUnit low ++ t).isEmpty = true := by
    rw [escapeUnit_eq]
    exact Bool.false_ne_true
  have hopens : (codePoint high).isHighSurrogate = true ∧
      (!((escapeUnit low ++ t).drop 6).isEmpty) = true := by
    rw [hdrop, Bool.not_eq_true', List.isEmpty_eq_false_iff]
    exact ⟨hhighs, ht⟩
  rw [← hhigh, ← hlow, unicodeEscape, drop_hex_four, if_neg hempty, hexDigits?_hex_four (by omega)]
  dsimp only
  rw [if_pos hopens, after?_escapeUnit]
  dsimp only
  rw [hexDigits?_hex_four (by omega)]
  dsimp only
  rw [if_pos hlows, hback, codePoint_val]

/-! ## One code point inside quotes -/

/-- What reading a text gives once one more code point stands in front of it. -/
def consPoint (c : CodePoint) (r : Except Stop (Text × Text)) : Except Stop (Text × Text) :=
  r.map fun found => (c :: found.1, found.2)

theorem textTail_plain {start s : Text} {fuel : Nat} {c : CodePoint} (hquote : c.val ≠ 34)
    (hslash : c.val ≠ 92) (hcontrol : 32 ≤ c.val) :
    textTail start (fuel + 1) (c :: s) = consPoint c (textTail start fuel s) := by
  have h34 : ¬ c = CodePoint.ofChar '"' := fun heq => hquote (by rw [heq]; rfl)
  have h92 : ¬ c = CodePoint.ofChar '\\' := fun heq => hslash (by rw [heq]; rfl)
  rw [textTail.eq_def]
  dsimp only
  rw [if_neg h34, if_neg h92, if_neg (by omega)]
  cases textTail start fuel s <;> rfl

theorem textTail_short {start s : Text} {fuel : Nat} {e c : CodePoint} (he : e.val ≠ 117)
    (hc : shortEscape? e = some c) :
    textTail start (fuel + 1) (92 :: e :: s) = consPoint c (textTail start fuel s) := by
  have h34 : ¬ (92 : CodePoint) = CodePoint.ofChar '"' := by decide
  have h92 : (92 : CodePoint) = CodePoint.ofChar '\\' := by decide
  have h117 : ¬ e = CodePoint.ofChar 'u' := fun heq => he (by rw [heq]; rfl)
  rw [textTail, if_neg h34, if_pos h92]
  dsimp only
  rw [if_neg h117, hc]
  cases textTail start fuel s <;> rfl

theorem textTail_unicode {start s t : Text} {fuel : Nat} {c : CodePoint}
    (hc : unicodeEscape t = .ok (c, s)) :
    textTail start (fuel + 1) (92 :: 117 :: t) = consPoint c (textTail start fuel s) := by
  have h34 : ¬ (92 : CodePoint) = CodePoint.ofChar '"' := by decide
  have h92 : (92 : CodePoint) = CodePoint.ofChar '\\' := by decide
  have h117 : (117 : CodePoint) = CodePoint.ofChar 'u' := by decide
  rw [textTail, if_neg h34, if_pos h92]
  dsimp only
  rw [if_pos h117, hc]
  change (textTail start fuel s >>= fun found => pure (c :: found.1, found.2)) = _
  cases textTail start fuel s <;> rfl

/-- The four shapes in which a code point is printed: the escape with one letter, the code point itself,
the escape of its number, and the escapes of its pair. -/
inductive Escaped (asciiOnly : Bool) (c : CodePoint) : Text → Prop where
  | short {e : CodePoint} (letter : e.val ≠ 117) (means : shortEscape? e = some c) :
      Escaped asciiOnly c [92, e]
  | plain (quote : c.val ≠ 34) (slash : c.val ≠ 92) (control : 32 ≤ c.val)
      (ascii : asciiOnly = true → c.val < 127) : Escaped asciiOnly c [c]
  | unit (small : c.val < 0x10000) (needed : c.val < 32 ∨ asciiOnly = true) :
      Escaped asciiOnly c (escapeUnit c.val)
  | pair (large : 0x10000 ≤ c.val) (needed : asciiOnly = true) :
      Escaped asciiOnly c (escapeUnit (0xD800 + (c.val - 0x10000) / 0x400) ++
        escapeUnit (0xDC00 + (c.val - 0x10000) % 0x400))

theorem escaped_escapePoint (asciiOnly : Bool) (c : CodePoint) :
    Escaped asciiOnly c (escapePoint asciiOnly c) := by
  have hval : ∀ d : CodePoint, ¬ c = d → c.val ≠ d.val := fun d hd heq => hd (Fin.ext heq)
  unfold escapePoint
  -- the code points with a letter of their own
  by_cases hquote : c = CodePoint.ofChar '"'
  · rw [if_pos hquote, hquote]
    exact .short (e := 34) (by decide) (by decide)
  rw [if_neg hquote]
  by_cases hslash : c = CodePoint.ofChar '\\'
  · rw [if_pos hslash, hslash]
    exact .short (e := 92) (by decide) (by decide)
  rw [if_neg hslash]
  by_cases hfeed : c = CodePoint.ofChar '\n'
  · rw [if_pos hfeed, hfeed]
    exact .short (e := 110) (by decide) (by decide)
  rw [if_neg hfeed]
  by_cases hreturn : c = CodePoint.ofChar '\r'
  · rw [if_pos hreturn, hreturn]
    exact .short (e := 114) (by decide) (by decide)
  rw [if_neg hreturn]
  by_cases htab : c = CodePoint.ofChar '\t'
  · rw [if_pos htab, htab]
    exact .short (e := 116) (by decide) (by decide)
  rw [if_neg htab]
  by_cases hpage : c.val = 12
  · rw [if_pos hpage, show c = 12 from Fin.ext hpage]
    exact .short (e := 102) (by decide) (by decide)
  rw [if_neg hpage]
  by_cases hback : c.val = 8
  · rw [if_pos hback, show c = 8 from Fin.ext hback]
    exact .short (e := 98) (by decide) (by decide)
  rw [if_neg hback]
  -- the others go by their size
  by_cases hcontrol : c.val < 32
  · rw [if_pos hcontrol]
    exact .unit (by omega) (Or.inl hcontrol)
  rw [if_neg hcontrol]
  by_cases hplain : c.val < 127 ∨ (!asciiOnly) = true
  · rw [if_pos hplain]
    refine .plain (hval _ hquote) (hval _ hslash) (by omega) ?_
    intro hascii
    rw [hascii] at hplain
    exact hplain.resolve_right Bool.false_ne_true
  rw [if_neg hplain]
  have hascii : asciiOnly = true := by
    by_contra hraw
    exact hplain (Or.inr (by rw [Bool.eq_false_iff.mpr hraw]; rfl))
  by_cases hsmall : c.val < 0x10000
  · rw [if_pos hsmall]
    exact .unit hsmall (Or.inr hascii)
  · rw [if_neg hsmall]
    exact .pair (by omega) hascii

/-- **A code point is read as it was printed**, whatever follows it inside the quotes, unless it is a
high surrogate in front of an escaped low one. -/
theorem textTail_escapePoint {asciiOnly : Bool} {start s : Text} {fuel : Nat} (c : CodePoint)
    (hs : s ≠ []) (hhigh : asciiOnly = true → c.isHighSurrogate = true → NoLowEscape s) :
    textTail start (fuel + 1) (escapePoint asciiOnly c ++ s) =
      consPoint c (textTail start fuel s) := by
  have hshape := escaped_escapePoint asciiOnly c
  generalize escapePoint asciiOnly c = printed at hshape ⊢
  cases hshape with
  | short letter means => exact textTail_short letter means
  | plain quote slash control ascii => exact textTail_plain quote slash control
  | unit small needed =>
    -- without escapes only control characters come here, and they open no pair
    have hnext : (codePoint c.val).isHighSurrogate = true → NoLowEscape s := by
      intro hopens
      rw [codePoint_val] at hopens
      rcases needed with hlt | hascii
      · rw [CodePoint.isHighSurrogate, Bool.and_eq_true, decide_eq_true_eq] at hopens
        omega
      · exact hhigh hascii hopens
    have hescape := unicodeEscape_single (t := s) small hs hnext
    rw [codePoint_val] at hescape
    rw [escapeUnit_eq]
    exact textTail_unicode hescape
  | pair large needed =>
    rw [List.append_assoc, escapeUnit_eq]
    exact textTail_unicode (unicodeEscape_pair large hs)

/-- What is printed for a code point that closes no pair does not begin with the escape of a low
surrogate. -/
theorem noLowEscape_escapePoint {asciiOnly : Bool} {c : CodePoint} (s : Text)
    (hc : c.isLowSurrogate = false) : NoLowEscape (escapePoint asciiOnly c ++ s) := by
  have hshape := escaped_escapePoint asciiOnly c
  generalize escapePoint asciiOnly c = printed at hshape ⊢
  cases hshape with
  | short letter means => exact noLowEscape_backslash letter
  | plain quote slash control ascii =>
    refine noLowEscape_of_head fun d hd => ?_
    rwa [← Option.some.inj hd]
  | unit small needed => exact noLowEscape_escapeUnit small (by rwa [codePoint_val]) s
  -- the first escape of a pair is that of a high surrogate
  | pair large needed =>
    have hlt := c.isLt
    rw [List.append_assoc]
    refine noLowEscape_escapeUnit (by omega) ?_ _
    rw [codePoint, dif_pos (by omega), CodePoint.isLowSurrogate, Bool.and_eq_false_iff,
      decide_eq_false_iff_not]
    left
    dsimp only
    omega

/-! ## Quoted texts -/

theorem textTail_printed {asciiOnly : Bool} {t : Text} (ht : asciiOnly = true → Text.PairFree t)
    (start rest : Text) {fuel : Nat} (hfuel : t.length < fuel) :
    textTail start fuel (t.flatMap (escapePoint asciiOnly) ++ 34 :: rest) = .ok (t, rest) := by
  induction t generalizing fuel with
  | nil =>
    obtain ⟨fuel, rfl⟩ := Nat.exists_eq_add_one_of_ne_zero (by omega : fuel ≠ 0)
    rfl
  | cons c t ih =>
    obtain ⟨fuel, rfl⟩ := Nat.exists_eq_add_one_of_ne_zero (by omega : fuel ≠ 0)
    have htail : asciiOnly = true → Text.PairFree t := fun hascii => (ht hascii).tail
    -- behind a high surrogate stands the closing quote, or a code point that closes no pair
    have hnext : asciiOnly = true → c.isHighSurrogate = true →
        NoLowEscape (t.flatMap (escapePoint asciiOnly) ++ 34 :: rest) := by
      intro hascii hopens
      cases t with
      | nil => exact noLowEscape_of_head (by intro d hd; rw [← Option.some.inj hd]; decide)
      | cons d t =>
        rw [List.flatMap_cons, List.append_assoc]
        exact noLowEscape_escapePoint _ ((List.isChain_cons_cons.mp (ht hascii)).1 hopens)
    have hless : t.length < fuel := by
      rw [List.length_cons] at hfuel
      omega
    rw [List.flatMap_cons, List.append_assoc, textTail_escapePoint c (by simp) hnext, ih htail hless]
    rfl

theorem length_escapePoint_pos (asciiOnly : Bool) (c : CodePoint) :
    0 < (escapePoint asciiOnly c).length := by
  have hshape := escaped_escapePoint asciiOnly c
  generalize escapePoint asciiOnly c = printed at hshape ⊢
  cases hshape <;> exact Nat.succ_pos _

theorem length_le_flatMap_escapePoint (asciiOnly : Bool) (t : Text) :
    t.length ≤ (t.flatMap (escapePoint asciiOnly)).length := by
  induction t with
  | nil => exact Nat.zero_le _
  | cons c t ih =>
    have hpos := length_escapePoint_pos asciiOnly c
    rw [List.flatMap_cons, List.length_append, List.length_cons]
    omega

/-- **A text is read as it was printed**, if it has no surrogate pair or is not escaped. -/
theorem readText_printed {asciiOnly : Bool} {t : Text} (ht : asciiOnly = true → Text.PairFree t)
    (rest : Text) : readText (t.flatMap (escapePoint asciiOnly) ++ 34 :: rest) = .ok (t, rest) := by
  refine textTail_printed ht _ rest ?_
  have hlength := length_le_flatMap_escapePoint asciiOnly t
  rw [List.length_append]
  omega

end Json

end SolidityBuild
