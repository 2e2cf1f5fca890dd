import SolidityBuild.Yaml.Document
import Mathlib.Data.List.InsertIdx

/-!
Faults of the tokens of a YAML text. A fault says that the text is malformed, but for two: an escape in a quoted
scalar may name a number beyond the last code point, and a directive may name a version of too many digits. Further
faults arise only where a scalar is read as a value.

`Accounted` is what is proved of every function that reads: it is kept by what the functions are put together from.
-/

set_option autoImplicit false

namespace SolidityBuild

namespace Yaml

/-- How a fault arises when a text is read. -/
inductive Fault.Arises : Fault → Prop where
  | malformed (how : Malformation) : Arises (.malformed how)
  /-- An escape names a number beyond the last code point. -/
  | escape {number : Nat} (beyond : 0x110000 ≤ number) : Arises (.noCodePoint number)
  /-- A directive names a version of too many digits. -/
  | version {digits : Nat} (many : Json.digitLimit < digits) : Arises (.tooManyDigits digits)
  /-- A scalar spells no value of the kind that its tag asks for. -/
  | scalar {tag text : Text} {fault : Fault} (unread : readScalar tag text = .error fault) : Arises fault

/-- What is said of the outcome of a reading: a property of what is read, or that the fault arises in one of these
ways. -/
def Ends {α : Type} (P : α → Prop) : Except Fault α → Prop
  | .ok a => P a
  | .error fault => fault.Arises

/-- A reading of which nothing is said but where its faults arise. -/
abbrev Accounted {α : Type} (x : Except Fault α) : Prop := Ends (fun _ => True) x

namespace Ends

variable {α β : Type} {P : α → Prop} {Q : β → Prop} {x y : Except Fault α}

theorem pure {a : α} (h : P a) : Ends P (Pure.pure a : Except Fault α) := h

theorem error {fault : Fault} (h : fault.Arises) : Ends P (.error fault : Except Fault α) := h

theorem malformed (how : Malformation) : Ends P (Yaml.malformed how : Except Fault α) :=
  Fault.Arises.malformed how

theorem bind {f : α → Except Fault β} (hx : Ends P x) (hf : ∀ a, P a → Ends Q (f a)) : Ends Q (x >>= f) := by
  cases x with
  | error fault => exact hx
  | ok a => exact hf a hx

theorem map {f : α → β} (hx : Ends P x) (hf : ∀ a, P a → Q (f a)) : Ends Q (x.map f) := by
  cases x with
  | error fault => exact hx
  | ok a => exact hf a hx

theorem ite {p : Prop} [Decidable p] (hx : Ends P x) (hy : Ends P y) : Ends P (if p then x else y) := by
  split
  · exact hx
  · exact hy

theorem mapM {f : α → Except Fault β} (hf : ∀ a, Accounted (f a)) (as : List α) : Accounted (as.mapM f) := by
  induction as with
  | nil => exact trivial
  | cons a as ih =>
    rw [List.mapM_cons]
    exact (hf a).bind fun _ _ => ih.bind fun _ _ => pure trivial

end Ends

/-! ## The texts of scalars, names and tags -/

theorem accounted_quotedBreaks (fuel : Nat) (c : Cursor) : Accounted (quotedBreaks fuel c) := by
  induction fuel generalizing c with
  | zero => exact .malformed _
  | succ fuel ih =>
    rw [quotedBreaks]
    refine .ite (.malformed _) ?_
    dsimp only
    split
    · exact .pure trivial
    · exact (ih _).map fun _ _ => trivial

/-- An escape is unknown, or names a number beyond the last code point. -/
theorem accounted_escape (c : Cursor) : Accounted (escape c) := by
  unfold escape
  split
  · exact .pure trivial
  -- the code point of a number: without its digits the text is malformed
  · split
    · exact .malformed _
    · split
      · exact .pure trivial
      · next hbeyond => exact .error (.escape (Nat.not_lt.mp hbeyond))
  · split
    · exact .malformed _
    · exact accounted_quotedBreaks _ _

theorem accounted_quotedGap (c : Cursor) : Accounted (quotedGap c) := by
  rw [quotedGap]
  dsimp only
  split
  · exact (accounted_quotedBreaks _ _).map fun _ _ => trivial
  · exact .ite (.malformed _) (.pure trivial)

theorem accounted_quotedFrom (double : Bool) (fuel : Nat) (c : Cursor) : Accounted (quotedFrom double fuel c) := by
  induction fuel generalizing c with
  | zero => exact .malformed _
  | succ fuel ih =>
    rw [quotedFrom]
    refine .ite ((ih _).map fun _ _ => trivial) (.ite (.pure trivial) ?_)
    refine .ite ?_ (.ite ?_ ((ih _).map fun _ _ => trivial))
    · exact (accounted_escape _).bind fun _ _ => (ih _).map fun _ _ => trivial
    · exact (accounted_quotedGap _).bind fun _ _ => (ih _).map fun _ _ => trivial

theorem accounted_quotedScalar (double : Bool) (c : Cursor) : Accounted (quotedScalar double c) :=
  accounted_quotedFrom double _ _

theorem accounted_incrementAt (c : Cursor) : Accounted (incrementAt c) :=
  .ite (.pure trivial) (.ite (.malformed _) (.pure trivial))

theorem accounted_blockHeader (c : Cursor) : Accounted (blockHeader c) := by
  rw [blockHeader]
  split
  · refine (accounted_incrementAt _).bind fun _ _ => ?_
    exact .ite (.pure trivial) (.malformed _)
  · refine (accounted_incrementAt _).bind fun (increment, _) _ => ?_
    cases increment with
    | none => exact .ite (.pure trivial) (.malformed _)
    | some n => exact .ite (.pure trivial) (.malformed _)

theorem accounted_ignoredLine (how : Malformation) (c : Cursor) : Accounted (ignoredLine how c) := by
  rw [ignoredLine]
  refine .ite (.malformed _) ?_
  split <;> exact .pure trivial

theorem accounted_blockScalar (folded : Bool) (parent : Int) (c : Cursor) :
    Accounted (blockScalar folded parent c) := by
  rw [blockScalar]
  refine (accounted_blockHeader _).bind fun _ _ => (accounted_ignoredLine _ _).bind fun _ _ => ?_
  exact .ite (.pure trivial) (.pure trivial)

theorem accounted_name (how : Malformation) (c : Cursor) : Accounted (name how c) := by
  rw [name]
  split
  · exact .malformed _
  · exact .pure trivial

theorem accounted_anchorName (c : Cursor) : Accounted (anchorName c) :=
  (accounted_name _ _).bind fun _ _ => .ite (.pure trivial) (.malformed _)

theorem accounted_escapedOctets (fuel : Nat) (c : Cursor) : Accounted (escapedOctets fuel c) := by
  induction fuel generalizing c with
  | zero => exact .pure trivial
  | succ fuel ih =>
    rw [escapedOctets]
    refine .ite (.pure trivial) ?_
    split
    · exact .malformed _
    · exact (ih _).map fun _ _ => trivial

theorem accounted_tagTail (fuel : Nat) (c : Cursor) : Accounted (tagTail fuel c) := by
  induction fuel generalizing c with
  | zero => exact .pure trivial
  | succ fuel ih =>
    rw [tagTail]
    refine .ite ((accounted_escapedOctets _ _).bind fun (octets, _) _ => ?_) (.pure trivial)
    dsimp only
    split
    · exact .malformed _
    · exact (ih _).bind fun _ _ => .pure trivial

theorem accounted_tagSuffix (c : Cursor) : Accounted (tagSuffix c) :=
  .ite (accounted_tagTail _ _) (.malformed _)

theorem accounted_tagHandle (c : Cursor) : Accounted (tagHandle c) :=
  .ite (.malformed _) (.ite (.pure trivial) (.ite (.pure trivial) (.malformed _)))

theorem accounted_tag (c : Cursor) : Accounted (tag c) := by
  unfold tag
  refine .ite ?_ (.ite ?_ (.ite ?_ ?_))
  · refine (accounted_tagSuffix _).bind fun _ _ => .ite ?_ (.malformed _)
    exact .ite (.pure trivial) (.malformed _)
  · exact .ite (.pure trivial) (.malformed _)
  · refine (accounted_tagHandle _).bind fun _ _ => (accounted_tagSuffix _).bind fun _ _ => ?_
    exact .ite (.pure trivial) (.malformed _)
  · refine (accounted_tagSuffix _).bind fun _ _ => ?_
    exact .ite (.pure trivial) (.malformed _)

/-! ## Tokens -/

/-- A token that, if the text breaks off with it, does so with a fault that arises in one of these ways. -/
def Token.Sound (t : Token) : Prop := ∀ fault, t = .broken fault → fault.Arises

/-- Tokens that are sound, as they are read so far. -/
def Lexer.Intact (x : Lexer) : Prop := ∀ t ∈ x.tokens, t.Sound

namespace Lexer

/-! ### Directives -/

/-- A version has no number, or one of too many digits. -/
theorem accounted_versionNumber (c : Cursor) : Accounted (versionNumber c) := by
  rw [versionNumber]
  split
  · exact .malformed _
  · split
    · next hmany => exact .error (.version hmany)
    · exact .pure trivial

theorem accounted_versionDirective (c : Cursor) : Accounted (versionDirective c) := by
  rw [versionDirective]
  refine (accounted_versionNumber _).bind fun _ _ => .ite (.malformed _) ?_
  exact (accounted_versionNumber _).bind fun _ _ => .ite (.pure trivial) (.malformed _)

theorem accounted_tagDirective (c : Cursor) : Accounted (tagDirective c) := by
  rw [tagDirective]
  refine (accounted_tagHandle _).bind fun _ _ => .ite (.malformed _) ?_
  exact (accounted_tagSuffix _).bind fun _ _ => .ite (.pure trivial) (.malformed _)

theorem accounted_directive (c : Cursor) : Accounted (directive c) := by
  have hline : ∀ (found : Directive) (c : Cursor),
      Accounted (ignoredLine .badDirective c >>= fun c => pure (found, c)) :=
    fun found c => (accounted_ignoredLine _ _).bind fun _ _ => .pure trivial
  unfold directive
  refine (accounted_name _ _).bind fun _ _ => .ite (.malformed _) (.ite ?_ (.ite ?_ (hline _ _)))
  · exact (accounted_versionDirective _).bind fun _ _ => hline _ _
  · exact (accounted_tagDirective _).bind fun _ _ => hline _ _

/-! ### Steps -/

variable {x : Lexer} {t : Token}

theorem intact_emit (hx : x.Intact) (ht : t.Sound) : (x.emit t).Intact := List.forall_mem_cons.mpr ⟨ht, hx⟩

theorem intact_emitAt (hx : x.Intact) (place : Nat) (ht : t.Sound) : (x.emitAt place t).Intact := by
  intro t' hmem
  rcases List.eq_or_mem_of_mem_insertIdx hmem with rfl | hmem
  · exact ht
  · exact hx t' hmem

theorem intact_closeBlocks (column : Int) (blocks : List Int) (hx : x.Intact) :
    (closeBlocks column blocks x).Intact := by
  induction blocks generalizing x with
  | nil => exact hx
  | cons around blocks ih =>
    rw [closeBlocks]
    split
    · exact ih (intact_emit hx fun _ h => nomatch h)
    · exact hx

theorem intact_unwind (hx : x.Intact) (column : Int) : (x.unwind column).Intact := by
  rw [unwind]
  split
  · exact hx
  · exact intact_closeBlocks _ _ hx

theorem intact_openBlock (hx : x.Intact) (column place : Nat) (ht : t.Sound) :
    (x.openBlock column place t).Intact := by
  rw [openBlock]
  split
  · exact intact_emitAt hx place ht
  · exact hx

/-- A block is opened, unless brackets are open. -/
theorem intact_openBlock_unless (hx : x.Intact) (p : Bool) (column place : Nat) (ht : t.Sound) :
    (if p then x else x.openBlock column place t).Intact := by
  split
  · exact hx
  · exact intact_openBlock hx column place ht

theorem intact_skipToToken (fuel : Nat) (hx : x.Intact) : (skipToToken fuel x).Intact := by
  induction fuel generalizing x with
  | zero => exact hx
  | succ fuel ih =>
    rw [skipToToken]
    split
    · exact hx
    · exact ih hx

theorem ends_dropCandidate (hx : x.Intact) : Ends Intact x.dropCandidate := by
  rw [dropCandidate]
  split
  · exact .ite (.malformed _) (.pure hx)
  · exact .pure hx

theorem ends_saveCandidate (hx : x.Intact) : Ends Intact x.saveCandidate :=
  .ite ((ends_dropCandidate hx).bind fun _ h => .pure h) (.pure hx)

theorem ends_dropStale (hx : x.Intact) : Ends Intact x.dropStale := .ite (.malformed _) (.pure hx)

theorem ends_betweenDocuments (hx : x.Intact) : Ends Intact x.betweenDocuments :=
  (ends_dropCandidate (intact_unwind hx _)).bind fun _ h => .pure h

theorem ends_readSeparator (hx : x.Intact) (ht : t.Sound) : Ends Intact (x.readSeparator t) :=
  (ends_betweenDocuments hx).bind fun _ h => .pure (intact_emit h ht)

theorem ends_readDirective (hx : x.Intact) : Ends Intact x.readDirective :=
  (ends_betweenDocuments hx).bind fun _ h => (accounted_directive _).bind fun _ _ =>
    .pure (intact_emit h fun _ h => nomatch h)

theorem ends_readOpening (hx : x.Intact) (ht : t.Sound) : Ends Intact (x.readOpening t) :=
  (ends_saveCandidate hx).bind fun _ h => .pure (intact_emit h ht)

theorem ends_readClosing (hx : x.Intact) (ht : t.Sound) : Ends Intact (x.readClosing t) :=
  .ite (.malformed _) (.pure (intact_emit hx ht))

theorem ends_readComma (hx : x.Intact) : Ends Intact x.readComma :=
  (ends_dropCandidate hx).bind fun _ h => .pure (intact_emit h fun _ h => nomatch h)

theorem ends_readEntry (hx : x.Intact) : Ends Intact x.readEntry := by
  refine .ite (.malformed _) (.bind (ends_dropCandidate ?_) fun _ h => .pure (intact_emit h fun _ h => nomatch h))
  exact intact_openBlock_unless hx _ _ _ fun _ h => nomatch h

theorem ends_readKey (hx : x.Intact) : Ends Intact x.readKey := by
  refine .ite (.malformed _) (.bind (ends_dropCandidate ?_) fun _ h => .pure (intact_emit h fun _ h => nomatch h))
  exact intact_openBlock_unless hx _ _ _ fun _ h => nomatch h

theorem ends_readValue (hx : x.Intact) : Ends Intact x.readValue := by
  rw [readValue]
  split
  · refine .pure (intact_emit (intact_openBlock_unless ?_ _ _ _ fun _ h => nomatch h) fun _ h => nomatch h)
    exact intact_emitAt (x := x.setCandidate none) hx _ fun _ h => nomatch h
  · refine .ite (.malformed _) (.pure (intact_emit ?_ fun _ h => nomatch h))
    exact intact_openBlock_unless hx _ _ _ fun _ h => nomatch h

theorem ends_readProperty (hx : x.Intact) {read : Cursor → Except Fault (Token × Cursor)}
    (hread : ∀ c, Ends (fun found => found.1.Sound) (read c)) : Ends Intact (x.readProperty read) :=
  (ends_saveCandidate hx).bind fun _ h => (hread _).bind fun _ ht => .pure (intact_emit h ht)

theorem ends_readBlockScalar (hx : x.Intact) (folded : Bool) : Ends Intact (x.readBlockScalar folded) :=
  (ends_dropCandidate hx).bind fun _ h => (accounted_blockScalar _ _ _).bind fun _ _ =>
    .pure (intact_emit h fun _ h => nomatch h)

theorem ends_readPlain (hx : x.Intact) : Ends Intact x.readPlain :=
  (ends_saveCandidate hx).bind fun _ h => .pure (intact_emit h fun _ h => nomatch h)

theorem ends_readEnd (hx : x.Intact) : Ends Intact x.readEnd :=
  (ends_dropCandidate (intact_unwind hx _)).bind fun _ h => .pure (intact_emit h fun _ h => nomatch h)

theorem ends_readToken (hx : x.Intact) : Ends Intact x.readToken := by
  unfold readToken
  -- the branches in their order; those left over read properties and quoted scalars
  refine .ite (ends_readDirective hx) <| .ite (ends_readSeparator hx fun _ h => nomatch h) <|
    .ite (ends_readSeparator hx fun _ h => nomatch h) <| .ite (ends_readOpening hx fun _ h => nomatch h) <|
    .ite (ends_readOpening hx fun _ h => nomatch h) <| .ite (ends_readClosing hx fun _ h => nomatch h) <|
    .ite (ends_readClosing hx fun _ h => nomatch h) <| .ite (ends_readComma hx) <| .ite (ends_readEntry hx) <|
    .ite (ends_readKey hx) <| .ite (ends_readValue hx) <| .ite ?_ <| .ite ?_ <| .ite ?_ <|
    .ite (ends_readBlockScalar hx _) <| .ite (ends_readBlockScalar hx _) <| .ite ?_ <| .ite ?_ <|
    .ite (ends_readPlain hx) (.malformed _)
  · exact ends_readProperty hx fun c => (accounted_anchorName c).map fun _ _ _ h => nomatch h
  · exact ends_readProperty hx fun c => (accounted_anchorName c).map fun _ _ _ h => nomatch h
  · exact ends_readProperty hx fun c => (accounted_tag c).map fun _ _ _ h => nomatch h
  · exact ends_readProperty hx fun c => (accounted_quotedScalar _ c).map fun _ _ _ h => nomatch h
  · exact ends_readProperty hx fun c => (accounted_quotedScalar _ c).map fun _ _ _ h => nomatch h

theorem ends_prepare (hx : x.Intact) : Ends Intact x.prepare :=
  (ends_dropStale (intact_skipToToken _ hx)).bind fun _ h => .pure (intact_unwind h _)

theorem readAll_succ (fuel : Nat) (x : Lexer) : readAll (fuel + 1) x =
    match x.prepare with
    | .error fault => (x.emit (.broken fault)).tokens.reverse
    | .ok x =>
      if x.cursor.rest = [] then
        match x.readEnd with
        | .error fault => (x.emit (.broken fault)).tokens.reverse
        | .ok x => x.tokens.reverse
      else
        match x.readToken with
        | .error fault => (x.emit (.broken fault)).tokens.reverse
        | .ok x => readAll fuel x := by
  rfl

/-- **All tokens of a text are sound**: the last one may say why the text breaks off. -/
theorem sound_of_mem_readAll (fuel : Nat) (hx : x.Intact) : ∀ t ∈ readAll fuel x, t.Sound := by
  -- every end gives the tokens in order, and a broken off text its fault as the last one
  have hreverse : ∀ {x : Lexer}, x.Intact → ∀ t ∈ x.tokens.reverse, t.Sound :=
    fun h t ht => h t (List.mem_reverse.mp ht)
  have hbroken : ∀ {x : Lexer} {fault : Fault}, x.Intact → fault.Arises → (x.emit (.broken fault)).Intact := by
    intro x fault hx hfault
    refine intact_emit hx ?_
    rintro _ ⟨⟩
    exact hfault
  induction fuel generalizing x with
  | zero => exact hreverse (intact_emit hx fun _ h => nomatch h)
  | succ fuel ih =>
    rw [readAll_succ]
    have hprepare := ends_prepare hx
    cases hnext : x.prepare with
    | error fault =>
      rw [hnext] at hprepare
      exact hreverse (hbroken hx hprepare)
    | ok y =>
      rw [hnext] at hprepare
      dsimp only
      split
      · have hend := ends_readEnd hprepare
        cases hlast : y.readEnd with
        | error fault =>
          rw [hlast] at hend
          exact hreverse (hbroken hprepare hend)
        | ok z =>
          rw [hlast] at hend
          exact hreverse hend
      · have htoken := ends_readToken hprepare
        cases hread : y.readToken with
        | error fault =>
          rw [hread] at htoken
          exact hreverse (hbroken hprepare htoken)
        | ok z =>
          rw [hread] at htoken
          exact ih htoken

end Lexer

theorem sound_of_mem_tokens (text : Text) : ∀ t ∈ tokens text, t.Sound :=
  Lexer.sound_of_mem_readAll _ (List.forall_mem_nil _)

end Yaml

end SolidityBuild
