import SolidityBuild.Yaml.ScalarText
import SolidityBuild.Yaml.Token

/-!
The tokens of a text. Indentation opens and closes blocks; inside brackets it does not count. A node
that a colon follows on its line is a key: since the colon comes after it, the place of every node that
may turn out to be a key is kept until the line ends, and the tokens in front of the key are put in when
the colon is met.
-/

set_option autoImplicit false

namespace SolidityBuild

namespace Yaml

/-- A node that is a key if a colon follows. -/
structure Candidate where
  /-- The number of tokens in front of the node. -/
  place : Nat
  /-- Whether the node can be nothing but a key. -/
  required : Bool
  index : Nat
  line : Nat
  column : Nat

/-- The greatest distance from a key to its colon. -/
def keyLimit : Nat := 1024

/-- What was read of a text. -/
structure Lexer where
  cursor : Cursor
  /-- The indentation of the block at hand; `-1` outside of all blocks. -/
  indent : Int := -1
  /-- The indentations of the blocks around it. -/
  outer : List Int := []
  /-- Whether a key may start here. -/
  keyAllowed : Bool := true
  /-- The candidate of every level of brackets, the innermost level first. -/
  candidates : List (Option Candidate) := [none]
  /-- The tokens, the last one first. -/
  tokens : List Token := []

namespace Lexer

/-- Whether the place is inside brackets. -/
def inFlow (x : Lexer) : Bool := 1 < x.candidates.length

/-- The text with one more token. -/
def emit (x : Lexer) (t : Token) : Lexer := { x with tokens := t :: x.tokens }

/-- The text with a token put in behind the first `place` tokens. -/
def emitAt (x : Lexer) (place : Nat) (t : Token) : Lexer :=
  { x with tokens := x.tokens.insertIdx (x.tokens.length - place) t }

/-- The candidate of the level at hand. -/
def candidate? (x : Lexer) : Option Candidate := x.candidates.head?.join

/-- The text with a candidate for the level at hand. -/
def setCandidate (x : Lexer) (c : Option Candidate) : Lexer :=
  { x with candidates := c :: x.candidates.tail }

/-- Gives up the candidate of the level at hand. -/
def dropCandidate (x : Lexer) : Except Fault Lexer :=
  match x.candidate? with
  | some c => if c.required then malformed .missingColon else .ok (x.setCandidate none)
  | none => .ok x

/-- Makes the place a candidate, if a key may start here. -/
def saveCandidate (x : Lexer) : Except Fault Lexer := do
  if x.keyAllowed then
    let x ← x.dropCandidate
    let c := x.cursor
    let required := !x.inFlow && x.indent = (c.column : Int)
    pure (x.setCandidate (some ⟨x.tokens.length, required, c.index, c.line, c.column⟩))
  else pure x

/-- Whether a candidate is too far back to be a key. -/
def isStale (x : Lexer) (c : Candidate) : Bool :=
  c.line ≠ x.cursor.line || keyLimit < x.cursor.index - c.index

/-- Gives up the candidates that are too far back. -/
def dropStale (x : Lexer) : Except Fault Lexer := do
  let stale := x.candidates.filterMap fun c => c.filter x.isStale
  if stale.any (·.required) then malformed .missingColon
  else pure { x with candidates := x.candidates.map fun c => c.filter fun c => !x.isStale c }

/-- Closes the blocks that are indented further than a column. -/
def closeBlocks (column : Int) : (open_ : List Int) → Lexer → Lexer
  | [], x => x
  | around :: open_, x =>
    if column < x.indent then
      closeBlocks column open_ { x.emit .blockEnd with indent := around, outer := open_ }
    else x

/-- Closes the blocks that the place is outside of. -/
def unwind (x : Lexer) (column : Int) : Lexer :=
  if x.inFlow then x else closeBlocks column x.outer x

/-- Opens a block at a column, if the column is further than the block at hand; `start` is its token,
which stands behind the first `place` tokens. -/
def openBlock (x : Lexer) (column : Nat) (place : Nat) (start : Token) : Lexer :=
  if x.indent < (column : Int) then
    { x.emitAt place start with indent := column, outer := x.indent :: x.outer }
  else x

/-- The place behind spaces, comments and line breaks. -/
def skipToToken : (fuel : Nat) → Lexer → Lexer
  | 0, x => x
  | fuel + 1, x =>
    let c := x.cursor.skipSpaces.skipComment
    match c.lineBreak? with
    | none => { x with cursor := c }
    | some (_, c) => skipToToken fuel { x with cursor := c, keyAllowed := x.keyAllowed || !x.inFlow }

/-! ## Directives -/

/-- The digits at a place as a number. -/
def versionNumber (c : Cursor) : Except Fault (Nat × Cursor) :=
  match c.takeWhile CodePoint.isDigit with
  | ([], _) => malformed .badDirective
  | (digits, c) =>
    if Json.digitLimit < digits.length then .error (.tooManyDigits digits.length)
    else .ok (Text.digitsValue digits, c)

/-- The version that a directive names. -/
def versionDirective (c : Cursor) : Except Fault (Directive × Cursor) := do
  let (major, c) ← versionNumber c.skipSpaces
  if c.head.val ≠ 46 then malformed .badDirective
  else
    let (_, c) ← versionNumber c.advance
    if isSpaceOrEnd c.head then pure (.version major, c) else malformed .badDirective

/-- The handle and its meaning that a directive names. -/
def tagDirective (c : Cursor) : Except Fault (Directive × Cursor) := do
  let (handle, c) ← tagHandle c.skipSpaces
  if c.head.val ≠ 32 then malformed .badDirective
  else
    let (lead, c) ← tagSuffix c.skipSpaces
    if isSpaceOrEnd c.head then pure (.tag handle lead, c) else malformed .badDirective

/-- A directive, from its indicator, with the rest of its line. -/
def directive (c : Cursor) : Except Fault (Directive × Cursor) := do
  let (word, c) ← name .badDirective c.advance
  if !isSpaceOrEnd c.head then malformed .badDirective
  else
    let (found, c) ←
      if word = ("YAML" : Text) then versionDirective c
      else if word = ("TAG" : Text) then tagDirective c
      else pure (.other, c.skipWhile fun x => !isBreakOrEnd x)
    let c ← ignoredLine .badDirective c
    pure (found, c)

/-! ## Tokens -/

/-- What stands between documents: all blocks end, and no key starts right behind it. -/
def betweenDocuments (x : Lexer) : Except Fault Lexer := do
  let x ← (x.unwind (-1)).dropCandidate
  pure { x with keyAllowed := false }

/-- A mark that separates documents. -/
def readSeparator (x : Lexer) (t : Token) : Except Fault Lexer := do
  let x ← x.betweenDocuments
  pure { x.emit t with cursor := x.cursor.advanceBy 3 }

/-- A directive. -/
def readDirective (x : Lexer) : Except Fault Lexer := do
  let x ← x.betweenDocuments
  let (found, c) ← directive x.cursor
  pure { x.emit (.directive found) with cursor := c }

/-- An opening bracket. -/
def readOpening (x : Lexer) (t : Token) : Except Fault Lexer := do
  let x ← x.saveCandidate
  pure { x.emit t with
    cursor := x.cursor.advance, candidates := none :: x.candidates, keyAllowed := true }

/-- A closing bracket. -/
def readClosing (x : Lexer) (t : Token) : Except Fault Lexer :=
  if !x.inFlow then malformed .unbalancedFlow
  else
    .ok { x.emit t with
      cursor := x.cursor.advance, candidates := x.candidates.tail, keyAllowed := false }

/-- A comma between brackets. -/
def readComma (x : Lexer) : Except Fault Lexer := do
  let x ← x.dropCandidate
  pure { x.emit .flowEntry with cursor := x.cursor.advance, keyAllowed := true }

/-- The indicator of an entry of a block sequence. -/
def readEntry (x : Lexer) : Except Fault Lexer := do
  if !x.inFlow && !x.keyAllowed then malformed .misplacedEntry
  else
    let x := if x.inFlow then x else x.openBlock x.cursor.column x.tokens.length .sequenceStart
    let x ← x.dropCandidate
    pure { x.emit .entry with cursor := x.cursor.advance, keyAllowed := true }

/-- The indicator of a key. -/
def readKey (x : Lexer) : Except Fault Lexer := do
  if !x.inFlow && !x.keyAllowed then malformed .misplacedKey
  else
    let x := if x.inFlow then x else x.openBlock x.cursor.column x.tokens.length .mappingStart
    let x ← x.dropCandidate
    pure { x.emit .key with cursor := x.cursor.advance, keyAllowed := !x.inFlow }

/-- The indicator of a value: behind a candidate, which it makes a key, or on its own. -/
def readValue (x : Lexer) : Except Fault Lexer := do
  match x.candidate? with
  | some c =>
    let x := (x.setCandidate none).emitAt c.place .key
    let x := if x.inFlow then x else x.openBlock c.column c.place .mappingStart
    pure { x.emit .value with cursor := x.cursor.advance, keyAllowed := false }
  | none =>
    if !x.inFlow && !x.keyAllowed then malformed .misplacedValue
    else
      let x := if x.inFlow then x else x.openBlock x.cursor.column x.tokens.length .mappingStart
      pure { x.emit .value with cursor := x.cursor.advance, keyAllowed := !x.inFlow }

/-- A property of a node, or an alias. -/
def readProperty (x : Lexer) (read : Cursor → Except Fault (Token × Cursor)) : Except Fault Lexer := do
  let x ← x.saveCandidate
  let (t, c) ← read x.cursor
  pure { x.emit t with cursor := c, keyAllowed := false }

/-- A block scalar. -/
def readBlockScalar (x : Lexer) (folded : Bool) : Except Fault Lexer := do
  let x ← x.dropCandidate
  let (text, c) ← blockScalar folded x.indent x.cursor
  pure { x.emit (.scalar false text) with cursor := c, keyAllowed := true }

/-- A plain scalar. -/
def readPlain (x : Lexer) : Except Fault Lexer := do
  let x ← x.saveCandidate
  let (text, broken, c) := plainScalar x.inFlow (x.indent + 1) x.cursor
  pure { x.emit (.scalar true text) with cursor := c, keyAllowed := broken }

/-- The indicators, which do not start a plain scalar unless the next test says so. -/
def isIndicator (c : CodePoint) : Bool :=
  [45, 63, 58, 44, 91, 93, 0x7B, 0x7D, 35, 38, 42, 33, 124, 62, 39, 34, 37, 64, 96].contains c.val

/-- Whether a plain scalar starts with `c`, behind which `next` stands. -/
def startsPlain (inFlow : Bool) (c next : CodePoint) : Bool :=
  (!isBlankOrEnd c && !isIndicator c) ||
    (!isBlankOrEnd next && (c.val = 45 || (!inFlow && (c.val = 63 || c.val = 58))))

/-- The end of the text. -/
def readEnd (x : Lexer) : Except Fault Lexer := do
  let x ← (x.unwind (-1)).dropCandidate
  pure (x.emit .streamEnd)

/-- Reads the next token. -/
def readToken (x : Lexer) : Except Fault Lexer :=
  let c := x.cursor.head.val
  let next := x.cursor.peek 1
  let column := x.cursor.column
  if c = 37 ∧ column = 0 then x.readDirective
  else if column = 0 ∧ x.cursor.isAtMark Cursor.startMark then x.readSeparator .documentStart
  else if column = 0 ∧ x.cursor.isAtMark Cursor.endMark then x.readSeparator .documentEnd
  else if c = 91 then x.readOpening .flowSequenceStart
  else if c = 0x7B then x.readOpening .flowMappingStart
  else if c = 93 then x.readClosing .flowSequenceEnd
  else if c = 0x7D then x.readClosing .flowMappingEnd
  else if c = 44 then x.readComma
  else if c = 45 ∧ isBlankOrEnd next then x.readEntry
  else if c = 63 ∧ (x.inFlow ∨ isBlankOrEnd next) then x.readKey
  else if c = 58 ∧ (x.inFlow ∨ isBlankOrEnd next) then x.readValue
  else if c = 42 then
    x.readProperty fun c => (anchorName c).map fun (name, c) => (.aliasOf name, c)
  else if c = 38 then
    x.readProperty fun c => (anchorName c).map fun (name, c) => (.anchor name, c)
  else if c = 33 then
    x.readProperty fun c => (tag c).map fun (handle, suffix, c) => (.tag handle suffix, c)
  else if c = 124 ∧ !x.inFlow then x.readBlockScalar false
  else if c = 62 ∧ !x.inFlow then x.readBlockScalar true
  else if c = 39 then
    x.readProperty fun c => (quotedScalar false c).map fun (text, c) => (.scalar false text, c)
  else if c = 34 then
    x.readProperty fun c => (quotedScalar true c).map fun (text, c) => (.scalar false text, c)
  else if startsPlain x.inFlow x.cursor.head next then x.readPlain
  else malformed .unexpectedStart

/-- Goes to the next token and gives up what lies too far back for it. -/
def prepare (x : Lexer) : Except Fault Lexer := do
  let x := skipToToken (x.cursor.rest.length + 1) x
  let x ← x.dropStale
  pure (x.unwind x.cursor.column)

/-- Reads all tokens. Every token but the last takes at least one code point. -/
def readAll : (fuel : Nat) → Lexer → List Token
  | 0, x => (x.emit .streamEnd).tokens.reverse
  | fuel + 1, x =>
    match x.prepare with
    | .error fault => (x.emit (.broken fault)).tokens.reverse
    | .ok x =>
      if x.cursor.rest = [] then
        match x.readEnd with
        | .error fault => (x.emit (.broken fault)).tokens.reverse
        | .ok x => x.tokens.reverse
      else
        match x.readToken with
        | .error fault => (x.emit (.broken fault)).tokens.reverse
        | .ok x => readAll fuel x

end Lexer

/-- The code points that a YAML text may hold. -/
def isPermitted (c : CodePoint) : Bool :=
  let n := c.val
  n = 9 || n = 10 || n = 13 || (0x20 ≤ n && n ≤ 0x7E) || n = 0x85 || (0xA0 ≤ n && n ≤ 0xD7FF) ||
    (0xE000 ≤ n && n ≤ 0xFFFD) || 0x10000 ≤ n

/-- The tokens of a text. A byte order mark in front of it does not count. -/
def tokens (t : Text) : List Token :=
  let cursor : Cursor := ⟨t, 0, 0, 0⟩
  let cursor := if t.head? = some 0xFEFF then cursor.advance else cursor
  Lexer.readAll (t.length + 1) { cursor }

end Yaml

end SolidityBuild
