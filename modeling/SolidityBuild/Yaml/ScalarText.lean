import SolidityBuild.Text.Utf8
import SolidityBuild.Yaml.Cursor
import SolidityBuild.Yaml.Fault

/-!
The texts of scalars in their five styles, and of names and tags. Every function takes the place where
the text starts and gives the place behind it. A line break inside a plain or quoted scalar counts as a
space, or, if empty lines follow it, as those; block scalars keep their lines or fold them.
-/

set_option autoImplicit false

namespace SolidityBuild

namespace Yaml

/-- A malformed text. -/
def malformed {α : Type} (how : Malformation) : Except Fault α := .error (.malformed how)

/-- What a line break and the empty lines behind it count for inside a scalar. -/
def foldedBreak (first : CodePoint) (others : Text) : Text :=
  if first.val ≠ 10 then first :: others else if others = [] then [32] else others

/-! ## Plain scalars -/

/-- The brackets and the comma, which end plain scalars inside brackets. -/
def isFlowMark (c : CodePoint) : Bool :=
  c.val = 44 || c.val = 91 || c.val = 93 || c.val = 0x7B || c.val = 0x7D

/-- Whether a plain scalar ends in front of `c`, behind which `next` stands. -/
def endsPlain (inFlow : Bool) (c next : CodePoint) : Bool :=
  isBlankOrEnd c || (c.val = 58 && (isBlankOrEnd next || (inFlow && isFlowMark next))) ||
    (inFlow && (isFlowMark c || c.val = 63))

/-- The length of a plain scalar on its line, up to the first blank. -/
def plainLength (inFlow : Bool) : Text → Nat
  | [] => 0
  | c :: rest => if endsPlain inFlow c (rest.headD 0) then 0 else plainLength inFlow rest + 1

/-- The line breaks, with spaces between them, that follow a line break inside a plain scalar; none if
they lead to a mark that separates documents. -/
def plainBreaks : (fuel : Nat) → Cursor → Option Text × Cursor
  | 0, c => (some [], c)
  | fuel + 1, c =>
    if c.isAtSeparator then (none, c)
    else
      let c := c.skipSpaces
      match c.lineBreak? with
      | none => (some [], c)
      | some (x, c) =>
        match plainBreaks fuel c with
        | (none, c) => (none, c)
        | (some more, c) => (some (x :: more), c)

/-- What separates two runs of a plain scalar. -/
structure PlainGap where
  /-- What the gap counts for; nothing if the scalar ends here. -/
  text : Option Text
  /-- Whether the gap breaks a line. -/
  broken : Bool
  after : Cursor

/-- The gap at a place. -/
def plainGap (c : Cursor) : PlainGap :=
  let (spaces, c) := c.takeWhile fun x => x.val = 32
  match c.lineBreak? with
  | none => ⟨if spaces = [] then none else some spaces, false, c⟩
  | some (first, c) =>
    let (breaks, c) := plainBreaks (c.rest.length + 1) c
    ⟨breaks.map (foldedBreak first), true, c⟩

/-- The text of a plain scalar behind `gap`, whether its last gap breaks a line, and the place behind
it. The scalar goes on only on lines that are indented at least by `indent`, and not with a comment. -/
def plainFrom (inFlow : Bool) (indent : Int) :
    (fuel : Nat) → (gap : Text) → (broken : Bool) → Cursor → Text × Bool × Cursor
  | 0, _, broken, c => ([], broken, c)
  | fuel + 1, gap, broken, c =>
    let length := plainLength inFlow c.rest
    if c.head.val = 35 ∨ length = 0 then ([], broken, c)
    else
      let run := gap ++ c.rest.take length
      let next := plainGap (c.advanceBy length)
      match next.text with
      | none => (run, next.broken, next.after)
      | some gap =>
        if next.after.head.val = 35 ∨ (!inFlow ∧ (next.after.column : Int) < indent) then
          (run, next.broken, next.after)
        else
          let (more, broken, c) := plainFrom inFlow indent fuel gap next.broken next.after
          (run ++ more, broken, c)

/-- A plain scalar: its text, whether it ends with a line break, and the place behind it. -/
def plainScalar (inFlow : Bool) (indent : Int) (c : Cursor) : Text × Bool × Cursor :=
  plainFrom inFlow indent (c.rest.length + 1) [] false c

/-! ## Quoted scalars -/

/-- What an escape of one letter stands for. -/
def simpleEscape? (c : CodePoint) : Option CodePoint :=
  ([(48, 0), (97, 7), (98, 8), (116, 9), (9, 9), (110, 10), (118, 11), (102, 12), (114, 13), (101, 27),
    (32, 32), (34, 34), (92, 92), (47, 47), (78, 0x85), (95, 0xA0), (76, 0x2028), (80, 0x2029)] :
    List (Nat × CodePoint)).lookup c.val

/-- The number of digits of a numeric escape. -/
def escapeDigits? (c : CodePoint) : Option Nat :=
  ([(120, 2), (117, 4), (85, 8)] : List (Nat × Nat)).lookup c.val

/-- The number that exactly `digits` hexadecimal digits in front of a text spell. -/
def hexNumber? (digits : Nat) (t : Text) : Option Nat :=
  let values := (t.take digits).filterMap CodePoint.hexValue?
  if values.length = digits then some (ofDigits 16 values) else none

/-- The line breaks, with blanks between them, that follow a line break inside a quoted scalar. -/
def quotedBreaks : (fuel : Nat) → Cursor → Except Fault (Text × Cursor)
  | 0, _ => malformed .unterminatedText
  | fuel + 1, c =>
    if c.isAtSeparator then malformed .unterminatedText
    else
      let c := c.skipWhile fun x => x.val = 32 || x.val = 9
      match c.lineBreak? with
      | none => .ok ([], c)
      | some (x, c) => (quotedBreaks fuel c).map fun (more, c) => (x :: more, c)

/-- What an escape stands for, from the place behind the backslash. -/
def escape (c : Cursor) : Except Fault (Text × Cursor) :=
  match simpleEscape? c.head, escapeDigits? c.head with
  | some x, _ => .ok ([x], c.advance)
  | none, some digits =>
    match hexNumber? digits c.advance.rest with
    | none => malformed .unknownEscape
    | some n =>
      if h : n < 0x110000 then .ok ([⟨n, h⟩], c.advanceBy (digits + 1)) else .error (.noCodePoint n)
  | none, none =>
    match c.lineBreak? with
    | none => malformed .unknownEscape
    | some (_, c) => quotedBreaks (c.rest.length + 1) c

/-- The blanks at a place inside a quoted scalar, and what they count for. -/
def quotedGap (c : Cursor) : Except Fault (Text × Cursor) :=
  let (blanks, c) := c.takeWhile fun x => x.val = 32 || x.val = 9
  match c.lineBreak? with
  | some (first, c) =>
    (quotedBreaks (c.rest.length + 1) c).map fun (others, c) => (foldedBreak first others, c)
  | none => if c.head.val = 0 then malformed .unterminatedText else .ok (blanks, c)

/-- The quotes of the two styles. -/
def doubleQuote : CodePoint := 34
def singleQuote : CodePoint := 39

/-- The text of a quoted scalar up to its closing quote. -/
def quotedFrom (double : Bool) : (fuel : Nat) → Cursor → Except Fault (Text × Cursor)
  | 0, _ => malformed .unterminatedText
  | fuel + 1, c =>
    let quote := if double then doubleQuote else singleQuote
    let goOn (piece : Text) (c : Cursor) : Except Fault (Text × Cursor) :=
      (quotedFrom double fuel c).map fun (more, c) => (piece ++ more, c)
    let x := c.head
    if !double && x = quote && c.peek 1 = quote then goOn [quote] (c.advanceBy 2)
    else if x = quote then .ok ([], c.advance)
    else if double && x.val = 92 then do
      let (piece, c) ← escape c.advance
      goOn piece c
    else if isBlankOrEnd x then do
      let (piece, c) ← quotedGap c
      goOn piece c
    else goOn [x] c.advance

/-- A quoted scalar, from its opening quote. -/
def quotedScalar (double : Bool) (c : Cursor) : Except Fault (Text × Cursor) :=
  quotedFrom double (c.rest.length + 1) c.advance

/-! ## Block scalars -/

/-- What happens to the line breaks at the end of a block scalar. -/
inductive Chomping where
  | strip
  | clip
  | keep
deriving DecidableEq, Repr

/-- The chomping that an indicator stands for. -/
def chomping? (c : CodePoint) : Option Chomping :=
  if c.val = 43 then some .keep else if c.val = 45 then some .strip else none

/-- The chomping at a place. -/
def chompingAt (c : Cursor) : Chomping × Cursor :=
  match chomping? c.head with
  | some chomping => (chomping, c.advance)
  | none => (.clip, c)

/-- The indentation that a digit at a place asks for; it is not zero. -/
def incrementAt (c : Cursor) : Except Fault (Option Nat × Cursor) :=
  if !c.head.isDigit then .ok (none, c)
  else if c.head.val = 48 then malformed .badBlockHeader
  else .ok (some (c.head.val - 48), c.advance)

/-- The indicators of a block scalar, in either order. -/
def blockHeader (c : Cursor) : Except Fault (Chomping × Option Nat × Cursor) := do
  let (chomping, increment, c) ← match chomping? c.head with
    | some chomping => do
      let (increment, c) ← incrementAt c.advance
      pure (chomping, increment, c)
    | none => do
      let (increment, c') ← incrementAt c
      match increment with
      | none => pure (.clip, none, c)
      | some n =>
        let (chomping, c'') := chompingAt c'
        pure (chomping, some n, c'')
  if isSpaceOrEnd c.head then pure (chomping, increment, c) else malformed .badBlockHeader

/-- The place behind the rest of a line that may hold nothing but spaces and a comment. -/
def ignoredLine (how : Malformation) (c : Cursor) : Except Fault Cursor :=
  let c := c.skipSpaces.skipComment
  if !isBreakOrEnd c.head then malformed how
  else match c.lineBreak? with
    | some (_, c) => .ok c
    | none => .ok c

/-- The empty lines in front of a block scalar, and the greatest column that their spaces reach. -/
def blockLead : (fuel : Nat) → (reached : Nat) → Cursor → Text × Nat × Cursor
  | 0, reached, c => ([], reached, c)
  | fuel + 1, reached, c =>
    let (spaces, c) := c.takeWhile fun x => x.val = 32
    let reached := if spaces = [] then reached else max reached c.column
    match c.lineBreak? with
    | none => ([], reached, c)
    | some (x, c) =>
      let (more, reached, c) := blockLead fuel reached c
      (x :: more, reached, c)

/-- The empty lines inside a block scalar of a given indentation. -/
def blockBreaks (indent : Nat) : (fuel : Nat) → Cursor → Text × Cursor
  | 0, c => ([], c)
  | fuel + 1, c =>
    let c := c.skipIndent indent
    match c.lineBreak? with
    | none => ([], c)
    | some (x, c) =>
      let (more, c) := blockBreaks indent fuel c
      (x :: more, c)

/-- Whether a line starts with a blank and so is not folded. -/
def startsBlank (c : Cursor) : Bool := c.head.val = 32 || c.head.val = 9

/-- The line break behind a line of a block scalar, or nothing at the end of the text. -/
def breakText (c : Cursor) : Text × Cursor :=
  match c.lineBreak? with
  | some (x, c) => ([x], c)
  | none => ([], c)

/-- The lines of a block scalar from a place at its indentation. `breaks` are the empty lines before. -/
def blockLines (folded : Bool) (chomping : Chomping) (indent : Nat) :
    (fuel : Nat) → (breaks : Text) → Cursor → Text × Cursor
  | 0, _, c => ([], c)
  | fuel + 1, breaks, c =>
    let unfolded := startsBlank c
    let (line, c) := c.takeWhile fun x => !isBreakOrEnd x
    let (ending, c) := breakText c
    let (next, c) := blockBreaks indent (c.rest.length + 1) c
    if c.column = indent ∧ c.head.val ≠ 0 then
      let joint : Text :=
        if folded ∧ ending = [10] ∧ !unfolded ∧ !startsBlank c then
          if next = [] then [32] else []
        else ending
      let (more, c) := blockLines folded chomping indent fuel next c
      (breaks ++ line ++ joint ++ more, c)
    else
      let tail : Text :=
        match chomping with
        | .strip => []
        | .clip => ending
        | .keep => ending ++ next
      (breaks ++ line ++ tail, c)

/-- A block scalar inside a block of the given indentation, from its indicator. -/
def blockScalar (folded : Bool) (parent : Int) (c : Cursor) : Except Fault (Text × Cursor) := do
  let (chomping, increment, c) ← blockHeader c.advance
  let c ← ignoredLine .badBlockHeader c
  let least := max 1 (parent + 1).toNat
  let (breaks, indent, c) := match increment with
    | some n =>
      let indent := least + n - 1
      let (breaks, c) := blockBreaks indent (c.rest.length + 1) c
      (breaks, indent, c)
    | none =>
      let (breaks, reached, c) := blockLead (c.rest.length + 1) 0 c
      (breaks, max least reached, c)
  if c.column = indent ∧ c.head.val ≠ 0 then
    pure (blockLines folded chomping indent (c.rest.length + 1) breaks c)
  else
    pure (if chomping = .keep then breaks else [], c)

/-! ## Names and tags -/

/-- The code points of names. -/
def isNamePoint (c : CodePoint) : Bool :=
  c.isDigit || c.isUpper || c.isLower || c.val = 45 || c.val = 95

/-- A name, at least one code point long. -/
def name (how : Malformation) (c : Cursor) : Except Fault (Text × Cursor) :=
  match c.takeWhile isNamePoint with
  | ([], _) => malformed how
  | found => .ok found

/-- The code points that may follow the name of an anchor. -/
def endsAnchor (c : CodePoint) : Bool :=
  isBlankOrEnd c || [63, 58, 44, 93, 0x7D, 37, 64, 96].contains c.val

/-- The name of an anchor or alias, from its indicator. -/
def anchorName (c : Cursor) : Except Fault (Text × Cursor) := do
  let (text, c) ← name .badName c.advance
  if endsAnchor c.head then pure (text, c) else malformed .badName

/-- The code points that stand for themselves in a tag. -/
def isTagPoint (c : CodePoint) : Bool :=
  c.isDigit || c.isUpper || c.isLower ||
    [45, 59, 47, 63, 58, 64, 38, 61, 43, 36, 44, 95, 46, 33, 126, 42, 39, 40, 41, 91, 93].contains c.val

/-- The octets of a run of escapes of a percent sign and two digits. -/
def escapedOctets : (fuel : Nat) → Cursor → Except Fault (Octets × Cursor)
  | 0, c => .ok ([], c)
  | fuel + 1, c =>
    if c.head.val ≠ 37 then .ok ([], c)
    else match hexNumber? 2 c.advance.rest with
      | none => malformed .badTag
      | some n =>
        (escapedOctets fuel (c.advanceBy 3)).map fun (more, c) => (UInt8.ofNat n :: more, c)

/-- The rest of a tag. -/
def tagTail : (fuel : Nat) → Cursor → Except Fault (Text × Cursor)
  | 0, c => .ok ([], c)
  | fuel + 1, c => do
    let (run, c) := c.takeWhile isTagPoint
    if c.head.val = 37 then
      let (octets, c) ← escapedOctets (c.rest.length + 1) c
      match Text.decodeUtf8 octets with
      | .error _ => malformed .badTag
      | .ok decoded =>
        let (more, c) ← tagTail fuel c
        pure (run ++ decoded ++ more, c)
    else pure (run, c)

/-- What follows the handle of a tag, at least one code point long. -/
def tagSuffix (c : Cursor) : Except Fault (Text × Cursor) := do
  if isTagPoint c.head ∨ c.head.val = 37 then tagTail (c.rest.length + 1) c else malformed .badTag

/-- The handle of a tag: an exclamation mark, or a name between two of them. -/
def tagHandle (c : Cursor) : Except Fault (Text × Cursor) :=
  if c.head.val ≠ 33 then malformed .badTag
  else
    let mark := c.head
    let c := c.advance
    if c.head.val = 32 then .ok ([mark], c)
    else
      let (inner, c) := c.takeWhile isNamePoint
      if c.head.val = 33 then .ok (mark :: (inner ++ [mark]), c.advance) else malformed .badTag

/-- Whether a tag, from behind its indicator, has a second exclamation mark. -/
def hasHandle (c : Cursor) : Bool :=
  (c.rest.takeWhile fun x => !isSpaceOrEnd x).contains 33

/-- A tag, from its indicator. -/
def tag (c : Cursor) : Except Fault (Option Text × Text × Cursor) := do
  let next := c.peek 1
  let (handle, suffix, c) ←
    if next.val = 60 then do
      let (suffix, c) ← tagSuffix (c.advanceBy 2)
      if c.head.val = 62 then pure (none, suffix, c.advance) else malformed .badTag
    else if isBlankOrEnd next then pure (none, [(33 : CodePoint)], c.advance)
    else if hasHandle c.advance then do
      let (handle, c) ← tagHandle c
      let (suffix, c) ← tagSuffix c
      pure (some handle, suffix, c)
    else do
      let (suffix, c) ← tagSuffix c.advance
      pure (some [(33 : CodePoint)], suffix, c)
  if isSpaceOrEnd c.head then pure (handle, suffix, c) else malformed .badTag

end Yaml

end SolidityBuild
