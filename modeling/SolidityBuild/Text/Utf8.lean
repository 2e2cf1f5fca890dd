import SolidityBuild.Number.Decimal

/-!
UTF-8. Encoding fails exactly on surrogates and reports the first run of them; decoding is strict
(shortest forms, no surrogates, nothing above the last plane) and reports the first place where the
octets leave the encoding, how many octets the broken sequence spans, and why.
-/

set_option autoImplicit false

namespace SolidityBuild

/-- A sequence of octets. -/
abbrev Octets := List UInt8

namespace Text

/-- The first run of surrogates of a text that was to be encoded: its code points and its place. -/
structure SurrogateFault where
  position : Nat
  first : CodePoint
  count : Nat
deriving DecidableEq, Repr

namespace SurrogateFault

/-- The message of a failed encoding. -/
def message (f : SurrogateFault) : Text :=
  let place : Text :=
    if f.count = 1 then
      "character '\\u" ++ hexFour f.first ++ "' in position " ++ Text.ofNat f.position
    else
      "characters in position " ++ Text.ofNat f.position ++ "-" ++
        Text.ofNat (f.position + f.count - 1)
  "'utf-8' codec can't encode " ++ place ++ ": surrogates not allowed"
where
  /-- Surrogates take exactly four hexadecimal digits. -/
  hexFour (c : CodePoint) : Text :=
    [c.val / 4096, c.val / 256, c.val / 16, c.val].map CodePoint.ofHexDigit

end SurrogateFault

/-- The octets of one code point that is no surrogate. -/
def octetsOf (c : CodePoint) : Octets :=
  let n := c.val
  if n < 0x80 then [UInt8.ofNat n]
  else if n < 0x800 then [UInt8.ofNat (0xC0 + n / 64), UInt8.ofNat (0x80 + n % 64)]
  else if n < 0x10000 then
    [UInt8.ofNat (0xE0 + n / 4096), UInt8.ofNat (0x80 + n / 64 % 64), UInt8.ofNat (0x80 + n % 64)]
  else
    [UInt8.ofNat (0xF0 + n / 262144), UInt8.ofNat (0x80 + n / 4096 % 64),
      UInt8.ofNat (0x80 + n / 64 % 64), UInt8.ofNat (0x80 + n % 64)]

/-- The place of the first run of surrogates, counted from `position`. -/
def surrogateFault? (position : Nat) : Text → Option SurrogateFault
  | [] => none
  | c :: rest =>
    if c.isSurrogate then
      some ⟨position, c, (c :: rest).takeWhile CodePoint.isSurrogate |>.length⟩
    else surrogateFault? (position + 1) rest

/-- Whether a surrogate stands for one octet in the names that a file system knows. -/
def isOctetSurrogate (c : CodePoint) : Bool := 0xDC80 ≤ c.val && c.val ≤ 0xDCFF

/-- The place, counted from `position`, of the first surrogates that no file is named with: a run that begins
with one that stands for no octet. -/
def unnamableFault? (position : Nat) : Text → Option SurrogateFault
  | [] => none
  | c :: rest =>
    if c.isSurrogate && !isOctetSurrogate c then
      some ⟨position, c, (c :: rest).takeWhile CodePoint.isSurrogate |>.length⟩
    else unnamableFault? (position + 1) rest

/-- The UTF-8 form of a text without surrogates. -/
def encodeUtf8 (t : Text) : Except SurrogateFault Octets :=
  match surrogateFault? 0 t with
  | some fault => .error fault
  | none => .ok (t.flatMap octetsOf)

/-- The number of octets of a text, a surrogate counted as three. -/
def utf8Size (t : Text) : Nat := (t.flatMap octetsOf).length

/-- Why octets are not UTF-8. -/
inductive OctetReason where
  | invalidStart
  | invalidContinuation
  | unexpectedEnd
deriving DecidableEq, Repr

namespace OctetReason

/-- The wording of a reason. -/
def message : OctetReason → Text
  | invalidStart => "invalid start byte"
  | invalidContinuation => "invalid continuation byte"
  | unexpectedEnd => "unexpected end of data"

end OctetReason

/-- The first sequence of octets that is not UTF-8. -/
structure OctetFault where
  position : Nat
  first : UInt8
  count : Nat
  reason : OctetReason
deriving DecidableEq, Repr

namespace OctetFault

/-- The message of a failed decoding. -/
def message (f : OctetFault) : Text :=
  let place : Text :=
    if f.count = 1 then
      "byte 0x" ++ [CodePoint.ofHexDigit (f.first.toNat / 16), CodePoint.ofHexDigit f.first.toNat] ++
        " in position " ++ Text.ofNat f.position
    else
      "bytes in position " ++ Text.ofNat f.position ++ "-" ++
        Text.ofNat (f.position + f.count - 1)
  "'utf-8' codec can't decode " ++ place ++ ": " ++ f.reason.message

end OctetFault

/-- The form that a first octet announces: how many octets follow it, which range the second octet
must lie in, and the bits of the code point it carries itself. -/
def announced? (first : UInt8) : Option (Nat × UInt8 × UInt8 × Nat) :=
  let n := first.toNat
  if n < 0x80 then some (0, 0x80, 0xBF, n)
  else if n < 0xC2 then none
  else if n < 0xE0 then some (1, 0x80, 0xBF, n - 0xC0)
  else if n = 0xE0 then some (2, 0xA0, 0xBF, 0)
  else if n = 0xED then some (2, 0x80, 0x9F, 13)
  else if n < 0xF0 then some (2, 0x80, 0xBF, n - 0xE0)
  else if n = 0xF0 then some (3, 0x90, 0xBF, 0)
  else if n < 0xF4 then some (3, 0x80, 0xBF, n - 0xF0)
  else if n = 0xF4 then some (3, 0x80, 0x8F, 4)
  else none

/-- Reads `missing` further octets of a sequence of which `seen` were read and whose bits so far are
`bits`. The next octet must lie between `low` and `high`. -/
def continueSequence :
    (missing seen bits : Nat) → (low high : UInt8) → Octets → Except (Nat × OctetReason) (Nat × Octets)
  | 0, _, bits, _, _, rest => .ok (bits, rest)
  | _ + 1, seen, _, _, _, [] => .error (seen, .unexpectedEnd)
  | missing + 1, seen, bits, low, high, o :: rest =>
    if low ≤ o ∧ o ≤ high then
      continueSequence missing (seen + 1) (bits * 64 + (o.toNat - 0x80)) 0x80 0xBF rest
    else .error (seen, .invalidContinuation)

/-- Reading on never lengthens what is left. -/
theorem length_continueSequence {missing seen bits : Nat} {low high : UInt8} {octets rest : Octets}
    {n : Nat} (h : continueSequence missing seen bits low high octets = .ok (n, rest)) :
    rest.length ≤ octets.length := by
  induction missing generalizing seen bits low high octets with
  | zero => simp only [continueSequence, Except.ok.injEq, Prod.mk.injEq] at h; simp [h.2]
  | succ missing ih =>
    cases octets with
    | nil => simp [continueSequence] at h
    | cons o octets =>
      rw [continueSequence] at h
      split at h
      · have := ih h; simp; omega
      · simp at h

/-- Decodes octets of which the first stands at `position`. -/
def decodeFrom (position : Nat) (octets : Octets) : Except OctetFault Text :=
  match octets with
  | [] => .ok []
  | first :: rest =>
    match announced? first with
    | none => .error ⟨position, first, 1, .invalidStart⟩
    | some (following, low, high, bits) =>
      match h : continueSequence following 1 bits low high rest with
      | .error (seen, reason) => .error ⟨position, first, seen, reason⟩
      | .ok (n, rest') =>
        have : rest'.length ≤ rest.length := length_continueSequence h
        (decodeFrom (position + 1 + following) rest').map fun t =>
          (if hn : n < 0x110000 then ⟨n, hn⟩ else 0xFFFD) :: t
termination_by octets.length

/-- The text of octets in UTF-8. -/
def decodeUtf8 (octets : Octets) : Except OctetFault Text := decodeFrom 0 octets

end Text

end SolidityBuild
