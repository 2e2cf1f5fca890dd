import SolidityBuild.Text.Digits

/-!
Versions of the compiler. Tools write them with a leading letter, a commit and a platform; the part
that selects a compiler is three numbers with points between them, the leftmost such part, with the
last number as long as it goes. Numbers are digits of any script.
-/

set_option autoImplicit false

namespace SolidityBuild

namespace Version

/-- The digits in front of a text and the rest. -/
def digitRun (t : Text) : Text × Text := t.span CodePoint.isDecimal

/-- A number, at least one digit long, in front of a text. -/
def number? (t : Text) : Option (Text × Text) :=
  match digitRun t with
  | ([], _) => none
  | found => some found

/-- A number with a point after it. -/
def pointedNumber? (t : Text) : Option (Text × Text) :=
  match number? t with
  | some (digits, c :: rest) => if c = '.' then some (digits ++ [c], rest) else none
  | _ => none

/-- The three numbers that a text begins with. -/
def leading? (t : Text) : Option Text := do
  let (major, t) ← pointedNumber? t
  let (minor, t) ← pointedNumber? t
  let (patch, _) ← number? t
  pure (major ++ minor ++ patch)

/-- The leftmost three numbers of a text. -/
def scan? : Text → Option Text
  | [] => none
  | c :: t => (leading? (c :: t)).or (scan? t)

/-- The mark between the version proper and the commit. -/
def commitMark : Text := "+commit."

/-- The code points of a commit. -/
def isCommitPoint (c : CodePoint) : Bool := c.isDigit || c.isLower

/-- The commit with its mark, if the text begins with it. -/
def commit? (t : Text) : Option Text := do
  let rest ← Text.after? commitMark t
  match rest.takeWhile isCommitPoint with
  | [] => none
  | commit => some (commitMark ++ commit)

/-- The text up to the end of the first commit. A commit does not stand at the very front, which
`front` says, and not behind a line feed. -/
def throughCommit? (front : Bool) : Text → Option Text
  | [] => none
  | c :: t =>
    match if front then none else commit? (c :: t) with
    | some commit => some commit
    | none => if c = 10 then none else (throughCommit? false t).map (c :: ·)

/-- The leading letter of a version. -/
def leadingLetter : CodePoint := 118

/-- The version to ask for: what stands behind the commit is dropped, and a leading letter is added if
there is none. -/
def ofLong (t : Text) : Text :=
  let version := (throughCommit? true t).getD t
  if version.head? = some leadingLetter then version else leadingLetter :: version

end Version

end SolidityBuild
