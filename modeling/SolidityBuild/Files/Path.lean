import SolidityBuild.Text.Basic

/-!
Paths. A path is relative, or starts at the top with one slash or with exactly two, which stay two; its
parts are what stands between slashes, without empty parts and single dots. Double dots stay: what they
mean depends on links.
-/

set_option autoImplicit false

namespace SolidityBuild

/-- A path. -/
structure Path where
  /-- The number of leading slashes: none for a relative path. -/
  slashes : Nat
  parts : List Text
deriving DecidableEq, Repr

namespace Path

/-- The separator of parts. -/
def separator : CodePoint := 47

/-- The folder itself. -/
def dot : Text := "."

/-- The folder above. -/
def dotDot : Text := ".."

/-- Whether a part of a written path is a part of the path. -/
def isPart (part : Text) : Bool := !part.isEmpty && part ≠ dot

/-- The path that a text spells. -/
def ofText (t : Text) : Path :=
  let slashes := (t.takeWhile fun c => c = separator).length
  ⟨if slashes < 3 then slashes else 1, (Text.splitOn separator t).filter isPart⟩

/-- Whether the path starts at the top. -/
def isAbsolute (p : Path) : Bool := p.slashes ≠ 0

/-- The text of a path; the relative path without parts is a dot. -/
def text (p : Path) : Text :=
  if p.slashes = 0 ∧ p.parts = [] then dot
  else List.replicate p.slashes separator ++ Text.join [separator] p.parts

/-- The path that `q` spells from `p`. -/
def join (p q : Path) : Path := if q.isAbsolute then q else ⟨p.slashes, p.parts ++ q.parts⟩

/-- The path of an entry of a folder. -/
def child (p : Path) (name : Text) : Path := ⟨p.slashes, p.parts ++ [name]⟩

/-- The path of the folder that holds the entry; a path without parts is its own parent. -/
def parent (p : Path) : Path := ⟨p.slashes, p.parts.dropLast⟩

/-- Parts from the top with double dots taken literally: each takes away the part before it. -/
def collapse (location : List Text) (parts : List Text) : List Text :=
  parts.foldl (fun l part =>
    if !isPart part then l else if part = dotDot then l.dropLast else l ++ [part]) location

end Path

end SolidityBuild
