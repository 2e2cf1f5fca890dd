import SolidityBuild.Files.Basic

/-!
The path from the top that stands for a path, with links and double dots worked out. What does not
exist is taken literally. A path that leads back to a link that is being worked out has no such path.
-/

set_option autoImplicit false

namespace SolidityBuild

namespace Files

/-- Parts worked out from a location: where they lead, or, if they lead back to a link that is being
worked out, the location of that link with the parts behind it taken literally. -/
def resolveParts (files : Files)
    (follow : (link : Location) → (target : Text) → Except Location Location) :
    Location → List Text → Except Location Location
  | location, [] => .ok location
  | location, part :: rest =>
    if !Path.isPart part then resolveParts files follow location rest
    else if part = Path.dotDot then resolveParts files follow location.dropLast rest
    else
      let next := location ++ [part]
      match files.node? next with
      | some (.link target) =>
        match follow next target with
        | .ok location => resolveParts files follow location rest
        | .error stuck => .error (Path.collapse stuck rest)
      | _ => resolveParts files follow next rest

/-- Where a link leads while the links `pending` are being worked out. -/
def followLink (files : Files) :
    (fuel : Nat) → (pending : List Location) → (link : Location) → (target : Text) →
      Except Location Location
  | 0, _, link, _ => .error link
  | fuel + 1, pending, link, target =>
    if pending.contains link then .error link
    else
      let start := if target.head? = some Path.separator then [] else link.dropLast
      files.resolveParts (followLink files fuel (link :: pending)) start
        (Text.splitOn Path.separator target)

/-- Why a path has no path from the top. -/
inductive ResolveFault where
  | nullInPath
  | linkLoop (path : Text)
deriving DecidableEq, Repr

/-- The path from the top for a path. Every link is worked out at most once on the way to itself, so the
number of entries is fuel enough. -/
def resolve (files : Files) (p : Path) : Except ResolveFault Path :=
  if hasNull p then .error .nullInPath
  else
    let result := files.resolveParts (files.followLink (files.entries.length + 1) [])
      (files.start p) p.parts
    let resolved : Path :=
      match result with
      | .ok location => ⟨1, location⟩
      | .error location => ⟨1, location⟩
    match files.target resolved with
    | .error (.system f) =>
      if f.cause = .tooManyLinks then .error (.linkLoop resolved.text) else .ok resolved
    | _ => .ok resolved

end Files

end SolidityBuild
