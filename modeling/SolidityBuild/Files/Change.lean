import SolidityBuild.Files.Basic

/-!
Operations that change a tree of files. An operation that takes several steps leaves behind what it did
before the step that failed, so its result is the tree afterwards together with the outcome.
-/

set_option autoImplicit false

namespace SolidityBuild

namespace Files

/-- The tree with a file of the given octets at a path: the file that the path leads to, or a new one. -/
def write (files : Files) (p : Path) (octets : Octets) : Except FileFault Files := do
  let spot ← files.spot true p
  match spot.node with
  | some .folder => .error (fault .isDirectory p)
  | some .sealed => .error (fault .denied p)
  | _ => pure (files.put spot.location (.file octets))

/-- The tree with a new folder at a path. -/
def makeFolder (files : Files) (p : Path) : Except FileFault Files := do
  let spot ← files.spot false p
  match spot.node with
  | some _ => .error (fault .alreadyThere p)
  | none => pure (files.put spot.location .folder)

/-- Makes one folder; one that is there already is as good. -/
def ensureFolder (files : Files) (p : Path) : Files × Except FileFault Unit :=
  match files.makeFolder p with
  | .ok files' => (files', .ok ())
  | .error fault =>
    match fault with
    | .nullInPath => (files, .error fault)
    | .system f =>
      if f.cause = .notFound then (files, .error fault)
      else match files.isFolder p with
        | .ok true => (files, .ok ())
        | .ok false => (files, .error fault)
        | .error fault' => (files, .error fault')

/-- Whether a fault says that something on the way is missing. -/
def isMissing : FileFault → Bool
  | .system f => f.cause = .notFound
  | .nullInPath => false

/-- Makes a folder and, where they are missing, at most `levels` folders above it. -/
def ensureFolders : (levels : Nat) → Files → Path → Files × Except FileFault Unit
  | 0, files, p => files.ensureFolder p
  | levels + 1, files, p =>
    match files.ensureFolder p with
    | (files, .ok ()) => (files, .ok ())
    | (files, .error fault) =>
      if isMissing fault ∧ p.parent ≠ p then
        match ensureFolders levels files p.parent with
        | (files, .error fault) => (files, .error fault)
        | (files, .ok ()) => files.ensureFolder p
      else (files, .error fault)

/-- Makes a folder and all missing folders above it. -/
def ensurePath (files : Files) (p : Path) : Files × Except FileFault Unit :=
  ensureFolders (p.parts.length + 1) files p

/-- What is at one path comes to stand at another, in the place of what stood there; a folder is not
replaced. -/
def move (files : Files) (source target : Path) : Except FileFault Files := do
  let about (cause : SystemCause) : FileFault :=
    .system ⟨cause, source.text, some target.text⟩
  let find (p : Path) : Except FileFault Spot :=
    match files.spot false p with
    | .error (.system f) => .error (about f.cause)
    | found => found
  let origin ← find source
  let goal ← find target
  match origin.node, goal.node with
  | none, _ => .error (about .notFound)
  | some _, some .folder => .error (about .isDirectory)
  | some node, _ => pure ((files.erase origin.location).put goal.location node)

/-- The tree without the file at a path, if there is one. -/
def discard (files : Files) (p : Path) : Files :=
  match files.spot false p with
  | .ok ⟨location, some _⟩ => files.erase location
  | _ => files

/-- The path from the top that a path spells, with double dots taken literally. -/
def literal (files : Files) (p : Path) : Path :=
  ⟨if p.isAbsolute then p.slashes else 1, Path.collapse (files.start p) p.parts⟩

end Files

end SolidityBuild
