import SolidityBuild.Files.Path
import SolidityBuild.Files.SystemFault
import SolidityBuild.Table
import SolidityBuild.Text.Lines
import SolidityBuild.Text.Utf8

/-!
A tree of files, and how paths lead through it. The tree is the list of its entries, each with the names
that lead to it from the top; the top itself is always a folder. A link is followed wherever it stands
before the end of a path, and at the end if the operation wants what it leads to; after more links than
the limit the path leads nowhere.
-/

set_option autoImplicit false

namespace SolidityBuild

/-- The names that lead to an entry from the top. -/
abbrev Location := List Text

/-- What stands at a location. -/
inductive Node where
  | folder
  | file (octets : Octets)
  /-- A file that nobody may read. -/
  | sealed
  | link (target : Text)
deriving DecidableEq, Repr

/-- A tree of files, and the folder in which relative paths start. -/
structure Files where
  entries : List (Location × Node) := []
  here : Location := []
deriving Repr

/-- Why an operation on a path failed. -/
inductive FileFault where
  | system (fault : SystemFault)
  /-- The path holds the code point zero and so is no path at all. -/
  | nullInPath
deriving DecidableEq, Repr

/-- Where a path leads: a location in an existing folder, and what stands there, if anything. -/
structure Spot where
  location : Location
  node : Option Node
deriving DecidableEq, Repr

namespace Files

/-- What stands at a location. -/
def node? (files : Files) (location : Location) : Option Node :=
  if location = [] then some .folder else files.entries.lookup location

/-- The tree with a node at a location, in the place of what stood there. -/
def put (files : Files) (location : Location) (node : Node) : Files :=
  { files with
    entries := (files.entries.filter fun e => e.1 ≠ location) ++ [(location, node)] }

/-- The tree without a location and everything below it. -/
def erase (files : Files) (location : Location) : Files :=
  { files with entries := files.entries.filter fun e => !location.isPrefixOf e.1 }

/-- The names in the folder at a location. -/
def names (files : Files) (location : Location) : List Text :=
  files.entries.filterMap fun (l, _) =>
    match l.getLast? with
    | some name => if l.dropLast = location then some name else none
    | none => none

/-- The most octets a name may have. -/
def nameLimit : Nat := 255

/-- The number of octets from which on a path is too long. -/
def pathLimit : Nat := 4096

/-- The most links on the way of one path. -/
def linkLimit : Nat := 40

/-- Whether a location is that of a folder. -/
def isFolderAt (files : Files) (location : Location) : Bool :=
  match files.node? location with
  | some .folder => true
  | _ => false

/-- Where the parts of a path lead from a location. `jump` goes on behind a link. -/
def walkParts (files : Files) (followLast : Bool)
    (jump : Location → List Text → Except SystemCause Spot) :
    Location → List Text → Except SystemCause Spot
  | location, [] => .ok ⟨location, files.node? location⟩
  | location, part :: rest =>
    if !files.isFolderAt location then .error .notDirectory
    else if !Path.isPart part then walkParts files followLast jump location rest
    else if part = Path.dotDot then walkParts files followLast jump location.dropLast rest
    else if nameLimit < Text.utf8Size part then .error .nameTooLong
    else
      let next := location ++ [part]
      match files.node? next with
      | none => if rest = [] then .ok ⟨next, none⟩ else .error .notFound
      | some (.link target) =>
        if rest = [] ∧ !followLast then .ok ⟨next, some (.link target)⟩
        else
          let start := if target.head? = some Path.separator then [] else location
          jump start (Text.splitOn Path.separator target ++ rest)
      | some _ => walkParts files followLast jump next rest

/-- Where parts lead over at most `links` links. -/
def walk (files : Files) (followLast : Bool) :
    (links : Nat) → Location → List Text → Except SystemCause Spot
  | 0 => files.walkParts followLast fun _ _ => .error .tooManyLinks
  | links + 1 => files.walkParts followLast (walk files followLast links)

/-- Where a path starts. -/
def start (files : Files) (p : Path) : Location := if p.isAbsolute then [] else files.here

/-- Whether a path holds the code point zero. -/
def hasNull (p : Path) : Bool := p.parts.any fun part => part.contains 0

/-- A fault about a path. -/
def fault (cause : SystemCause) (p : Path) : FileFault := .system ⟨cause, p.text, none⟩

/-- Where a path leads. -/
def spot (files : Files) (followLast : Bool) (p : Path) : Except FileFault Spot :=
  if hasNull p then .error .nullInPath
  else if pathLimit ≤ Text.utf8Size p.text then .error (fault .nameTooLong p)
  else match files.walk followLast linkLimit (files.start p) p.parts with
    | .ok spot => .ok spot
    | .error cause => .error (fault cause p)

/-- What a path leads to, links followed. -/
def target (files : Files) (p : Path) : Except FileFault Node := do
  let spot ← files.spot true p
  match spot.node with
  | some node => pure node
  | none => .error (fault .notFound p)

/-- Whether what a path leads to passes a test. A path that leads nowhere passes none; one that is too
long is a fault. -/
def holds (files : Files) (test : Node → Bool) (p : Path) : Except FileFault Bool :=
  match files.target p with
  | .ok node => .ok (test node)
  | .error (.system f) => if f.cause = .nameTooLong then .error (.system f) else .ok false
  | .error .nullInPath => .ok false

/-- Whether there is anything at a path. -/
def exists? (files : Files) (p : Path) : Except FileFault Bool := files.holds (fun _ => true) p

/-- Whether there is a folder at a path. -/
def isFolder (files : Files) (p : Path) : Except FileFault Bool :=
  files.holds (fun node => node matches .folder) p

/-- Whether there is a file at a path. -/
def isFile (files : Files) (p : Path) : Except FileFault Bool :=
  files.holds (fun node => node matches .file _ | .sealed) p

/-- The octets of the file at a path. -/
def readOctets (files : Files) (p : Path) : Except FileFault Octets := do
  match ← files.target p with
  | .file octets => pure octets
  | .sealed => .error (fault .denied p)
  | _ => .error (fault .isDirectory p)

/-- The names in the folder at a path. -/
def readFolder (files : Files) (p : Path) : Except FileFault (List Text) := do
  let spot ← files.spot true p
  match spot.node with
  | some .folder => pure (files.names spot.location)
  | some _ => .error (fault .notDirectory p)
  | none => .error (fault .notFound p)

end Files

/-- Why a file did not yield a text. -/
inductive TextFault where
  | file (fault : FileFault)
  | octets (fault : Text.OctetFault)
deriving DecidableEq, Repr

namespace Files

/-- The text of the file at a path: UTF-8, with every line end turned into a line feed. -/
def readText (files : Files) (p : Path) : Except TextFault Text :=
  match files.readOctets p with
  | .error fault => .error (.file fault)
  | .ok octets =>
    match Text.decodeUtf8 octets with
    | .error fault => .error (.octets fault)
    | .ok text => .ok text.unifyNewlines

end Files

end SolidityBuild
