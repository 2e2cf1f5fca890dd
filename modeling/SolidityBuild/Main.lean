import SolidityBuild.CommandLine.Run
import SolidityBuild.Json.Display

/-!
The program on a machine. It reads the folders that the arguments name, runs the command on what it has
read, prints what the command prints, and writes back every file that has changed. It gives no commands
to other programs: to a build none of them is there, so it gets by on documents in the cache.
-/

set_option autoImplicit false

namespace SolidityBuild

namespace Machine

/-- The location that a path of the machine spells. -/
def locationOf (path : String) : Location := (Path.ofText (Text.ofString path)).parts

/-- The path of the machine for a location. -/
def pathOf (location : Location) : String := Text.toString (Path.text ⟨1, location⟩)

/-- What stands below an entry of a folder, and the entry itself at a location. A link leads to where it
leads in the end; a file that cannot be read is sealed. -/
partial def entriesAt (location : Location) (entry : IO.FS.DirEntry) :
    IO (List (Location × Node)) := do
  let here := location ++ [Text.ofString entry.fileName]
  match (← entry.path.symlinkMetadata).type with
  | .symlink =>
    let goal ← IO.FS.realPath entry.path
    pure [(here, .link (Text.ofString goal.toString))]
  | .dir => do
    let inside ← (← entry.path.readDir).toList.mapM (entriesAt here)
    pure ((here, .folder) :: inside.flatten)
  | _ =>
    try
      let octets ← IO.FS.readBinFile entry.path
      pure [(here, .file octets.toList)]
    catch _ => pure [(here, .sealed)]

/-- What stands below the folder at a location. -/
def entriesBelow (location : Location) : IO (List (Location × Node)) := do
  let folder : IO.FS.DirEntry := ⟨"/", (pathOf location).drop 1 |>.toString⟩
  let inside ← (← folder.path.readDir).toList.mapM (entriesAt location)
  pure inside.flatten

/-- The folders on the way to a location, and the one at it. -/
def foldersTo (location : Location) : List (Location × Node) :=
  (List.range location.length).map fun n => (location.take (n + 1), .folder)

/-- The paths that a request names. -/
def pathsOf : Request → List Text
  | .detect folder => [folder]
  | .build a => a.folder :: (a.cacheFolder.toList ++ a.output.toList)
  | _ => []

/-- The locations of the folders that exist among paths. -/
def existing (here : Location) (paths : List Text) : IO (List Location) := do
  let found ← paths.mapM fun path => do
    let location := Path.collapse here (Path.ofText path).parts
    let absolute := if (Path.ofText path).isAbsolute then (Path.ofText path).parts else location
    try
      let real ← IO.FS.realPath (pathOf absolute)
      pure (if ← real.isDir then [locationOf real.toString] else [])
    catch _ => pure []
  pure found.flatten

/-- The tree of what a request may read: all folders it names, and the current one. -/
def read (request : Request) : IO Files := do
  let here := locationOf (← IO.currentDir).toString
  let named ← existing here (pathsOf request)
  let parents ← existing here ((pathsOf request).map fun path => (Path.ofText path).parent.text)
  let roots := (here :: named).eraseDups
  let outermost := roots.filter fun r => roots.all fun s => s = r || !s.isPrefixOf r
  let inside ← outermost.mapM entriesBelow
  let above := ((roots ++ parents).flatMap foldersTo).eraseDups
  let missing := above.filter fun (l, _) => inside.flatten.all fun (l', _) => l ≠ l'
  pure ⟨missing ++ inside.flatten, here⟩

/-- Writes what is new in a tree. -/
def write (before after : Files) : IO Unit :=
  after.entries.forM fun (location, node) => do
    if before.node? location ≠ some node then
      match node with
      | .folder => IO.FS.createDirAll (pathOf location)
      | .file octets => IO.FS.writeBinFile (pathOf location) ⟨octets.toArray⟩
      | _ => pure ()

/-- The line that tells an event. -/
def eventLine (e : Event) : Text :=
  let fields : List Text := e.fields.map fun (key, value) => [32] ++ key ++ [61] ++ value.display
  [91] ++ e.level.name ++ [93, 32] ++ e.name ++ fields.flatten ++ [10]

end Machine

end SolidityBuild

open SolidityBuild in
/-- Runs the command that the arguments spell. -/
def main (arguments : List String) : IO UInt32 := do
  let arguments := arguments.map Text.ofString
  let files ← Machine.read (Request.ofArguments arguments)
  let bench : Workbench :=
    ⟨[], "/usr/local/bin", [], "/usr/bin/python3", [], fun _ _ => .notFound, []⟩
  let (shop, ended) := (CommandLine.run arguments).run ⟨files, [], bench⟩
  Machine.write files shop.files
  IO.eprint (Text.toString (ended.events.flatMap Machine.eventLine))
  match ended.outcome with
  | .ok done => do
    IO.print (Text.toString done.stdout)
    IO.eprint (Text.toString done.stderr)
    pure (UInt32.ofNat done.code)
  | .error failure => do
    IO.eprint (Text.toString (failure.message ++ "\n"))
    pure 1
