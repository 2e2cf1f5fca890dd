import SolidityBuild.Failure
import SolidityBuild.Files.Change
import SolidityBuild.Json.Printer

/-!
Where documents are kept between builds: in memory, or in a folder with one file for each entry. Both
keep JSON texts, so what is read is a fresh value. A folder is made when the first entry is written, and
a file is first written whole under a fresh name and then moved into place, so that no reader sees half
a document.
-/

set_option autoImplicit false

namespace SolidityBuild

/-- What may be handed to a store: a document, or a value that has no JSON text. -/
inductive Storable where
  | document (value : Json)
  | unserializable (fault : SerializationFault)

/-- The JSON text of a storable value. -/
def Storable.text : Storable → Except SerializationFault Text
  | document value => .ok value.render
  | unserializable fault => .error fault

/-- A fault of a file operation where nothing foresees it. -/
def FileFault.defect : FileFault → Defect
  | .system fault => .system fault
  | .nullInPath => .nullInPath

/-- A store in memory: the texts of its entries. -/
abbrev MemoryStore := Table Text

namespace MemoryStore

/-- Whether there is an entry. -/
def has (store : MemoryStore) (name : Text) : Bool := Table.has store name

/-- The value of an entry. -/
def read (store : MemoryStore) (name : Text) : Except Failure Json :=
  match Table.get? store name with
  | none => .error (.cache (.entryMissing name))
  | some text =>
    match Json.parse text with
    | .ok value => .ok value
    | .error fault => .error (.unforeseen fault.defect)

/-- The store with a value under an entry. -/
def write (store : MemoryStore) (name : Text) (value : Storable) : Except Failure MemoryStore :=
  match value.text with
  | .ok text => .ok (Table.put store name text)
  | .error fault => .error (.cache (.unserializable name fault))

end MemoryStore

/-- A store in a folder. -/
structure FolderStore where
  folder : Path
deriving DecidableEq, Repr

namespace FolderStore

/-- What the names of files end with. -/
def suffix : Text := ".json"

/-- What the names of unfinished files begin with. -/
def unfinished : Text := ".tmp-"

/-- The file of an entry. -/
def path (store : FolderStore) (name : Text) : Path :=
  store.folder.join (.ofText (name ++ suffix))

/-- Why no file is named after an entry, if the name of the entry has surrogates that stand for no octet. The
place of the fault is counted in the whole path. -/
def nameFault? (store : FolderStore) (name : Text) : Option Text.SurrogateFault :=
  (Text.unnamableFault? 0 name).bind fun _ => Text.unnamableFault? 0 (store.path name).text

/-- Whether there is an entry. -/
def has (store : FolderStore) (files : Files) (name : Text) : Except Failure Bool :=
  match store.nameFault? name with
  | some _ => .ok false
  | none =>
    match files.isFile (store.path name) with
    | .ok found => .ok found
    | .error fault => .error (.unforeseen fault.defect)

/-- The value of an entry, which is an object. -/
def read (store : FolderStore) (files : Files) (name : Text) : Except Failure Json :=
  let path := store.path name
  match store.nameFault? name with
  | some fault => .error (.unforeseen (.surrogates fault))
  | none =>
    match files.readText path with
    | .error (.file (.system fault)) => .error (.cache (.unreadable path.text fault))
    | .error (.file .nullInPath) => .error (.unforeseen .nullInPath)
    | .error (.octets fault) => .error (.unforeseen (.octets fault))
    | .ok text =>
      match Json.parse text with
      | .error (.notJson fault) => .error (.cache (.notJson path.text fault))
      | .error fault => .error (.unforeseen fault.defect)
      | .ok (.object entries) => .ok (.object entries)
      | .ok _ => .error (.cache (.notObject path.text))

/-- The name of the unfinished file of a given number. -/
def unfinishedName (number : Nat) : Text :=
  let digits := Text.ofNat number
  unfinished ++ Text.times (8 - digits.length) "0" ++ digits ++ suffix

/-- A path in a folder at which nothing stands yet. -/
def freshPath (files : Files) (folder : Path) : Path :=
  let candidates := (List.range (files.entries.length + 1)).map fun n => folder.child (unfinishedName n)
  let isFree (p : Path) : Bool :=
    match files.spot false p with
    | .ok ⟨_, some _⟩ => false
    | _ => true
  (candidates.find? isFree).getD (folder.child (unfinishedName 0))

/-- A failure to write an entry. -/
def unwritable (path : Path) : FileFault → Failure
  | .system fault => .cache (.unwritable path.text fault)
  | .nullInPath => .unforeseen .nullInPath

/-- Writes an entry; what is left behind by a failure are folders only. -/
def write (store : FolderStore) (files : Files) (name : Text) (value : Storable) :
    Files × Except Failure Unit :=
  let path := store.path name
  match files.ensurePath store.folder with
  | (files, .error fault) => (files, .error (unwritable path fault))
  | (files, .ok ()) =>
    let fresh := freshPath files (files.literal store.folder)
    match files.write fresh [] with
    | .error fault => (files, .error (unwritable path fault))
    | .ok started =>
      match value.text with
      | .error fault => (started.discard fresh, .error (.unforeseen (.unserializable fault)))
      | .ok text =>
        match started.write fresh (text.flatMap Text.octetsOf) with
        | .error fault => (started.discard fresh, .error (unwritable path fault))
        | .ok written =>
          match store.nameFault? name with
          | some fault => (written.discard fresh, .error (.unforeseen (.surrogates fault)))
          | none =>
            match written.move fresh path with
            | .error fault => (written.discard fresh, .error (unwritable path fault))
            | .ok moved => (moved, .ok ())

end FolderStore

end SolidityBuild
