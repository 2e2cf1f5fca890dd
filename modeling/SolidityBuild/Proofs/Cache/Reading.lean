import SolidityBuild.Proofs.Cache.Folder

/-!
Reading any entry of a store in a folder. Whatever its file holds, and whether there is a file or not, an object is
read or the store complains, with four exceptions that nothing foresees: octets that are no UTF-8, a whole number
with too many digits, and a path or a name that no file can have.
-/

set_option autoImplicit false

namespace SolidityBuild

namespace FolderStore

variable {store : FolderStore} {files : Files} {name : Text} {defect : Defect}

/-- What nothing foresees in an entry. -/
inductive Escapes (store : FolderStore) (files : Files) (name : Text) : Defect → Prop where
  | octets {octets : Octets} {fault : Text.OctetFault} (named : store.nameFault? name = none)
      (read : files.readOctets (store.path name) = .ok octets) (decode : Text.decodeUtf8 octets = .error fault) :
      Escapes store files name (.octets fault)
  | digits {octets : Octets} {text : Text} {digits : Nat} (named : store.nameFault? name = none)
      (read : files.readOctets (store.path name) = .ok octets) (decode : Text.decodeUtf8 octets = .ok text)
      (parse : Json.parse text.unifyNewlines = .error (.tooManyDigits digits)) :
      Escapes store files name (.tooManyDigits digits)
  | null (named : store.nameFault? name = none) (read : files.readOctets (store.path name) = .error .nullInPath) :
      Escapes store files name .nullInPath
  | surrogates {fault : Text.SurrogateFault} (unnamable : store.nameFault? name = some fault) :
      Escapes store files name (.surrogates fault)

/-- What is read of an entry: an object that its file spells, a complaint of the store, or something that nothing
foresees. -/
inductive Readout (store : FolderStore) (files : Files) (name : Text) : Except Failure Json → Prop where
  | object {octets : Octets} {text : Text} {entries : Table Json}
      (read : files.readOctets (store.path name) = .ok octets) (decode : Text.decodeUtf8 octets = .ok text)
      (parse : Json.parse text.unifyNewlines = .ok (.object entries)) :
      Readout store files name (.ok (.object entries))
  | refused (fault : CacheFault) : Readout store files name (.error (.cache fault))
  | escaped {defect : Defect} (escapes : store.Escapes files name defect) :
      Readout store files name (.error (.unforeseen defect))

/-- **Every content of a file, and every other thing at its place, is read to one of these.** -/
theorem readout_read (store : FolderStore) (files : Files) (name : Text) :
    store.Readout files name (store.read files name) := by
  rw [read]
  cases hnamed : store.nameFault? name with
  | some fault => exact .escaped (.surrogates hnamed)
  | none =>
    dsimp only
    rw [Files.readText]
    cases hoctets : files.readOctets (store.path name) with
    | error fault =>
      cases fault with
      | system fault => exact .refused _
      | nullInPath => exact .escaped (.null hnamed hoctets)
    | ok octets =>
      dsimp only
      cases hdecode : Text.decodeUtf8 octets with
      | error fault => exact .escaped (.octets hnamed hoctets hdecode)
      | ok text =>
        dsimp only
        cases hparse : Json.parse text.unifyNewlines with
        | error fault =>
          cases fault with
          | notJson fault => exact .refused _
          | tooManyDigits digits => exact .escaped (.digits hnamed hoctets hdecode hparse)
        | ok value =>
          cases value with
          | object entries => exact .object hoctets hdecode hparse
          | null | bool _ | int _ | float _ | text _ | list _ => exact .refused _

theorem read_of_escapes (h : store.Escapes files name defect) :
    store.read files name = .error (.unforeseen defect) := by
  rw [read]
  cases h with
  | octets named read decode =>
    rw [named, Files.readText, read]
    dsimp only
    rw [decode]
  | digits named read decode parse =>
    rw [named, Files.readText, read]
    dsimp only
    rw [decode]
    dsimp only
    rw [parse]
    rfl
  | null named read => rw [named, Files.readText, read]
  | surrogates unnamable => rw [unnamable]

/-- **Exactly these are not foreseen.** -/
theorem read_eq_unforeseen_iff :
    store.read files name = .error (.unforeseen defect) ↔ store.Escapes files name defect := by
  refine ⟨fun h => ?_, read_of_escapes⟩
  have hreadout := store.readout_read files name
  rw [h] at hreadout
  cases hreadout with
  | escaped escapes => exact escapes

end FolderStore

end SolidityBuild
