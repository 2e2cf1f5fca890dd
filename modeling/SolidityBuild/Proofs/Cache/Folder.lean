import SolidityBuild.Proofs.Cache.Memory
import SolidityBuild.Proofs.Files.Changing
import SolidityBuild.Proofs.Json.VisibleText
import SolidityBuild.Proofs.Text.Pieces
import SolidityBuild.Proofs.Text.Utf8
import Mathlib.Tactic.Choose

/-!
The store in a folder. Whether an entry is there, and how it is read, depends on what its path leads to only.
Writing an entry makes the folder of the store where it is missing, and puts the text of the entry at its file in
that folder, which is all that changes; or it fails, and then everything that stood stands.
-/

set_option autoImplicit false

namespace SolidityBuild

/-! ## Names -/

/-- Digests are spelled with hexadecimal digits. -/
theorem name_sha256 (message : Octets) : Path.Name (sha256 message) := by
  intro hmem
  obtain ⟨word, -, hword⟩ := List.mem_flatMap.mp hmem
  obtain ⟨shift, -, hdigit⟩ := List.mem_map.mp hword
  have hval := congrArg Fin.val hdigit
  have hseparator : Path.separator.val = 47 := rfl
  rw [CodePoint.ofHexDigit, hseparator] at hval
  split at hval <;> dsimp only at hval <;> omega

theorem scalar_sha256 (message : Octets) : (sha256 message).Scalar := by
  intro c hmem
  obtain ⟨word, -, hword⟩ := List.mem_flatMap.mp hmem
  obtain ⟨shift, -, rfl⟩ := List.mem_map.mp hword
  rw [CodePoint.isSurrogate, Bool.and_eq_false_iff, decide_eq_false_iff_not, CodePoint.ofHexDigit]
  left
  split <;> dsimp only <;> omega

namespace Cache.IsEntry

variable {entry : Text}

theorem exists_digest (h : IsEntry entry) :
    ∃ message, entry = inputEntry (sha256 message) ∨ entry = outputEntry (sha256 message) := by
  obtain ⟨document, k, hk, hentry⟩ := h
  rw [key] at hk
  cases hencode : Text.encodeUtf8 document.canonical with
  | error fault =>
    rw [hencode] at hk
    cases hk
  | ok octets =>
    rw [hencode] at hk
    obtain rfl := Except.ok.inj hk
    exact ⟨octets, hentry⟩

/-- The entries of documents may name files. -/
theorem name (h : IsEntry entry) : Path.Name entry := by
  obtain ⟨message, rfl | rfl⟩ := h.exists_digest
  · exact List.not_mem_append (by decide) (name_sha256 message)
  · exact List.not_mem_append (by decide) (name_sha256 message)

theorem scalar (h : IsEntry entry) : entry.Scalar := by
  obtain ⟨message, rfl | rfl⟩ := h.exists_digest
  · exact Text.scalar_append.mpr ⟨Text.scalar_ofString _, scalar_sha256 message⟩
  · exact Text.scalar_append.mpr ⟨Text.scalar_ofString _, scalar_sha256 message⟩

end Cache.IsEntry

theorem Text.unnamableFault?_of_scalar {t : Text} (h : t.Scalar) : ∀ position, unnamableFault? position t = none := by
  induction t with
  | nil => exact fun _ => rfl
  | cons c rest ih =>
    intro position
    rw [unnamableFault?, h c List.mem_cons_self, Bool.false_and, if_neg Bool.false_ne_true]
    exact ih (fun c' hc' => h c' (List.mem_cons_of_mem c hc')) _

/-! ## The files of entries -/

namespace FolderStore

variable {store : FolderStore} {files files' : Files} {name : Text}

/-- The name of the file of an entry. -/
def fileName (name : Text) : Text := name ++ suffix

theorem fileName_injective {name name' : Text} (h : fileName name = fileName name') : name = name' :=
  List.append_cancel_right h

theorem suffix_suffix_fileName (name : Text) : suffix <:+ fileName name := List.suffix_append name suffix

theorem isPart_fileName (name : Text) : Path.isPart (fileName name) = true := by
  have hlength : 5 ≤ (fileName name).length := (suffix_suffix_fileName name).length_le
  have hne : fileName name ≠ [] := List.ne_nil_of_length_pos (by omega)
  have hdot : fileName name ≠ Path.dot := by
    intro heq
    rw [heq] at hlength
    exact absurd hlength (by decide)
  rw [Path.isPart, Bool.and_eq_true, Bool.not_eq_true', List.isEmpty_eq_false_iff, decide_eq_true_eq]
  exact ⟨hne, hdot⟩

theorem fileName_ne_dotDot (name : Text) : fileName name ≠ Path.dotDot := by
  intro heq
  have hlength : 5 ≤ (fileName name).length := (suffix_suffix_fileName name).length_le
  rw [heq] at hlength
  exact absurd hlength (by decide)

/-- The file of an entry is in the folder of the store. -/
theorem path_eq (store : FolderStore) (hname : Path.Name name) :
    store.path name = store.folder.child (fileName name) := by
  have hmark : Path.separator ∉ fileName name := by
    rw [fileName, List.mem_append]
    exact not_or.mpr ⟨hname, by decide⟩
  have hrelative : (Path.ofText (fileName name)).slashes = 0 := by
    have hhead : (fileName name).takeWhile (fun c => c = Path.separator) = [] := by
      rw [List.takeWhile_eq_nil_iff]
      intro hpos hhead
      exact hmark (of_decide_eq_true hhead ▸ List.getElem_mem hpos)
    rw [Path.ofText, hhead]
    rfl
  have hparts : (Path.ofText (fileName name)).parts = [fileName name] := by
    rw [Path.ofText, Text.splitOn_of_not_mem hmark]
    exact List.filter_cons_of_pos (isPart_fileName name)
  have habsolute : (Path.ofText (fileName name)).isAbsolute = false := by
    rw [Path.isAbsolute, hrelative]
    rfl
  rw [path, ← fileName, Path.join, habsolute, if_neg Bool.false_ne_true, hparts, Path.child]

/-- The path of an entry of a folder leads to a location with its name, if a link there is not followed. -/
theorem last_of_spot {folder : Path} {s : Spot}
    (hspot : files.spot false (folder.child (fileName name)) = .ok s) :
    ∃ d, s.location = d ++ [fileName name] := by
  obtain ⟨-, -, hleads⟩ := (Files.spot_eq_ok_iff files false _).mp hspot
  exact hleads.last (isPart_fileName name) (fileName_ne_dotDot name) List.getLast?_concat

theorem nameFault?_of_scalar (store : FolderStore) (h : name.Scalar) : store.nameFault? name = none := by
  rw [nameFault?, Text.unnamableFault?_of_scalar h]
  rfl

/-! ## Fresh paths -/

theorem unfinishedName_injective {m n : Nat} (h : unfinishedName m = unfinishedName n) : m = n := by
  have hvalue : ∀ k, Text.digitsValue (Text.times (8 - (Text.ofNat k).length) "0" ++ Text.ofNat k) = k := by
    intro k
    rw [Text.digitsValue_append, Text.times_zero_eq, Text.digitsValue_zeros, Text.digitsValue_ofNat,
      Nat.zero_mul, Nat.zero_add]
  have hdigits := List.append_cancel_right h
  rw [List.append_assoc, List.append_assoc] at hdigits
  rw [← hvalue m, List.append_cancel_left hdigits, hvalue]

/-- There are more numbers than entries in a tree, so not all of them have a path that is taken. -/
theorem not_all_taken (files : Files) (folder : Path) (hfull : ∀ n < files.entries.length + 1, ∃ l node,
    files.spot false (folder.child (unfinishedName n)) = .ok ⟨l, some node⟩) : False := by
  have hlocations : ∀ n < files.entries.length + 1, ∃ l ∈ files.entries.map Prod.fst, ∃ above,
      l = above ++ [unfinishedName n] := by
    intro n hn
    obtain ⟨l, node, hspot⟩ := hfull n hn
    obtain ⟨above, habove⟩ := last_of_spot hspot
    have hne : l ≠ [] := fun heq => List.concat_ne_nil _ above (habove.symm.trans heq)
    have hnode : files.node? l ≠ none := by
      rw [Files.node?_of_spot hspot]
      exact Option.some_ne_none node
    exact ⟨l, (Files.node?_ne_none_iff hne).mp hnode, above, habove⟩
  choose! location hmem above hlocation using hlocations
  have hnodup : ((List.range (files.entries.length + 1)).map location).Nodup := by
    refine List.nodup_range.map_on fun m hm n hn heq => ?_
    rw [hlocation m (List.mem_range.mp hm), hlocation n (List.mem_range.mp hn)] at heq
    exact unfinishedName_injective (List.singleton_injective (List.append_inj_right' heq rfl))
  have hsubset : (List.range (files.entries.length + 1)).map location ⊆ files.entries.map Prod.fst := by
    intro l hl
    obtain ⟨n, hn, rfl⟩ := List.mem_map.mp hl
    exact hmem n (List.mem_range.mp hn)
  have hlength := (hnodup.subperm hsubset).length_le
  rw [List.length_map, List.length_map, List.length_range] at hlength
  exact Nat.not_succ_le_self _ hlength

/-- At a fresh path nothing stands. -/
theorem free_freshPath {folder : Path} {s : Spot} (hspot : files.spot false (freshPath files folder) = .ok s) :
    s.node = none := by
  obtain ⟨location, node⟩ := s
  rw [freshPath] at hspot
  generalize hfind : List.find? _ _ = found at hspot
  cases found with
  | some p =>
    have hfree := List.find?_some hfind
    rw [show files.spot false p = _ from hspot] at hfree
    cases node with
    | none => rfl
    | some node => cases hfree
  | none =>
    refine (not_all_taken files folder fun n hn => ?_).elim
    have htaken := List.find?_eq_none.mp hfind _ (List.mem_map_of_mem (List.mem_range.mpr hn))
    split at htaken
    · next l node hspot => exact ⟨l, node, hspot⟩
    · exact absurd rfl htaken

/-- What is written at a fresh path is put at a free location. -/
theorem free_of_write {folder : Path} {octets : Octets} (h : files.WellFormed)
    (hwrite : files.write (freshPath files folder) octets = .ok files') :
    ∃ m, files.spot false (freshPath files folder) = .ok ⟨m, none⟩ ∧ files' = files.put m (.file octets) ∧
      files'.WellFormed ∧ Files.Keeps files files' ∧ files'.node? m = some (.file octets) := by
  obtain ⟨m, hspot, -, rfl, hput, hfiles', hkeeps⟩ := h.write_ok hwrite
  obtain ⟨⟨m', node⟩, hstill⟩ := Files.exists_spot_still hspot
  obtain rfl : node = none := free_freshPath hstill
  have hfollowed : files.spot true (freshPath files folder) = .ok ⟨m', none⟩ :=
    Files.spot_followed hstill fun _ h => nomatch h
  obtain rfl : m' = m := congrArg Spot.location (Except.ok.inj (hfollowed.symm.trans hspot))
  exact ⟨m', hstill, rfl, hfiles', hkeeps, hput⟩

/-! ## Writing -/

/-- A tree that is another one in which an entry was put into the folder `d` of the store. -/
structure Stored (store : FolderStore) (name : Text) (octets : Octets) (d : Location) (made files' : Files) :
    Prop where
  named : store.nameFault? name = none
  folder : made.spot true store.folder = .ok ⟨d, some .folder⟩
  isName : Files.IsName (fileName name)
  reached : made.spot false (store.path name) = .ok ⟨d ++ [fileName name], made.node? (d ++ [fileName name])⟩
  old : made.node? (d ++ [fileName name]) ≠ some .folder
  wellFormed : files'.WellFormed
  here : files'.here = made.here
  own : files'.node? (d ++ [fileName name]) = some (.file octets)
  others : ∀ l, l ≠ d ++ [fileName name] → files'.node? l = made.node? l

/-- The fresh file is moved to the path of the entry. -/
theorem stored_of_move {made filled : Files} {m d : Location} {fresh : Path} {octets : Octets}
    (hname : Path.Name name) (hnamed : store.nameFault? name = none) (hmade : made.WellFormed)
    (hfolder : made.spot true store.folder = .ok ⟨d, some .folder⟩)
    (hfree : made.node? m = none) (hdiffers : Files.DiffersAt m made filled) (hkeeps : Files.Keeps made filled)
    (hfilled : filled.WellFormed) (hfresh : filled.spot false fresh = .ok ⟨m, some (.file octets)⟩)
    (hmove : filled.move fresh (store.path name) = .ok files') :
    Stored store name octets d made files' := by
  rw [path_eq store hname] at hmove
  obtain ⟨g, hgoal, hold, rfl, hown, hfiles'⟩ := hfilled.move_ok hfresh hmove
  have hfolder' := hkeeps.spot_folder hfolder
  have hisName : Files.IsName (fileName name) := by
    obtain ⟨above, hlast⟩ := last_of_spot hgoal
    obtain ⟨-, -, hleads⟩ := (Files.spot_eq_ok_iff filled false _).mp hgoal
    refine hleads.names hfilled (hfilled.node?_start _) _ ?_
    rw [hlast]
    exact List.mem_append_right above (List.mem_singleton_self _)
  rw [Files.spot_child false hfilled hfolder' hisName fun _ _ => rfl] at hgoal
  have hreached : made.spot false (store.path name) =
      .ok ⟨d ++ [fileName name], made.node? (d ++ [fileName name])⟩ := by
    rw [path_eq store hname, Files.spot_child false hmade hfolder hisName fun _ _ => rfl]
    split_ifs at hgoal ⊢
    rfl
  obtain rfl : g = d ++ [fileName name] := by
    split_ifs at hgoal
    exact (Spot.mk.inj (Except.ok.inj hgoal)).1.symm
  have hothers : ∀ l, l ≠ d ++ [fileName name] →
      ((filled.erase m).put (d ++ [fileName name]) (.file octets)).node? l = made.node? l := by
    intro l hl
    rw [Files.node?_put_of_ne hl]
    exact (hdiffers.trans (.erase filled m)).node?_eq hmade hfree
      (fun hl hbelow => Files.node?_erase_below hl hbelow) l
  exact ⟨hnamed, hfolder, hisName, hreached, fun h => hold (hkeeps.folder _ h), hfiles', hdiffers.here, hown, hothers⟩

/-- After a failure the fresh file is taken away, and only the folders that were made are left. -/
theorem deepens_of_discard {made filled : Files} {m : Location} {fresh : Path} {octets : Octets}
    (hmade : made.WellFormed) (hdeepens : Files.Deepens files made) (hfree : made.node? m = none)
    (hdiffers : Files.DiffersAt m made filled) (hfilled : filled.WellFormed)
    (hfresh : filled.spot false fresh = .ok ⟨m, some (.file octets)⟩) :
    (filled.discard fresh).WellFormed ∧ Files.Deepens files (filled.discard fresh) := by
  have hfile : filled.node? m ≠ some .folder := by
    rw [Files.node?_of_spot hfresh]
    rintro ⟨⟩
  rw [Files.discard_of_spot hfresh]
  have hsame := hdiffers.trans (.erase filled m)
  refine ⟨hfilled.erase hfile, hsame.here.trans hdeepens.here, fun l => ?_⟩
  rw [hsame.node?_eq hmade hfree Files.node?_erase_below]
  exact hdeepens.node l

/-- What is done to write any entry before the file is moved to its path: the folder of the store is made, and a file
with the octets is made at a fresh path in it, which is the result. -/
def prepare (store : FolderStore) (files : Files) (octets : Octets) : Files × Except FileFault Path :=
  match files.ensurePath store.folder with
  | (made, .error fault) => (made, .error fault)
  | (made, .ok ()) =>
    let fresh := freshPath made (made.literal store.folder)
    match made.write fresh [] with
    | .error fault => (made, .error fault)
    | .ok started =>
      match started.write fresh octets with
      | .error fault => (started.discard fresh, .error fault)
      | .ok filled => (filled, .ok fresh)

/-- A document is written by moving its text from a fresh path to that of the entry. -/
theorem write_document (store : FolderStore) (files : Files) (name : Text) (value : Json) :
    store.write files name (.document value) =
      match store.prepare files (value.render.flatMap Text.octetsOf) with
      | (left, .error fault) => (left, .error (unwritable (store.path name) fault))
      | (filled, .ok fresh) =>
        match store.nameFault? name with
        | some fault => (filled.discard fresh, .error (.unforeseen (.surrogates fault)))
        | none =>
          match filled.move fresh (store.path name) with
          | .error fault => (filled.discard fresh, .error (unwritable (store.path name) fault))
          | .ok moved => (moved, .ok ()) := by
  rw [write, prepare]
  dsimp only [Storable.text]
  rcases files.ensurePath store.folder with ⟨made, fault | ⟨⟩⟩
  · rfl
  dsimp only
  cases made.write (freshPath made (made.literal store.folder)) [] with
  | error fault => rfl
  | ok started =>
    dsimp only
    cases started.write (freshPath made (made.literal store.folder)) (value.render.flatMap Text.octetsOf) <;> rfl

/-- What the preparation comes to: folders that are left of it, or a file at a free location. -/
inductive Prepared (store : FolderStore) (files : Files) (octets : Octets) : Files × Except FileFault Path → Prop where
  | failed {left : Files} (fault : FileFault) (wellFormed : left.WellFormed) (deepens : Files.Deepens files left) :
      Prepared store files octets (left, .error fault)
  | filled {made filled : Files} {fresh : Path} {m d : Location} (madeWellFormed : made.WellFormed)
      (ensured : files.ensurePath store.folder = (made, .ok ())) (deepens : Files.Deepens files made)
      (folder : made.spot true store.folder = .ok ⟨d, some .folder⟩) (free : made.node? m = none)
      (differs : Files.DiffersAt m made filled) (keeps : Files.Keeps made filled) (wellFormed : filled.WellFormed)
      (spot : filled.spot false fresh = .ok ⟨m, some (.file octets)⟩) : Prepared store files octets (filled, .ok fresh)

theorem prepared_prepare (store : FolderStore) (h : files.WellFormed) (octets : Octets) :
    store.Prepared files octets (store.prepare files octets) := by
  rw [prepare]
  rcases hensure : files.ensurePath store.folder with ⟨made, fault | ⟨⟩⟩
  · obtain ⟨hmade, hdeepens, -⟩ := h.ensurePath_spec hensure
    exact .failed fault hmade hdeepens
  obtain ⟨hmade, hdeepens, hfolder⟩ := h.ensurePath_spec hensure
  obtain ⟨d, hd⟩ := Files.isFolder_iff.mp (hfolder rfl)
  dsimp only
  cases hstart : made.write (freshPath made (made.literal store.folder)) [] with
  | error fault => exact .failed fault hmade hdeepens
  | ok started =>
    -- the fresh file is all that the tree differs in until it is moved
    obtain ⟨m, hspot, rfl, hstarted, hkeeps, hput⟩ := free_of_write hmade hstart
    generalize freshPath made (made.literal store.folder) = fresh at hspot
    have hfree : made.node? m = none := Files.node?_of_spot hspot
    have hdiffers := Files.DiffersAt.put made m (.file [])
    have hfresh : (made.put m (.file [])).spot false fresh = .ok ⟨m, some (.file [])⟩ := by
      rw [← hput]
      exact Files.spot_keeps hkeeps hspot fun _ _ => rfl
    dsimp only
    cases hfill : (made.put m (.file [])).write fresh octets with
    | error fault =>
      obtain ⟨hdiscarded, hleft⟩ := deepens_of_discard hmade hdeepens hfree hdiffers hstarted hfresh
      exact .failed fault hdiscarded hleft
    | ok filled =>
      obtain ⟨m', hspot', -, rfl, hput', hfilled, hkeeps'⟩ := hstarted.write_ok hfill
      have hfollowed : (made.put m (.file [])).spot true fresh = .ok ⟨m, some (.file [])⟩ :=
        Files.spot_followed hfresh fun _ h => nomatch h
      obtain rfl : m' = m := congrArg Spot.location (Except.ok.inj (hspot'.symm.trans hfollowed))
      have hdiffers' := hdiffers.trans (.put _ m' (.file octets))
      have hfresh' := Files.spot_keeps hkeeps' hfresh fun _ _ => rfl
      dsimp only at hfresh'
      rw [hput'] at hfresh'
      exact .filled hmade hensure hdeepens hd hfree hdiffers' (hkeeps.trans hkeeps') hfilled hfresh'

/-- **Writing an entry** fails and leaves all that stands, or makes the folder of the store and puts the text of
the value into it. -/
theorem write_cases (store : FolderStore) (h : files.WellFormed) (hname : Path.Name name) (value : Json) :
    (∃ files' failure, store.write files name (.document value) = (files', .error failure) ∧
        files'.WellFormed ∧ Files.Deepens files files') ∨
      ∃ files' made d, store.write files name (.document value) = (files', .ok ()) ∧
        files.ensurePath store.folder = (made, .ok ()) ∧ made.WellFormed ∧ Files.Deepens files made ∧
        Stored store name (value.render.flatMap Text.octetsOf) d made files' := by
  rw [write_document]
  have hprepared := store.prepared_prepare h (value.render.flatMap Text.octetsOf)
  generalize store.prepare files (value.render.flatMap Text.octetsOf) = r at hprepared
  cases hprepared with
  | failed fault wellFormed deepens => exact .inl ⟨_, _, rfl, wellFormed, deepens⟩
  | @filled made filled fresh m d madeWellFormed ensured deepens folder free differs keeps wellFormed spot =>
    obtain ⟨hdiscarded, hleft⟩ := deepens_of_discard madeWellFormed deepens free differs wellFormed spot
    dsimp only
    cases hnamed : store.nameFault? name with
    | some fault => exact .inl ⟨_, _, rfl, hdiscarded, hleft⟩
    | none =>
      dsimp only
      cases hmove : filled.move fresh (store.path name) with
      | error fault => exact .inl ⟨_, _, rfl, hdiscarded, hleft⟩
      | ok files' =>
        exact .inr ⟨files', made, d, rfl, ensured, madeWellFormed, deepens,
          stored_of_move hname hnamed madeWellFormed folder free differs keeps wellFormed spot hmove⟩

namespace Stored

variable {octets : Octets} {d : Location} {made : Files}

/-- Where no link stood, folders and links stay. -/
theorem keeps (h : Stored store name octets d made files')
    (hold : ∀ target, made.node? (d ++ [fileName name]) ≠ some (.link target)) : Files.Keeps made files' := by
  refine ⟨h.here, fun l hl => ?_, fun l target hl => ?_⟩
  · rw [h.others l, hl]
    rintro rfl
    exact h.old hl
  · rw [h.others l, hl]
    rintro rfl
    exact hold target hl

/-- The path of the entry leads to its file then. -/
theorem spot_own (h : Stored store name octets d made files') (hkeeps : Files.Keeps made files')
    (followLast : Bool) :
    files'.spot followLast (store.path name) = .ok ⟨d ++ [fileName name], some (.file octets)⟩ := by
  have hspot := Files.spot_keeps hkeeps h.reached fun _ _ => rfl
  dsimp only at hspot
  rw [h.own] at hspot
  exact Files.spot_followed hspot fun _ heq => nomatch heq

end Stored

/-! ## Looking and reading -/

/-- An entry that is there is a file. -/
theorem exists_spot_of_has (hhas : store.has files name = .ok true) : ∃ l node,
    files.spot true (store.path name) = .ok ⟨l, some node⟩ ∧ node ≠ .folder := by
  have hfile : files.isFile (store.path name) = .ok true := by
    rw [has] at hhas
    cases hnamed : store.nameFault? name with
    | some fault =>
      rw [hnamed] at hhas
      cases hhas
    | none =>
      rw [hnamed] at hhas
      dsimp only at hhas
      cases hfile : files.isFile (store.path name) with
      | error fault =>
        rw [hfile] at hhas
        cases hhas
      | ok found =>
        rw [hfile] at hhas
        rw [Except.ok.inj hhas]
  obtain ⟨l, node, hspot, htest⟩ := Files.exists_spot_of_holds hfile
  refine ⟨l, node, hspot, ?_⟩
  rintro rfl
  cases htest

/-- Whether an entry is there, and how it is read, is told by what its path leads to. -/
theorem has_congr (h : files'.spot true (store.path name) = files.spot true (store.path name)) :
    store.has files' name = store.has files name := by
  rw [has, has, Files.isFile, Files.isFile, Files.holds_congr h]

theorem read_congr (h : files'.spot true (store.path name) = files.spot true (store.path name)) :
    store.read files' name = store.read files name := by
  rw [read, read, Files.readText_congr h]

/-- An entry with a name is there if its path leads to a file. -/
theorem has_of_spot {l : Location} {octets : Octets} (hnamed : store.nameFault? name = none)
    (h : files.spot true (store.path name) = .ok ⟨l, some (.file octets)⟩) : store.has files name = .ok true := by
  rw [has, hnamed, Files.isFile, Files.holds_of_spot h]

/-- A text without surrogates and carriage returns is read as it was written. -/
theorem readText_of_spot {p : Path} {l : Location} {text : Text} (hscalar : text.Scalar) (hreturn : 13 ∉ text)
    (h : files.spot true p = .ok ⟨l, some (.file (text.flatMap Text.octetsOf))⟩) : files.readText p = .ok text := by
  have hoctets : files.readOctets p = .ok (text.flatMap Text.octetsOf) := by
    rw [Files.readOctets, Files.target_of_spot h]
    rfl
  rw [Files.readText, hoctets]
  dsimp only
  rw [Text.decodeUtf8_flatMap_octetsOf hscalar]
  dsimp only
  rw [Text.unifyNewlines_of_not_mem hreturn]

/-- An object whose text is the content of the file of an entry is there, and read back. -/
theorem read_of_spot {l : Location} {entries : Table Json} (hnamed : store.nameFault? name = none)
    (hwell : Json.WellFormed Text.PairFree (.object entries)) (h : files.spot true (store.path name) =
      .ok ⟨l, some (.file ((Json.object entries).render.flatMap Text.octetsOf))⟩) :
    store.has files name = .ok true ∧ store.read files name = .ok (.object entries) := by
  have hvisible := Json.visible_render hwell
  refine ⟨has_of_spot hnamed h, ?_⟩
  rw [read, hnamed]
  dsimp only
  rw [readText_of_spot (Text.scalar_of_visible hvisible) hvisible.return_not_mem h]
  dsimp only
  rw [Json.parse_render hwell]

/-! ## Ordinary trees

Where there are no links, an entry is changed by nothing but writing it. -/

theorem ordinary_write (store : FolderStore) (h : files.Ordinary) (hname : Path.Name name) (value : Json) :
    (store.write files name (.document value)).1.Ordinary := by
  rcases store.write_cases h.toWellFormed hname value with
    ⟨files', failure, hwrite, hfiles', hdeepens⟩ | ⟨files', made, d, hwrite, -, -, hdeepens, hstored⟩
  · rw [hwrite]
    exact h.of_deepens hfiles' hdeepens
  · rw [hwrite]
    refine ⟨hstored.wellFormed, fun l target hl => ?_⟩
    by_cases heq : l = d ++ [fileName name]
    · rw [heq, hstored.own] at hl
      exact nomatch hl
    · rw [hstored.others l heq] at hl
      rcases hdeepens.node l with hsame | ⟨-, hfolder⟩
      · exact h.unlinked l target (hsame.symm.trans hl)
      · exact nomatch hfolder.symm.trans hl

theorem Stored.keeps_of_ordinary {octets : Octets} {d : Location} {made : Files} (h : files.Ordinary)
    (hdeepens : Files.Deepens files made) (hmade : made.WellFormed)
    (hstored : Stored store name octets d made files') : Files.Keeps made files' :=
  hstored.keeps fun target => (h.of_deepens hmade hdeepens).unlinked _ target

/-- **What was written is read back.** -/
theorem own_write (h : files.Ordinary) (hname : Path.Name name) {entries : Table Json}
    (hwell : Json.WellFormed Text.PairFree (.object entries))
    (hwrite : store.write files name (.document (.object entries)) = (files', .ok ())) :
    store.has files' name = .ok true ∧ store.read files' name = .ok (.object entries) := by
  rcases store.write_cases h.toWellFormed hname (.object entries) with
    ⟨files'', failure, hwrite', -, -⟩ | ⟨files'', made, d, hwrite', -, hmade, hdeepens, hstored⟩
  · exact nomatch (Prod.ext_iff.mp (hwrite'.symm.trans hwrite)).2
  · obtain rfl : files'' = files' := (Prod.ext_iff.mp (hwrite'.symm.trans hwrite)).1
    exact read_of_spot hstored.named hwell (hstored.spot_own (hstored.keeps_of_ordinary h hdeepens hmade) true)

/-- **Writing an entry leaves the others as they are.** -/
theorem others_write (h : files.Ordinary) (hname : Path.Name name) (value : Json) {name' : Text}
    (hname' : Path.Name name') (hne : name' ≠ name) (hhas : store.has files name' = .ok true) :
    store.has (store.write files name (.document value)).1 name' = .ok true ∧
      store.read (store.write files name (.document value)).1 name' = store.read files name' := by
  obtain ⟨l, node, hspot, -⟩ := exists_spot_of_has hhas
  have hl := Files.node?_of_spot hspot
  -- in the tree that is left the path leads to what it led to
  have hkept : (store.write files name (.document value)).1.spot true (store.path name') =
      .ok ⟨l, some node⟩ := by
    rcases store.write_cases h.toWellFormed hname value with
      ⟨files', failure, hwrite, -, hdeepens⟩ | ⟨files', made, d, hwrite, -, hmade, hdeepens, hstored⟩
    · rw [hwrite]
      exact h.toWellFormed.spot_still hdeepens.keeps hspot (hdeepens.still hl)
    · rw [hwrite]
      have hkeeps := hdeepens.keeps.trans (hstored.keeps_of_ordinary h hdeepens hmade)
      refine h.toWellFormed.spot_still hkeeps hspot ?_
      have hstill := h.spot_still hspot
      rw [path_eq store hname'] at hstill
      obtain ⟨d', hlast⟩ := last_of_spot hstill
      have hother : l ≠ d ++ [fileName name] := by
        rintro rfl
        exact hne (fileName_injective (List.singleton_injective (List.append_inj_right' hlast rfl)).symm)
      exact (hstored.others l hother).trans (hdeepens.still hl)
  rw [← hspot] at hkept
  exact ⟨(has_congr hkept).trans hhas, read_congr hkept⟩

end FolderStore

end SolidityBuild
