import SolidityBuild.Proofs.Cache.Reading
import SolidityBuild.Proofs.Files.NullPaths
import SolidityBuild.Proofs.Json.Reading

/-!
Writing an entry of a store in a folder is all or nothing. Either its file holds the text of the document, and
nothing else has changed but for folders that were made; or all that stood stands as it was, the unfinished file is
gone, and the store complains. Only a path or a name that no file can have is not complained about: there the failure
is one that nothing foresees.
-/

set_option autoImplicit false

namespace SolidityBuild

namespace FolderStore

variable {store : FolderStore} {files files' : Files} {name : Text} {entries : Table Json} {octets : Octets}

/-! ## Failures to write -/

/-- Why an entry has no file that can be written: its path or that of the folder is none, or no file has its name. -/
inductive Unwritable (store : FolderStore) (files : Files) (name : Text) : Defect → Prop where
  | path (null : Files.hasNull (store.path name) = true) : Unwritable store files name .nullInPath
  | folder (null : Files.hasNull (files.literal store.folder) = true) : Unwritable store files name .nullInPath
  | name {fault : Text.SurrogateFault} (unnamable : store.nameFault? name = some fault) :
      Unwritable store files name (.surrogates fault)

theorem not_mem_unfinishedName (number : Nat) : (0 : CodePoint) ∉ unfinishedName number := by
  rw [unfinishedName]
  refine List.not_mem_append (List.not_mem_append (List.not_mem_append (by decide) ?_) ?_) (by decide)
  · rw [Text.times_zero_eq]
    exact fun hmem => absurd (List.eq_of_mem_replicate hmem) (by decide)
  · exact fun hmem => absurd (Text.isDigit_of_mem_ofNat hmem) (by decide)

theorem exists_freshPath_eq (files : Files) (folder : Path) :
    ∃ number, freshPath files folder = folder.child (unfinishedName number) := by
  rw [freshPath]
  generalize hfind : List.find? _ _ = found
  cases found with
  | none => exact ⟨0, rfl⟩
  | some p =>
    obtain ⟨number, -, hp⟩ := List.mem_map.mp (List.mem_of_find?_eq_some hfind)
    exact ⟨number, hp.symm⟩

theorem hasNull_freshPath (files : Files) {folder : Path} (h : Files.hasNull (freshPath files folder) = true) :
    Files.hasNull folder = true := by
  obtain ⟨number, hfresh⟩ := exists_freshPath_eq files folder
  rw [hfresh, Files.hasNull_child, Bool.or_eq_true, List.contains_iff_mem] at h
  exact h.resolve_right (not_mem_unfinishedName number)

theorem unwritable_of_prepare (hname : Path.Name name) (h : files.WellFormed) {left : Files}
    (hprepare : store.prepare files octets = (left, .error .nullInPath)) :
    store.Unwritable files name .nullInPath := by
  rw [prepare] at hprepare
  rcases hensure : files.ensurePath store.folder with ⟨made, fault | ⟨⟩⟩
  · rw [hensure] at hprepare
    obtain ⟨rfl, heq⟩ := Prod.ext_iff.mp hprepare
    obtain rfl : fault = .nullInPath := Except.error.inj heq
    refine .path ?_
    rw [path_eq store hname, Files.hasNull_child, Files.hasNull_of_ensureFolders _ hensure]
    rfl
  · obtain ⟨-, hdeepens, -⟩ := h.ensurePath_spec hensure
    have hliteral : made.literal store.folder = files.literal store.folder := by
      rw [Files.literal, Files.literal, Files.start, Files.start, hdeepens.here]
    rw [hensure] at hprepare
    dsimp only at hprepare
    rw [hliteral] at hprepare
    -- the same path is written twice
    refine .folder (hasNull_freshPath made ?_)
    cases hstart : made.write (freshPath made (files.literal store.folder)) [] with
    | error fault =>
      rw [hstart] at hprepare
      obtain rfl : fault = .nullInPath := Except.error.inj (Prod.ext_iff.mp hprepare).2
      exact Files.hasNull_of_write hstart
    | ok started =>
      rw [hstart] at hprepare
      dsimp only at hprepare
      cases hfill : started.write (freshPath made (files.literal store.folder)) octets with
      | error fault =>
        rw [hfill] at hprepare
        obtain rfl : fault = .nullInPath := Except.error.inj (Prod.ext_iff.mp hprepare).2
        exact Files.hasNull_of_write hfill
      | ok filled =>
        rw [hfill] at hprepare
        cases (Prod.ext_iff.mp hprepare).2

theorem unwritable_eq (path : Path) (fault : FileFault) :
    (∃ complaint, unwritable path fault = .cache complaint) ∨
      fault = .nullInPath ∧ unwritable path fault = .unforeseen .nullInPath := by
  cases fault with
  | system fault => exact .inl ⟨_, rfl⟩
  | nullInPath => exact .inr ⟨rfl, rfl⟩

/-- **A failure to write an entry is a complaint of the store**, unless the entry has no file that can be written. -/
theorem failure_of_write (hname : Path.Name name) (h : files.WellFormed) {value : Json} {failure : Failure}
    (hwrite : store.write files name (.document value) = (files', .error failure)) :
    (∃ fault, failure = .cache fault) ∨
      ∃ defect, failure = .unforeseen defect ∧ store.Unwritable files name defect := by
  rw [write_document] at hwrite
  have hprepared := store.prepared_prepare h (value.render.flatMap Text.octetsOf)
  rcases hprepare : store.prepare files (value.render.flatMap Text.octetsOf) with ⟨filled, fault | fresh⟩
  · rw [hprepare] at hwrite
    obtain rfl := Except.error.inj (Prod.ext_iff.mp hwrite).2
    rcases unwritable_eq (store.path name) fault with hcache | ⟨rfl, hnull⟩
    · exact .inl hcache
    · exact .inr ⟨_, hnull, unwritable_of_prepare hname h hprepare⟩
  · rw [hprepare] at hwrite hprepared
    cases hprepared with
    | filled _ _ _ _ _ _ _ _ spot =>
      dsimp only at hwrite
      cases hnamed : store.nameFault? name with
      | some fault =>
        rw [hnamed] at hwrite
        obtain rfl := Except.error.inj (Prod.ext_iff.mp hwrite).2
        exact .inr ⟨_, rfl, .name hnamed⟩
      | none =>
        rw [hnamed] at hwrite
        dsimp only at hwrite
        cases hmove : filled.move fresh (store.path name) with
        | ok moved =>
          rw [hmove] at hwrite
          exact nomatch (Prod.ext_iff.mp hwrite).2
        | error fault =>
          rw [hmove] at hwrite
          obtain rfl := Except.error.inj (Prod.ext_iff.mp hwrite).2
          rcases unwritable_eq (store.path name) fault with hcache | ⟨rfl, hnull⟩
          · exact .inl hcache
          · exact .inr ⟨_, hnull, .path ((Files.move_eq_nullInPath_iff spot).mp hmove)⟩

/-- Where another entry is written, the writing of one that no file can have fails in a way that nothing foresees. -/
theorem fails_unforeseen_of_other (h : files.WellFormed) {value : Json} {other : Text}
    (hother : (store.write files other (.document value)).2 = .ok ())
    (hname : store.nameFault? name ≠ none ∨ Files.hasNull (store.path name) = true) :
    ∃ defect, (store.write files name (.document value)).2 = .error (.unforeseen defect) := by
  rw [write_document] at hother ⊢
  have hprepared := store.prepared_prepare h (value.render.flatMap Text.octetsOf)
  generalize store.prepare files (value.render.flatMap Text.octetsOf) = r at hprepared hother ⊢
  cases hprepared with
  | failed fault => exact nomatch hother
  | filled _ _ _ _ _ _ _ _ spot =>
    dsimp only
    cases hnamed : store.nameFault? name with
    | some fault => exact ⟨_, rfl⟩
    | none =>
      dsimp only
      have hnull := hname.resolve_left fun hfault => hfault hnamed
      rw [(Files.move_eq_nullInPath_iff spot).mpr hnull]
      exact ⟨_, rfl⟩

/-! ## What was written -/

/-- A tree that is another one in which the document was written at the location `own` in the folder of the store:
besides, only folders were made. Unless a link stood there, the entry is found, and the document is read back exactly
if no text in it has a pair of surrogates. -/
structure Written (store : FolderStore) (files : Files) (name : Text) (entries : Table Json) (own : Location)
    (files' : Files) : Prop where
  placed : ∃ d, (files.ensurePath store.folder).1.spot true store.folder = .ok ⟨d, some .folder⟩ ∧
    own = d ++ [fileName name]
  content : files'.node? own = some (.file ((Json.object entries).render.flatMap Text.octetsOf))
  others : ∀ l, l ≠ own → files'.node? l = files.node? l ∨ files.node? l = none ∧ files'.node? l = some .folder
  found : (∀ target, files.node? own ≠ some (.link target)) → store.has files' name = .ok true
  readBack : (∀ target, files.node? own ≠ some (.link target)) →
    (store.read files' name = .ok (.object entries) ↔ Json.WellFormed Text.PairFree (.object entries))

/-- What is read of a file with the text of a document has no pair of surrogates in it. -/
theorem read_eq_ok_iff_of_spot {l : Location} {p : Text → Prop} (hnamed : store.nameFault? name = none)
    (hwell : Json.WellFormed p (.object entries)) (h : files.spot true (store.path name) =
      .ok ⟨l, some (.file ((Json.object entries).render.flatMap Text.octetsOf))⟩) :
    store.read files name = .ok (.object entries) ↔ Json.WellFormed Text.PairFree (.object entries) := by
  refine ⟨fun hread => ?_, fun hpairs => (read_of_spot hnamed hpairs h).2⟩
  have hvisible := Json.visible_render hwell
  have hreadout := store.readout_read files name
  rw [hread] at hreadout
  cases hreadout with
  | @object octets text _ read decode parse =>
    have htext := readText_of_spot (Text.scalar_of_visible hvisible) hvisible.return_not_mem h
    rw [Files.readText, read] at htext
    dsimp only at htext
    rw [decode] at htext
    rw [Except.ok.inj htext] at parse
    exact Json.pairFree_of_parse (Text.scalar_of_visible hvisible) parse

/-- What is stored in a tree to which folders were added is written in the tree without them. -/
theorem Stored.written {p : Text → Prop} {d : Location} {made : Files} (hwell : Json.WellFormed p (.object entries))
    (hensure : files.ensurePath store.folder = (made, .ok ())) (hdeepens : Files.Deepens files made)
    (h : Stored store name ((Json.object entries).render.flatMap Text.octetsOf) d made files') :
    Written store files name entries (d ++ [fileName name]) files' := by
  -- a link that stands where folders were added stood there before
  have hspot : (∀ target, files.node? (d ++ [fileName name]) ≠ some (.link target)) →
      files'.spot true (store.path name) =
        .ok ⟨d ++ [fileName name], some (.file ((Json.object entries).render.flatMap Text.octetsOf))⟩ := by
    intro hunlinked
    refine h.spot_own (h.keeps fun target hl => ?_) true
    rcases hdeepens.node (d ++ [fileName name]) with heq | ⟨-, heq⟩
    · exact hunlinked target (heq.symm.trans hl)
    · exact nomatch heq.symm.trans hl
  have hplaced : (files.ensurePath store.folder).1.spot true store.folder = .ok ⟨d, some .folder⟩ := by
    rw [hensure]
    exact h.folder
  refine ⟨⟨d, hplaced, rfl⟩, h.own, fun l hl => ?_, fun hunlinked => has_of_spot h.named (hspot hunlinked),
    fun hunlinked => read_eq_ok_iff_of_spot h.named hwell (hspot hunlinked)⟩
  rw [h.others l hl]
  exact hdeepens.node l

/-- **Writing an entry is all or nothing.** Either its file holds the text of the document and nothing else has changed
but for folders that were made, or nothing has changed but for those and the store complains. Only an entry that no
file can have is not complained about; it is never written, and where another one would be, its failure is one that
nothing foresees. -/
theorem write_all_or_nothing (store : FolderStore) {files : Files} (h : files.WellFormed) {name : Text}
    (hname : Path.Name name) {text : Text} {entries : Table Json}
    (hparse : Json.parse text = .ok (.object entries)) :
    ((∃ files' own, store.write files name (.document (.object entries)) = (files', .ok ()) ∧
        store.nameFault? name = none ∧ Files.hasNull (store.path name) = false ∧
        Written store files name entries own files') ∨
      ∃ files' failure, store.write files name (.document (.object entries)) = (files', .error failure) ∧
        Files.Deepens files files' ∧ ((∃ fault, failure = .cache fault) ∨
          ∃ defect, failure = .unforeseen defect ∧ store.Unwritable files name defect)) ∧
    ∀ other, (store.write files other (.document (.object entries))).2 = .ok () →
      store.nameFault? name ≠ none ∨ Files.hasNull (store.path name) = true →
      ∃ defect, (store.write files name (.document (.object entries))).2 = .error (.unforeseen defect) := by
  refine ⟨?_, fun other hother hunnamable => fails_unforeseen_of_other h hother hunnamable⟩
  rcases store.write_cases h hname (.object entries) with
    ⟨files', failure, hwrite, -, hdeepens⟩ | ⟨files', made, d, hwrite, hensure, -, hdeepens, hstored⟩
  · exact .inr ⟨files', failure, hwrite, hdeepens, failure_of_write hname h hwrite⟩
  · obtain ⟨hnull, -, -⟩ := (Files.spot_eq_ok_iff made false _).mp hstored.reached
    exact .inl ⟨files', _, hwrite, hstored.named, hnull,
      hstored.written (Json.wellFormed_of_parse hparse) hensure hdeepens⟩

/-- A store whose folder is still to be made. -/
def newStore : FolderStore := ⟨⟨0, ["cache"]⟩⟩

theorem write_newStore : ∃ files', newStore.write {} "x" (.document (.object [])) = (files', .ok ()) := by
  have hok : (newStore.write {} "x" (.document (.object []))).2.toBool = true := by decide +kernel
  generalize newStore.write {} "x" (.document (.object [])) = r at hok
  obtain ⟨files', failure | ⟨⟩⟩ := r
  · exact nomatch hok
  · exact ⟨files', rfl⟩

/-- In an empty tree an entry of it is written. -/
theorem newStore_written : ∃ files' own, newStore.write {} "x" (.document (.object [])) = (files', .ok ()) ∧
    Written newStore {} "x" [] own files' := by
  have hname : Path.Name "x" := by decide
  have hparse : Json.parse "\x7b\x7d" = .ok (.object []) := by rfl
  rcases (write_all_or_nothing newStore Files.WellFormed.empty hname hparse).1 with
    ⟨files', own, hwrite, -, -, hwritten⟩ | ⟨files', failure, hwrite, -⟩
  · exact ⟨files', own, hwrite, hwritten⟩
  · obtain ⟨files'', hok⟩ := write_newStore
    exact nomatch (Prod.ext_iff.mp (hwrite.symm.trans hok)).2

/-- A name without a separator that no file can have. -/
def nullName : Text := [97, 0, 98]

/-- An entry of that name is not written there, and the store does not complain. -/
theorem nullName_fails_unforeseen : Path.Name nullName ∧
    (¬ ∃ files', newStore.write {} nullName (.document (.object [])) = (files', .ok ())) ∧
      ¬ ∃ files' fault, newStore.write {} nullName (.document (.object [])) = (files', .error (.cache fault)) := by
  obtain ⟨files'', hok⟩ := write_newStore
  have hnull : Files.hasNull (newStore.path nullName) = true := by decide
  obtain ⟨defect, hfails⟩ :=
    fails_unforeseen_of_other Files.WellFormed.empty (congrArg Prod.snd hok) (.inr hnull)
  refine ⟨by decide, ?_, ?_⟩
  · rintro ⟨files', hwrite⟩
    exact nomatch hfails.symm.trans (congrArg Prod.snd hwrite)
  · rintro ⟨files', fault, hwrite⟩
    exact nomatch hfails.symm.trans (congrArg Prod.snd hwrite)

end FolderStore

end SolidityBuild
