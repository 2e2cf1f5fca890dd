import SolidityBuild.Proofs.Cache.Folder
import SolidityBuild.Proofs.Files.Lasting

/-!
What writing entries leaves alone. The folder of a store is where its path leads, perhaps after missing folders are
made on the way; whatever stands elsewhere stays as it is, and nothing comes to stand there but such folders. Writing
one entry may replace a link in the folder, but it does not make the path of the folder lead elsewhere; so what holds
of one entry holds of any number of them.
-/

set_option autoImplicit false

namespace SolidityBuild

namespace Files

variable {files files₁ files' : Files} {links links' : Nat} {l : Location} {parts : List Text} {s s' : Spot} {p : Path}

/-! ## Where a folder may come to be -/

/-- The folder of a path is at a location, or would be if missing folders were made. -/
def FolderAt (files : Files) (p : Path) (d : Location) : Prop :=
  ∃ made, Deepens files made ∧ made.spot true p = .ok ⟨d, some .folder⟩

/-- A location that is not in the folder of a path, wherever that may come to be. -/
def Outside (files : Files) (p : Path) (l : Location) : Prop := ∀ d, files.FolderAt p d → ¬ d <+: l

/-- A tree that another one has become by changes in the folder of a path only, and by making folders. -/
structure Confined (p : Path) (files files' : Files) : Prop where
  folderAt : ∀ {d}, files'.FolderAt p d → files.FolderAt p d
  outside : ∀ {l}, files.Outside p l →
    files'.node? l = files.node? l ∨ files.node? l = none ∧ files'.node? l = some .folder

theorem Confined.refl (p : Path) (files : Files) : Confined p files files := ⟨id, fun _ => .inl rfl⟩

theorem Confined.trans (h : Confined p files files₁) (h' : Confined p files₁ files') : Confined p files files' := by
  refine ⟨fun hd => h.folderAt (h'.folderAt hd), fun {l} hl => ?_⟩
  have hl₁ : files₁.Outside p l := fun d hd => hl d (h.folderAt hd)
  rcases h.outside hl with heq | ⟨hfree, hfolder⟩
  · rw [← heq]
    exact h'.outside hl₁
  -- a folder that the first change has made is not free for the second one
  · rcases h'.outside hl₁ with heq | ⟨hfree', -⟩
    · exact .inr ⟨hfree, heq.trans hfolder⟩
    · exact nomatch hfree'.symm.trans hfolder

theorem Deepens.confined (h : Deepens files files') (p : Path) : Confined p files files' :=
  ⟨fun ⟨made, hmade, hspot⟩ => ⟨made, h.trans hmade, hspot⟩, fun {l} _ => h.node l⟩

/-- What leads to a folder starts at one. -/
theorem Leads.start_of_folder {followLast : Bool} (h : Leads files followLast links l parts s)
    (hs : s.node = some .folder) : files.node? l = some .folder := by
  cases h with
  | here _ _ => exact hs
  | free => exact nomatch hs
  | skip folder | up folder | into folder | stay folder | jump folder => exact folder

/-- **A path that leads to a folder leads to no other one** in a tree that this one has become, if no link has become
a folder: at each step the same stands, or else what is left of the path leads to no folder there. -/
theorem Leads.folder_unique (h : Leads files true links l parts s) (hs : s.node = some .folder)
    (hbecomes : Becomes files files')
    (hlinks : ∀ l target, files.node? l = some (.link target) → files'.node? l ≠ some .folder)
    (h' : Leads files' true links' l parts s') (hs' : s'.node = some .folder) : s'.location = s.location := by
  have hdown : Path.isPart Path.dotDot = true := by decide
  induction h generalizing links' with
  | here links l =>
    cases h'
    rfl
  | skip _ blank _ ih =>
    cases h' with
    | skip _ _ further => exact ih hs further
    | up => exact nomatch blank.symm.trans hdown
    | free => exact nomatch hs'
    | stay _ _ _ still => exact nomatch still
    | into _ name | jump _ name => exact nomatch blank.symm.trans name.part
  | up _ _ ih =>
    cases h' with
    | skip _ blank => exact nomatch blank.symm.trans hdown
    | up _ further => exact ih hs further
    | free => exact nomatch hs'
    | stay _ _ _ still => exact nomatch still
    | into _ name | jump _ name => exact absurd rfl name.down
  | free => exact nomatch hs
  | into _ name there plain _ ih =>
    cases h' with
    | skip _ blank => exact nomatch blank.symm.trans name.part
    | up => exact absurd rfl name.down
    | free => exact nomatch hs'
    | stay _ _ _ still => exact nomatch still
    | into _ _ _ _ further => exact ih hs further
    | jump _ _ there' =>
      -- no link is new
      exact absurd (Option.some.inj (there.symm.trans (hbecomes.unlinked _ _ there'))) (plain _)
  | stay _ _ _ still => exact nomatch still
  | jump _ name there _ _ ih =>
    cases h' with
    | skip _ blank => exact nomatch blank.symm.trans name.part
    | up => exact absurd rfl name.down
    | free => exact nomatch hs'
    | stay _ _ _ still => exact nomatch still
    | into _ _ _ _ further =>
      -- what has taken the place of the link would have to be a folder
      exact absurd (further.start_of_folder hs') (hlinks _ _ there)
    | jump _ _ there' _ further =>
      obtain rfl := Node.link.inj (Option.some.inj ((hbecomes.unlinked _ _ there').symm.trans there))
      exact ih hs further

end Files

/-! ## Writing entries -/

namespace FolderStore

variable {store : FolderStore} {files files' : Files} {name : Text}

/-- The folder of the store is where it was when an entry was put into it. -/
theorem Stored.folder_unique {octets : Octets} {d d' : Location} {made : Files}
    (h : Stored store name octets d made files') (hd' : files'.FolderAt store.folder d') : d' = d := by
  obtain ⟨later, hlater, hspot'⟩ := hd'
  -- no link is new: neither making folders nor putting the entry into its place makes one
  have hbecomes : Files.Becomes made later := by
    refine ⟨hlater.here.trans h.here, fun l hl => hlater.still ?_, fun l target hl => ?_⟩
    · rw [h.others l, hl]
      rintro rfl
      exact h.old hl
    · rcases hlater.node l with heq | ⟨-, hfolder⟩
      · rw [heq] at hl
        rw [← h.others l, hl]
        rintro rfl
        exact nomatch hl.symm.trans h.own
      · exact nomatch hl.symm.trans hfolder
  -- and none has become a folder: those are made where nothing stands, and the entry is a file
  have hlinks : ∀ l target, made.node? l = some (.link target) → later.node? l ≠ some .folder := by
    intro l target hl hfolder
    rcases hlater.node l with heq | ⟨hfree, -⟩
    · by_cases hown : l = d ++ [fileName name]
      · rw [heq, hown, h.own] at hfolder
        exact nomatch hfolder
      · rw [heq, h.others l hown, hl] at hfolder
        exact nomatch hfolder
    · by_cases hown : l = d ++ [fileName name]
      · rw [hown, h.own] at hfree
        exact nomatch hfree
      · rw [h.others l hown, hl] at hfree
        exact nomatch hfree
  obtain ⟨-, -, hleads⟩ := (Files.spot_eq_ok_iff made true store.folder).mp h.folder
  obtain ⟨-, -, hleads'⟩ := (Files.spot_eq_ok_iff later true store.folder).mp hspot'
  have hstart : later.start store.folder = made.start store.folder := by
    rw [Files.start, Files.start, hbecomes.here]
  rw [hstart] at hleads'
  exact hleads.folder_unique rfl hbecomes hlinks hleads' rfl

/-- **Writing an entry changes nothing outside the folder of the store**, but for folders that are made, and leaves
the folder where it is. -/
theorem confined_write (store : FolderStore) (h : files.WellFormed) (hname : Path.Name name) (value : Json) :
    (store.write files name (.document value)).1.WellFormed ∧
      Files.Confined store.folder files (store.write files name (.document value)).1 := by
  -- either it fails with at most new folders made, or the entry stands in the folder, at the place of its own
  rcases store.write_cases h hname value with
    ⟨files', failure, hwrite, hfiles', hdeepens⟩ | ⟨files', made, d, hwrite, -, hmade, hdeepens, hstored⟩
  · rw [hwrite]
    exact ⟨hfiles', hdeepens.confined _⟩
  · rw [hwrite]
    have hfolder : files.FolderAt store.folder d := ⟨made, hdeepens, hstored.folder⟩
    refine ⟨hstored.wellFormed, fun {d'} hd' => ?_, fun {l} hl => ?_⟩
    · rwa [hstored.folder_unique hd']
    · have hne : l ≠ d ++ [fileName name] := by
        rintro rfl
        exact hl d hfolder (List.prefix_append d _)
      rw [hstored.others l hne]
      exact hdeepens.node l

end FolderStore

end SolidityBuild
