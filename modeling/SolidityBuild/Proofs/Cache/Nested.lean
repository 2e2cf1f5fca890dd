import SolidityBuild.Proofs.Cache.Folder
import SolidityBuild.Proofs.Files.Lasting

/-!
A store in a folder within a folder that is there, as that of a project is. Writing an entry puts things under
the name of that folder and under names of entries only; and if no link is lost by it, the entry is read back, and
every path to a file leads to it still.
-/

set_option autoImplicit false

namespace SolidityBuild

namespace FolderStore

variable {folder : Path} {own name : Text} {d : Location} {files files' : Files}

/-- The names under which a store in a folder of a name puts things: the name of its folder, and those of files of
entries. -/
def Fresh (own name : Text) : Prop := name = own ∨ suffix <:+ name

instance (own name : Text) : Decidable (Fresh own name) :=
  inferInstanceAs (Decidable (name = own ∨ suffix <:+ name))

/-- The store in a folder within a folder. -/
def within (folder : Path) (own : Text) : FolderStore := ⟨folder.child own⟩

/-- What is written into a tree with the folder `d` is written where the folder of the store was, or was made. -/
theorem within_write_cases (h : files.WellFormed) (hfolder : files.spot true folder = .ok ⟨d, some .folder⟩)
    (hown : Files.IsName own) (hname : Path.Name name) {value : Json}
    (hwrite : (within folder own).write files name (.document value) = (files', .ok ())) :
    ∃ made s, made.WellFormed ∧ Files.Deepens files made ∧
      Stored (within folder own) name (value.render.flatMap Text.octetsOf) s made files' ∧
        (made = files ∨
          files.node? (d ++ [own]) = none ∧ made = files.put (d ++ [own]) .folder ∧ s = d ++ [own]) := by
  rcases (within folder own).write_cases h hname value with
    ⟨files'', failure, hcase, -⟩ | ⟨files'', made, s, hcase, hensure, hmade, hdeepens, hstored⟩
  · exact nomatch congrArg Prod.snd (hcase.symm.trans hwrite)
  · obtain rfl : files'' = files' := congrArg Prod.fst (hcase.symm.trans hwrite)
    refine ⟨made, s, hmade, hdeepens, hstored, ?_⟩
    rcases h.ensurePath_child hfolder hown hensure with rfl | ⟨hfree, rfl⟩
    · exact .inl rfl
    · refine .inr ⟨hfree, rfl, ?_⟩
      have hput := Files.node?_put_self files (List.concat_ne_nil own d) .folder
      have hchild := Files.spot_child true hmade (hdeepens.keeps.spot_folder hfolder) hown
        fun target hl => nomatch hput.symm.trans hl
      have hstore := hstored.folder
      rw [within, hchild] at hstore
      split_ifs at hstore
      exact (Spot.mk.inj (Except.ok.inj hstore)).1.symm

/-- Writing an entry leaves the folders, and makes no link. -/
theorem becomes_of_write {store : FolderStore} (h : files.WellFormed) (hname : Path.Name name) {value : Json}
    (hwrite : store.write files name (.document value) = (files', .ok ())) :
    files'.WellFormed ∧ Files.Becomes files files' := by
  rcases store.write_cases h hname value with
    ⟨files'', failure, hcase, -⟩ | ⟨files'', made, s, hcase, -, -, hdeepens, hstored⟩
  · exact nomatch congrArg Prod.snd (hcase.symm.trans hwrite)
  obtain rfl : files'' = files' := congrArg Prod.fst (hcase.symm.trans hwrite)
  refine ⟨hstored.wellFormed, hstored.here.trans hdeepens.here, fun l hl => ?_, fun l target hl => ?_⟩
  · have hl' := hdeepens.still hl
    have hne : l ≠ s ++ [fileName name] := by
      rintro rfl
      exact hstored.old hl'
    rw [hstored.others l hne, hl']
  · have hne : l ≠ s ++ [fileName name] := by
      rintro rfl
      exact nomatch hstored.own.symm.trans hl
    rw [hstored.others l hne] at hl
    rcases hdeepens.node l with heq | ⟨-, heq⟩
    · exact heq.symm.trans hl
    · exact nomatch heq.symm.trans hl

/-- **Writing an entry furnishes the tree.** -/
theorem within_write_furnished (h : files.WellFormed) (hfolder : files.spot true folder = .ok ⟨d, some .folder⟩)
    (hown : Files.IsName own) (hname : Path.Name name) {value : Json}
    (hwrite : (within folder own).write files name (.document value) = (files', .ok ())) :
    Files.Furnished (Fresh own) files files' := by
  obtain ⟨made, s, -, -, hstored, hmade⟩ := within_write_cases h hfolder hown hname hwrite
  refine ⟨(becomes_of_write h hname hwrite).2, fun l name' hquiet => ?_⟩
  have hne : l ++ [name'] ≠ s ++ [fileName name] := by
    intro heq
    rw [(List.append_singleton_inj.mp heq).2] at hquiet
    exact hquiet (.inr (suffix_suffix_fileName name))
  rw [hstored.others _ hne]
  rcases hmade with rfl | ⟨-, rfl, -⟩
  · rfl
  · refine Files.node?_put_of_ne (fun heq => hquiet (.inl ?_)) .folder
    exact (List.append_singleton_inj.mp heq).2

section Standing

variable (h : files.WellFormed) (hfolder : files.spot true folder = .ok ⟨d, some .folder⟩)
  (hown : Files.IsName own) (hname : Path.Name name) {value : Json}
  (hwrite : (within folder own).write files name (.document value) = (files', .ok ()))
  (hstand : Files.LinksStand files files')

include h hfolder hown hname hwrite hstand

/-- **The path of the entry leads to its file**, if no link is lost. -/
theorem within_write_own : ∃ l, files'.spot true ((within folder own).path name) =
    .ok ⟨l, some (.file (value.render.flatMap Text.octetsOf))⟩ := by
  obtain ⟨made, s, -, hdeepens, hstored, -⟩ := within_write_cases h hfolder hown hname hwrite
  refine ⟨_, hstored.spot_own (hstored.keeps fun target hl => ?_) true⟩
  -- a link there would have been lost
  have hlost : files.node? (s ++ [fileName name]) ≠ some (.link target) := fun hl' =>
    nomatch hstored.own.symm.trans (hstand _ _ hl')
  rcases hdeepens.node (s ++ [fileName name]) with heq | ⟨-, heq⟩
  · exact hlost (heq.symm.trans hl)
  · exact nomatch heq.symm.trans hl

/-- **A path to a file leads to it still**, if no link is lost and the entry was not there. -/
theorem within_write_other (hmissing : (within folder own).has files name = .ok false) {p : Path} {l : Location}
    {node : Node} (hspot : files.spot true p = .ok ⟨l, some node⟩) (hfile : node ≠ .folder) :
    files'.spot true p = .ok ⟨l, some node⟩ := by
  obtain ⟨-, hbecomes⟩ := becomes_of_write h hname hwrite
  obtain ⟨made, s, hmade, hdeepens, hstored, hcases⟩ := within_write_cases h hfolder hown hname hwrite
  refine h.spot_still (hbecomes.keeps hstand) hspot ?_
  have hl : files.node? l = some node := Files.node?_of_spot hspot
  have hne : l ≠ s ++ [fileName name] := by
    rintro rfl
    rcases hcases with rfl | ⟨hfree, -, rfl⟩
    · -- the entry would have been found there
      have hreached := hstored.reached
      rw [hl] at hreached
      have hfound : made.isFile ((within folder own).path name) = .ok true := by
        cases node with
        | folder => exact absurd rfl hfile
        | link target =>
          obtain ⟨-, -, hleads⟩ := (Files.spot_eq_ok_iff made true p).mp hspot
          exact absurd rfl (hleads.unlinked h (h.node?_start p) target)
        | file _ | «sealed» => exact Files.holds_of_spot (Files.spot_followed hreached fun _ heq => nomatch heq) _
      rw [has, hstored.named] at hmissing
      dsimp only at hmissing
      rw [hfound] at hmissing
      cases hmissing
    · cases (h.free_below hfree (List.prefix_append _ _)).symm.trans hl
  exact (hstored.others l hne).trans (hdeepens.still hl)

end Standing

end FolderStore

end SolidityBuild
