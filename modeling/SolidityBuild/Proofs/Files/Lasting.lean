import SolidityBuild.Proofs.Files.Resolving
import SolidityBuild.Proofs.Text.Order

/-!
What lasts in a tree of files when things are put under certain names. A path below a folder leads to what it led
to, unless it ends with one of these names, as long as the links on the way and at its end still lead to what they
led to; so what is found below the folder under other names is the same, too.
-/

set_option autoImplicit false

namespace SolidityBuild

namespace Files

variable {fresh : Text → Prop} {files files₁ files' : Files}

/-! ## Trees that are furnished -/

/-- A tree that another one has become: folders stay, and no link is new. -/
structure Becomes (files files' : Files) : Prop where
  here : files'.here = files.here
  folder : ∀ l, files.node? l = some .folder → files'.node? l = some .folder
  unlinked : ∀ l target, files'.node? l = some (.link target) → files.node? l = some (.link target)

/-- A tree that another one has become by what was put under certain names: under other names everything is as it
was. -/
structure Furnished (fresh : Text → Prop) (files files' : Files) : Prop extends Becomes files files' where
  quiet : ∀ l name, ¬ fresh name → files'.node? (l ++ [name]) = files.node? (l ++ [name])

/-- Every link stands as it stood. -/
def LinksStand (files files' : Files) : Prop :=
  ∀ l target, files.node? l = some (.link target) → files'.node? l = some (.link target)

namespace Becomes

theorem refl (files : Files) : Becomes files files := ⟨rfl, fun _ h => h, fun _ _ h => h⟩

theorem trans (h : Becomes files files₁) (h' : Becomes files₁ files') : Becomes files files' :=
  ⟨h'.here.trans h.here, fun l hl => h'.folder l (h.folder l hl),
    fun l target hl => h.unlinked l target (h'.unlinked l target hl)⟩

theorem keeps (h : Becomes files files') (hstand : LinksStand files files') : Keeps files files' :=
  ⟨h.here, h.folder, hstand⟩

theorem sameLinks (h : Becomes files files') (hstand : LinksStand files files') : SameLinks files files' :=
  fun l target => ⟨h.unlinked l target, hstand l target⟩

end Becomes

theorem Furnished.refl (fresh : Text → Prop) (files : Files) : Furnished fresh files files :=
  ⟨.refl files, fun _ _ _ => rfl⟩

theorem Furnished.trans (h : Furnished fresh files files₁) (h' : Furnished fresh files₁ files') :
    Furnished fresh files files' :=
  ⟨h.toBecomes.trans h'.toBecomes, fun l name hname => (h'.quiet l name hname).trans (h.quiet l name hname)⟩

/-- Links that stand in the end stand all the time, as none is new. -/
theorem LinksStand.before (h : LinksStand files files') (hlater : Becomes files₁ files') :
    LinksStand files files₁ := fun l target hl => hlater.unlinked l target (h l target hl)

theorem LinksStand.after (h : LinksStand files files') (hearlier : Becomes files files₁) :
    LinksStand files₁ files' := fun l target hl => h l target (hearlier.unlinked l target hl)

/-! ## Paths below a folder -/

/-- Every link stands as it stood, and every link below a folder leads to what it led to. -/
structure LinksKept (files files' : Files) (folder : Path) : Prop where
  stand : LinksStand files files'
  lead : ∀ place l target, files.spot false (folder.under place) = .ok ⟨l, some (.link target)⟩ →
    files'.spot true (folder.under place) = files.spot true (folder.under place)

section Below

variable {folder : Path} {d : Location}

/-- In an ordinary tree there are no links to be lost. -/
theorem LinksKept.of_ordinary (h : files.Ordinary) : LinksKept files files' folder where
  stand l target hl := absurd hl (h.unlinked l target)
  lead _ l target hspot := absurd (node?_of_spot hspot) (h.unlinked l target)

/-- **A path below a folder leads to what it led to**, unless things were put under the name at its end. -/
theorem LinksKept.spot_under (hkept : LinksKept files files' folder) (h : files.WellFormed)
    (h' : files'.WellFormed) (hfurnished : Furnished fresh files files')
    (hfolder : files.spot true folder = .ok ⟨d, some .folder⟩) {place : Location} {name : Text}
    (habove : files.node? (d ++ place) = some .folder) (hname : IsName name) (hquiet : ¬ fresh name) :
    files'.spot true (folder.under (place ++ [name])) = files.spot true (folder.under (place ++ [name])) := by
  have hnode := hfurnished.quiet (d ++ place) name hquiet
  by_cases hlink : ∃ target, files.node? (d ++ place ++ [name]) = some (.link target)
  · -- the link is found at the end of the same path, so it leads to what it led to
    obtain ⟨target, hlink⟩ := hlink
    by_cases hnull : hasNull (folder.under (place ++ [name])) = true
    · rw [spot, spot, if_pos hnull, if_pos hnull]
    · by_cases hlong : pathLimit ≤ Text.utf8Size (folder.under (place ++ [name])).text
      · rw [spot, spot, if_neg hnull, if_neg hnull, if_pos hlong, if_pos hlong]
      · have hstill := Files.spot_under false h hfolder habove hname fun _ _ => rfl
        rw [if_neg hnull, if_neg hlong, hlink] at hstill
        exact hkept.lead _ _ _ hstill
  · -- what stands there is the end of the path, in both trees
    have hfolder' := (hfurnished.keeps hkept.stand).spot_folder hfolder
    rw [Files.spot_under true h hfolder habove hname fun target hl => absurd ⟨target, hl⟩ hlink,
      Files.spot_under true h' hfolder' (hfurnished.folder _ habove) hname fun target hl =>
        absurd ⟨target, hnode.symm.trans hl⟩ hlink, hnode]

/-- The path of an entry of a folder leads to what it led to. -/
theorem LinksKept.spot_child (hkept : LinksKept files files' folder) (h : files.WellFormed)
    (h' : files'.WellFormed) (hfurnished : Furnished fresh files files')
    (hfolder : files.spot true folder = .ok ⟨d, some .folder⟩) {name : Text} (hname : IsName name)
    (hquiet : ¬ fresh name) :
    files'.spot true (folder.child name) = files.spot true (folder.child name) := by
  have habove : files.node? (d ++ []) = some .folder := by
    rw [List.append_nil]
    exact node?_of_spot hfolder
  have hunder := hkept.spot_under h h' hfurnished hfolder habove hname hquiet
  rwa [List.nil_append] at hunder

/-! ## What is found below a folder -/

theorem findBelow_eq (hfolder : files.spot true folder = .ok ⟨d, some .folder⟩) (tail : Text) :
    files.findBelow folder tail =
      .ok (((files.below d).filter (nameEndsWith tail)).mergeSort Path.partsLe) := by
  have hisFolder : files.isFolder folder = .ok true := isFolder_iff.mpr ⟨d, hfolder⟩
  rw [findBelow, hisFolder, hfolder]
  rfl

/-- What is found stands in a folder, under a name with that end. -/
theorem WellFormed.exists_of_mem_found (h : files.WellFormed) {tail : Text} {place : Location}
    (hmem : place ∈ (files.below d).filter (nameEndsWith tail)) : ∃ above name, place = above ++ [name] ∧
      files.node? (d ++ above) = some .folder ∧ IsName name ∧ Text.endsWith name tail = true := by
  obtain ⟨hbelow, hends⟩ := List.mem_filter.mp hmem
  obtain ⟨hne, hnode⟩ := mem_below_iff.mp hbelow
  obtain ⟨node, hnode⟩ := Option.ne_none_iff_exists'.mp hnode
  rcases List.eq_nil_or_concat' place with rfl | ⟨above, name, rfl⟩
  · exact absurd rfl hne
  · rw [← List.append_assoc] at hnode
    have hparent := h.parent _ node (List.concat_ne_nil name (d ++ above)) hnode
    rw [List.dropLast_concat] at hparent
    rw [nameEndsWith, List.getLast?_concat] at hends
    refine ⟨above, name, rfl, hparent, ?_, hends⟩
    exact h.names _ node hnode name (List.mem_append_right _ (List.mem_singleton_self name))

/-- **What is found below a folder is the same**, if nothing was put under names with that end. -/
theorem Furnished.found_perm (hfurnished : Furnished fresh files files') (h : files.WellFormed)
    (h' : files'.WellFormed) {tail : Text} (hquiet : ∀ name, Text.endsWith name tail = true → ¬ fresh name) :
    ((files'.below d).filter (nameEndsWith tail)).Perm ((files.below d).filter (nameEndsWith tail)) := by
  refine (List.perm_ext_iff_of_nodup ((h'.nodup_below d).filter _) ((h.nodup_below d).filter _)).mpr ?_
  intro place
  rw [List.mem_filter, List.mem_filter, mem_below_iff, mem_below_iff]
  rcases List.eq_nil_or_concat' place with rfl | ⟨above, name, rfl⟩
  · exact iff_of_false (fun h => h.1.1 rfl) fun h => h.1.1 rfl
  · rw [nameEndsWith, List.getLast?_concat, ← List.append_assoc]
    refine and_congr_left fun hends => ?_
    rw [hfurnished.quiet (d ++ above) name (hquiet name hends)]

/-- Places in one order or another are sorted into the same. -/
theorem mergeSort_partsLe_eq {places places' : List Location} (h : places'.Perm places) :
    places'.mergeSort Path.partsLe = places.mergeSort Path.partsLe := by
  refine mergeSort_congr (fun s t u => ?_) (fun s t => ?_) (fun s _ t _ hst hts => ?_) h
  · exact lexicographic_trans (fun _ _ => Text.le_antisymm) fun _ _ _ => Text.le_trans
  · rw [Bool.or_eq_true]
    exact lexicographic_total Text.le_total s t
  · exact lexicographic_antisymm (fun _ _ => Text.le_antisymm) hst hts

/-- **What is found below a folder is found again**, and each path found leads to what it led to. -/
theorem LinksKept.findBelow_congr (hkept : LinksKept files files' folder) (h : files.WellFormed)
    (h' : files'.WellFormed) (hfurnished : Furnished fresh files files')
    (hfolder : files.spot true folder = .ok ⟨d, some .folder⟩) {tail : Text}
    (hquiet : ∀ name, Text.endsWith name tail = true → ¬ fresh name) :
    ∃ places, files.findBelow folder tail = .ok places ∧ files'.findBelow folder tail = .ok places ∧
      ∀ place ∈ places, files'.spot true (folder.under place) = files.spot true (folder.under place) := by
  have hfolder' := (hfurnished.keeps hkept.stand).spot_folder hfolder
  refine ⟨_, findBelow_eq hfolder tail, ?_, fun place hmem => ?_⟩
  · rw [findBelow_eq hfolder' tail, mergeSort_partsLe_eq (hfurnished.found_perm h h' hquiet)]
  · obtain ⟨above, name, rfl, habove, hname, hends⟩ := h.exists_of_mem_found (List.mem_mergeSort.mp hmem)
    exact hkept.spot_under h h' hfurnished hfolder habove hname (hquiet name hends)

end Below

end Files

end SolidityBuild
