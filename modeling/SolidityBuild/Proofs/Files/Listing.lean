import SolidityBuild.Proofs.Files.Changing
import SolidityBuild.Proofs.Table
import SolidityBuild.Proofs.Text.Order

/-!
Trees whose entries are listed in another order. The order in which a tree lists its entries decides neither what
stands where nor where a path leads, and what is found in a folder is sorted, so that it does not show there either.
-/

set_option autoImplicit false

namespace SolidityBuild

namespace Files

variable {files files' : Files}

/-- The same tree, with its entries in another order. -/
structure Relisted (files files' : Files) : Prop where
  here : files'.here = files.here
  entries : files'.entries.Perm files.entries

/-! ## Where paths lead -/

section Walks

variable {followLast : Bool}

/-- Where parts lead is told by what stands where. -/
theorem walkParts_congr (hnode : ∀ l, files'.node? l = files.node? l)
    (jump : Location → List Text → Except SystemCause Spot) (parts : List Text) :
    ∀ l, files'.walkParts followLast jump l parts = files.walkParts followLast jump l parts := by
  induction parts with
  | nil =>
    intro l
    rw [walkParts, walkParts, hnode]
  | cons part rest ih =>
    intro l
    simp only [walkParts, isFolderAt, hnode, ih]

theorem walk_congr (hnode : ∀ l, files'.node? l = files.node? l) (links : Nat) (l : Location) (parts : List Text) :
    files'.walk followLast links l parts = files.walk followLast links l parts := by
  induction links generalizing l parts with
  | zero => exact walkParts_congr hnode _ parts l
  | succ links ih =>
    have hjump : files'.walk followLast links = files.walk followLast links :=
      funext fun l => funext fun parts => ih l parts
    rw [walk, walk, hjump]
    exact walkParts_congr hnode _ parts l

/-- **Where a path leads is told by what stands where**, and by the folder in which relative paths start. -/
theorem spot_congr (hnode : ∀ l, files'.node? l = files.node? l) (hhere : files'.here = files.here) (p : Path) :
    files'.spot followLast p = files.spot followLast p := by
  rw [spot, spot, start, start, hhere, walk_congr hnode]

end Walks

/-! ## Trees listed in another order -/

namespace Relisted

theorem node?_eq (h : Relisted files files') (hfiles : files.WellFormed) (l : Location) :
    files'.node? l = files.node? l := by
  rw [node?, node?, lookup_perm hfiles.distinct h.entries.symm]

theorem spot_eq (h : Relisted files files') (hfiles : files.WellFormed) (p : Path) :
    files'.spot true p = files.spot true p := spot_congr (h.node?_eq hfiles) h.here p

theorem names_perm (h : Relisted files files') (l : Location) : (files'.names l).Perm (files.names l) :=
  h.entries.filterMap _

/-- **What is found in a folder is the same**, in the same order. -/
theorem findIn_eq (h : Relisted files files') (hfiles : files.WellFormed) (p : Path) (tail : Text) :
    files'.findIn p tail = files.findIn p tail := by
  have hisFolder : files'.isFolder p = files.isFolder p := holds_congr (h.spot_eq hfiles p) _
  rw [findIn, findIn, hisFolder, readFolder, readFolder, h.spot_eq hfiles]
  rcases files.spot true p with fault | ⟨location, node⟩
  · rfl
  · rcases node with _ | node
    · rfl
    · cases node with
      | folder =>
        have hsorted : ((files'.names location).filter fun name => name.endsWith tail).mergeSort Text.le =
            ((files.names location).filter fun name => name.endsWith tail).mergeSort Text.le :=
          Text.mergeSort_le_congr ((h.names_perm location).filter _)
        change (files.isFolder p >>= fun found => if found = true then
            Except.ok ((((files'.names location).filter fun name => name.endsWith tail).mergeSort Text.le).map p.child)
          else _) = _
        rw [hsorted]
        rfl
      | _ => rfl

end Relisted

end Files

end SolidityBuild
