import SolidityBuild.Proofs.Files.Changing
import SolidityBuild.Proofs.Narrated

/-!
Paths that are none. A path with the code point zero is no path at all, and this is told apart from every fault of
the files: an operation complains about it exactly if it is asked about such a path.
-/

set_option autoImplicit false

namespace SolidityBuild

namespace Files

variable {files files' : Files} {p : Path} {followLast : Bool}

theorem hasNull_of_parent (h : hasNull p.parent = true) : hasNull p = true := by
  obtain ⟨part, hpart, hzero⟩ := List.any_eq_true.mp h
  exact List.any_eq_true.mpr ⟨part, List.dropLast_subset _ hpart, hzero⟩

theorem spot_eq_nullInPath_iff : files.spot followLast p = .error .nullInPath ↔ hasNull p = true := by
  rw [spot]
  split_ifs with hnull hlong
  · exact iff_of_true rfl hnull
  · exact iff_of_false (fun heq => by cases heq) hnull
  · refine iff_of_false (fun heq => ?_) hnull
    split at heq <;> cases heq

theorem hasNull_of_makeFolder (h : files.makeFolder p = .error .nullInPath) : hasNull p = true := by
  rw [makeFolder] at h
  rcases bind_eq_error h with hspot | ⟨⟨l, node⟩, -, h⟩
  · exact spot_eq_nullInPath_iff.mp hspot
  · cases node <;> cases h

theorem hasNull_of_write {octets : Octets} (h : files.write p octets = .error .nullInPath) : hasNull p = true := by
  rw [write] at h
  rcases bind_eq_error h with hspot | ⟨⟨l, node⟩, -, h⟩
  · exact spot_eq_nullInPath_iff.mp hspot
  · cases node with
    | none => cases h
    | some node => cases node <;> cases h

/-- Whoever only asks what is at such a path is told that there is nothing. -/
theorem holds_ne_nullInPath (test : Node → Bool) : files.holds test p ≠ .error .nullInPath := by
  rw [holds]
  intro h
  split at h
  · cases h
  · split_ifs at h
    cases h
  · cases h

theorem hasNull_of_ensureFolder (h : files.ensureFolder p = (files', .error .nullInPath)) : hasNull p = true := by
  rw [ensureFolder] at h
  cases hmake : files.makeFolder p with
  | ok made =>
    rw [hmake] at h
    cases (Prod.ext_iff.mp h).2
  | error fault =>
    rw [hmake] at h
    cases fault with
    | nullInPath => exact hasNull_of_makeFolder hmake
    | system f =>
      dsimp only at h
      split_ifs at h
      · cases (Prod.ext_iff.mp h).2
      · cases hfolder : files.isFolder p with
        | error fault' =>
          rw [hfolder] at h
          obtain rfl : fault' = .nullInPath := Except.error.inj (Prod.ext_iff.mp h).2
          exact (holds_ne_nullInPath _ hfolder).elim
        | ok found =>
          rw [hfolder] at h
          cases found <;> cases (Prod.ext_iff.mp h).2

/-- A folder that is made together with those above it is at fault itself, if one of them is. -/
theorem hasNull_of_ensureFolders (levels : Nat) (h : ensureFolders levels files p = (files', .error .nullInPath)) :
    hasNull p = true := by
  induction levels generalizing files files' p with
  | zero => exact hasNull_of_ensureFolder h
  | succ levels ih =>
    rw [ensureFolders] at h
    rcases hfirst : files.ensureFolder p with ⟨files₁, fault | ⟨⟩⟩
    · rw [hfirst] at h
      dsimp only at h
      split_ifs at h
      · rcases habove : ensureFolders levels files₁ p.parent with ⟨files₂, fault' | ⟨⟩⟩
        · rw [habove] at h
          obtain rfl : fault' = .nullInPath := Except.error.inj (Prod.ext_iff.mp h).2
          exact hasNull_of_parent (ih habove)
        · rw [habove] at h
          exact hasNull_of_ensureFolder h
      · obtain rfl : fault = .nullInPath := Except.error.inj (Prod.ext_iff.mp h).2
        exact hasNull_of_ensureFolder hfirst
    · rw [hfirst] at h
      cases (Prod.ext_iff.mp h).2

/-- What is there is moved to any path but these. -/
theorem move_eq_nullInPath_iff {source target : Path} {l : Location} {node : Node}
    (hsource : files.spot false source = .ok ⟨l, some node⟩) :
    files.move source target = .error .nullInPath ↔ hasNull target = true := by
  rw [← @spot_eq_nullInPath_iff files target false]
  cases hgoal : files.spot false target with
  | error fault =>
    simp only [move, hsource, hgoal]
    cases fault with
    | system f => exact iff_of_false (fun heq => by cases heq) fun heq => by cases heq
    | nullInPath => exact iff_of_true rfl rfl
  | ok goal =>
    obtain ⟨g, held⟩ := goal
    refine iff_of_false (fun heq => ?_) fun heq => by cases heq
    simp only [move, hsource, hgoal] at heq
    cases held with
    | none => cases heq
    | some held => cases held <;> cases heq

end Files

end SolidityBuild
