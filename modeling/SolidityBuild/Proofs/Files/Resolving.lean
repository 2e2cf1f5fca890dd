import SolidityBuild.Files.Resolve
import SolidityBuild.Proofs.Files.Changing
import Mathlib.Data.List.Perm.Subperm

/-!
Paths that are worked out. Which path from the top stands for a path depends on the links of the tree only; that
every link is worked out at most once on the way to itself makes the number of entries fuel enough, so how many
there are makes no difference.
-/

set_option autoImplicit false

namespace SolidityBuild

namespace Files

variable {files files' : Files} {p : Path}

/-- Trees with the same links. -/
def SameLinks (files files' : Files) : Prop :=
  ∀ l target, files'.node? l = some (.link target) ↔ files.node? l = some (.link target)

section Parts

variable {follow follow' : (link : Location) → (target : Text) → Except Location Location} {l : Location}
  {part : Text} {rest : List Text}

theorem resolveParts_plain (hpart : Path.isPart part = true) (hdown : part ≠ Path.dotDot)
    (hplain : ∀ target, files.node? (l ++ [part]) ≠ some (.link target)) :
    files.resolveParts follow l (part :: rest) = files.resolveParts follow (l ++ [part]) rest := by
  rw [resolveParts, hpart, Bool.not_true, if_neg Bool.false_ne_true, if_neg hdown]
  dsimp only
  split
  · next target h => exact absurd h (hplain target)
  · rfl

theorem resolveParts_link (hpart : Path.isPart part = true) (hdown : part ≠ Path.dotDot) {target : Text}
    (hlink : files.node? (l ++ [part]) = some (.link target)) :
    files.resolveParts follow l (part :: rest) =
      match follow (l ++ [part]) target with
      | .ok l' => files.resolveParts follow l' rest
      | .error stuck => .error (Path.collapse stuck rest) := by
  rw [resolveParts, hpart, Bool.not_true, if_neg Bool.false_ne_true, if_neg hdown]
  dsimp only
  split
  · next target' h =>
    obtain rfl : target' = target := Node.link.inj (Option.some.inj (h.symm.trans hlink))
    rfl
  · next h => exact absurd hlink (h target)

/-- Parts are worked out alike where links are followed alike. -/
theorem resolveParts_congr (hlinks : SameLinks files files')
    (hfollow : ∀ link target, files.node? link = some (.link target) → follow' link target = follow link target)
    (l : Location) (parts : List Text) :
    files'.resolveParts follow' l parts = files.resolveParts follow l parts := by
  induction parts generalizing l with
  | nil => rfl
  | cons part rest ih =>
    cases hpart : Path.isPart part with
    | false =>
      rw [resolveParts, resolveParts, hpart]
      exact ih l
    | true =>
      by_cases hdown : part = Path.dotDot
      · rw [resolveParts, resolveParts, hpart, if_pos hdown, if_pos hdown]
        exact ih l.dropLast
      · by_cases hlink : ∃ target, files.node? (l ++ [part]) = some (.link target)
        · obtain ⟨target, hlink⟩ := hlink
          rw [resolveParts_link hpart hdown hlink, resolveParts_link hpart hdown ((hlinks _ _).mpr hlink),
            hfollow _ _ hlink]
          cases follow (l ++ [part]) target with
          | ok l' => exact ih l'
          | error stuck => rfl
        · rw [resolveParts_plain hpart hdown fun target h => hlink ⟨target, h⟩,
            resolveParts_plain hpart hdown fun target h => hlink ⟨target, (hlinks _ _).mp h⟩]
          exact ih _

end Parts

/-- Links that are being worked out, each of them once, are entries of the tree. -/
theorem length_pending_le {pending : List Location} (hnodup : pending.Nodup)
    (hpending : ∀ link ∈ pending, ∃ target, files.node? link = some (.link target)) :
    pending.length ≤ files.entries.length := by
  have hsubset : pending ⊆ files.entries.map Prod.fst := by
    intro link hmem
    obtain ⟨target, hlink⟩ := hpending link hmem
    have hne : link ≠ [] := by
      rintro rfl
      exact nomatch (node?_nil files).symm.trans hlink
    refine (node?_ne_none_iff hne).mp ?_
    rw [hlink]
    exact Option.some_ne_none _
  have hlength := (hnodup.subperm hsubset).length_le
  rwa [List.length_map] at hlength

/-- A link is followed alike in trees with the same links, if there is fuel for all of them. The induction is on
the fuel: one link more is pending each time, and there are not more of them than entries. -/
theorem followLink_congr (hlinks : SameLinks files files') {fuel fuel' : Nat} {pending : List Location}
    (hnodup : pending.Nodup) (hpending : ∀ link ∈ pending, ∃ target, files.node? link = some (.link target))
    (hfuel : files.entries.length < fuel + pending.length)
    (hfuel' : files'.entries.length < fuel' + pending.length) {link : Location} {target : Text}
    (hlink : files.node? link = some (.link target)) :
    files'.followLink fuel' pending link target = files.followLink fuel pending link target := by
  have hpending' : ∀ link ∈ pending, ∃ target, files'.node? link = some (.link target) := by
    intro link hmem
    obtain ⟨target, h⟩ := hpending link hmem
    exact ⟨target, (hlinks _ _).mpr h⟩
  have hlength := length_pending_le hnodup hpending
  have hlength' := length_pending_le hnodup hpending'
  induction fuel generalizing fuel' pending link target with
  | zero => omega
  | succ fuel ih =>
    cases fuel' with
    | zero => omega
    | succ fuel' =>
      rw [followLink, followLink]
      -- a link that is pending already is a loop; another one is worked out with one more pending
      by_cases hcontains : pending.contains link = true
      · rw [if_pos hcontains, if_pos hcontains]
      · rw [if_neg hcontains, if_neg hcontains]
        have hfresh : link ∉ pending := fun hmem => hcontains (List.contains_iff_mem.mpr hmem)
        have hnodup' : (link :: pending).Nodup := List.nodup_cons.mpr ⟨hfresh, hnodup⟩
        have hall := List.forall_mem_cons.mpr ⟨⟨target, hlink⟩, hpending⟩
        have hall' := List.forall_mem_cons.mpr ⟨⟨target, (hlinks _ _).mpr hlink⟩, hpending'⟩
        have hmore : (link :: pending).length = pending.length + 1 := List.length_cons
        refine resolveParts_congr hlinks (fun link' target' hlink' => ?_) _ _
        exact ih hnodup' hall (by omega) (by omega) hlink' hall' (length_pending_le hnodup' hall)
          (length_pending_le hnodup' hall')

/-- **A path that was worked out to that of a folder** is worked out to it in a tree with the same links in which
the folder is there. -/
theorem resolve_congr (hlinks : SameLinks files files') (hhere : files'.here = files.here) {folder : Path}
    (hfolder : files'.isFolder folder = .ok true) (hresolve : files.resolve p = .ok folder) :
    files'.resolve p = .ok folder := by
  have hparts : files'.resolveParts (files'.followLink (files'.entries.length + 1) []) (files'.start p) p.parts =
      files.resolveParts (files.followLink (files.entries.length + 1) []) (files.start p) p.parts := by
    rw [start, start, hhere]
    refine resolveParts_congr hlinks (fun link target hlink => ?_) _ _
    exact followLink_congr hlinks List.nodup_nil (List.forall_mem_nil _) (Nat.lt_succ_self _) (Nat.lt_succ_self _)
      hlink
  rw [resolve] at hresolve ⊢
  rw [hparts]
  obtain ⟨l, hspot⟩ := isFolder_iff.mp hfolder
  have htarget := target_of_spot hspot
  dsimp only at hresolve ⊢
  split_ifs at hresolve ⊢ with hnull
  generalize files.resolveParts _ _ _ = result at hresolve ⊢
  split at hresolve
  · split_ifs at hresolve
    rw [Except.ok.inj hresolve, htarget]
  · rw [Except.ok.inj hresolve, htarget]

end Files

end SolidityBuild
