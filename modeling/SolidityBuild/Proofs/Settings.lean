import SolidityBuild.Settings
import SolidityBuild.Proofs.Json.Finite
import SolidityBuild.Proofs.Json.LooseEquality

/-!
Augmenting settings does not see the order of keys: settings that are equal up to it are so after it. The
outputs asked for are compared by the looser equality, which does not see the order of keys either, so
the same repetitions are dropped on both sides. On equal settings this says that well-formed settings stay
well-formed. Augmenting augmented settings changes nothing: no output that is asked for repeats one before it,
and every needed one is among them.
-/

set_option autoImplicit false

namespace SolidityBuild

namespace Settings

open Json

variable {p : Text → Prop}

/-! ## Lists of outputs -/

theorem isAmong_congr {os os' : List Json} (h : List.Forall₂ (Alike p) os os') {o o' : Json}
    (ho : Alike p o o') : isAmong os o = isAmong os' o' := by
  induction h with
  | nil => rfl
  | cons hxx _ ih =>
    rw [isAmong, isAmong, List.any_cons, List.any_cons, looseEq_congr hxx ho]
    congr 1

theorem addOutput_alike {os os' : List Json} (h : List.Forall₂ (Alike p) os os') {o o' : Json}
    (ho : Alike p o o') : List.Forall₂ (Alike p) (addOutput os o) (addOutput os' o') := by
  rw [addOutput, addOutput, isAmong_congr h ho]
  split
  · exact h
  · exact List.rel_append h (.cons ho .nil)

/-- Only a list asks for outputs, and what is equal to a list up to the order of keys is a list. -/
theorem outputs_alike {asked asked' : Option Json} (h : Option.Rel (Alike p) asked asked') :
    List.Forall₂ (Alike p) ((asked.bind Json.items?).getD []) ((asked'.bind Json.items?).getD []) := by
  cases h with
  | none => exact .nil
  | @some j j' hjj =>
    cases j with
    | list xs =>
      obtain ⟨ys, rfl, hitems⟩ := hjj.exists_items
      exact hitems
    | object entries =>
      obtain ⟨t, rfl⟩ := hjj.reordered.exists_object
      exact .nil
    | _ =>
      cases hjj.reordered
      exact .nil

theorem mergeOutputs_alike {asked asked' : Option Json} (h : Option.Rel (Alike p) asked asked')
    {needed : List Text} (hneeded : ∀ t ∈ needed, p t) :
    Alike p (.list (mergeOutputs asked needed)) (.list (mergeOutputs asked' needed)) := by
  have htexts : List.Forall₂ (Alike p) (needed.map Json.text) (needed.map Json.text) := by
    refine List.forall₂_same.mpr fun x hx => ?_
    obtain ⟨t, ht, rfl⟩ := List.mem_map.mp hx
    exact .refl (.text (hneeded t ht))
  have hall := List.rel_append (outputs_alike h) htexts
  refine .list (List.rel_foldl (P := List.Forall₂ (Alike p)) ?_ .nil hall)
  intro acc acc' hacc o o' ho
  exact addOutput_alike hacc ho

/-! ## Tables -/

/-- The table under a key is empty, or it is what is found there. -/
theorem tableAt_cases (t : Table Json) (k : Text) : tableAt t k = [] ∨ t.get? k = some (.object (tableAt t k)) := by
  unfold tableAt
  rcases t.get? k with _ | j
  · exact .inl rfl
  · cases j with
    | object entries => exact .inr rfl
    | _ => exact .inl rfl

theorem tableAt_alike {s t : Table Json} (h : Alike p (.object s) (.object t)) (k : Text) :
    Alike p (.object (tableAt s k)) (.object (tableAt t k)) := by
  have hrel := h.rel_get? k
  unfold tableAt
  generalize Table.get? s k = found at hrel ⊢
  generalize Table.get? t k = found' at hrel ⊢
  cases hrel with
  | none => exact .empty
  | @some j j' hjj =>
    cases j with
    | object entries =>
      obtain ⟨entries', rfl⟩ := hjj.reordered.exists_object
      exact hjj
    | list xs =>
      obtain ⟨ys, rfl, -⟩ := hjj.exists_items
      exact .empty
    | _ =>
      cases hjj.reordered
      exact .empty

variable (hp : ∀ s : String, p (Text.ofString s))

include hp in
theorem augmentFile_alike {s t : Table Json} (h : Alike p (.object s) (.object t)) :
    Alike p (.object (augmentFile s)) (.object (augmentFile t)) := by
  have hcontract : ∀ o ∈ contractOutputs, p o := by
    intro o ho
    simp only [contractOutputs, List.mem_cons, List.not_mem_nil, or_false] at ho
    rcases ho with rfl | rfl | rfl | rfl | rfl | rfl <;> exact hp _
  have hfile : ∀ o ∈ fileOutputs, p o := by
    intro o ho
    simp only [fileOutputs, List.mem_cons, List.not_mem_nil, or_false] at ho
    rcases ho with rfl | rfl <;> exact hp _
  have hput := h.put (hp "*") (mergeOutputs_alike (h.rel_get? wildcard) hcontract)
  exact hput.put (hp "") (mergeOutputs_alike (hput.rel_get? wholeFile) hfile)

include hp in
/-- **Augmenting does not see the order of keys.** Of texts it writes strings only. -/
theorem augment_alike {s t : Table Json} (h : Alike p (.object s) (.object t)) :
    Alike p (.object (augment s)) (.object (augment t)) := by
  have hselection := tableAt_alike h selectionKey
  exact h.put (hp "outputSelection")
    (hselection.put (hp "*") (augmentFile_alike hp (tableAt_alike hselection wildcard)))

/-! ## Outputs asked for once, and all that are needed -/

/-- No output is loosely equal to one before it. -/
def Unrepeated (os : List Json) : Prop := os.Pairwise fun x y => x.looseEq y = false

/-- Outputs of which none is asked for twice, with all needed ones. -/
structure Complete (needed : List Text) (os : List Json) : Prop where
  unrepeated : Unrepeated os
  covered : ∀ t ∈ needed, Json.text t ∈ os

theorem isAmong_eq_false {os : List Json} {o : Json} :
    isAmong os o = false ↔ ∀ x ∈ os, x.looseEq o = false := by
  rw [isAmong, List.any_eq_false]
  simp only [Bool.not_eq_true]

/-- A text is among outputs only as itself. -/
theorem isAmong_text_iff {os : List Json} {t : Text} : isAmong os (.text t) = true ↔ .text t ∈ os := by
  rw [isAmong, List.any_eq_true]
  simp only [looseEq_text_iff, exists_eq_right]

theorem unrepeated_concat_iff {os : List Json} {o : Json} :
    Unrepeated (os ++ [o]) ↔ Unrepeated os ∧ isAmong os o = false := by
  rw [Unrepeated, List.pairwise_append, isAmong_eq_false]
  simp only [List.pairwise_singleton, List.mem_singleton, forall_eq, true_and, Unrepeated]

theorem unrepeated_addOutput {os : List Json} (h : Unrepeated os) (o : Json) : Unrepeated (addOutput os o) := by
  unfold addOutput
  split
  · exact h
  · next hnot => exact unrepeated_concat_iff.mpr ⟨h, Bool.eq_false_iff.mpr hnot⟩

theorem unrepeated_foldl {acc : List Json} (h : Unrepeated acc) (os : List Json) :
    Unrepeated (os.foldl addOutput acc) := by
  induction os generalizing acc with
  | nil => exact h
  | cons o os ih => exact ih (unrepeated_addOutput h o)

/-- Outputs of which none repeats one before it are all taken over. -/
theorem foldl_addOutput_of_unrepeated {os : List Json} (acc : List Json) (h : Unrepeated (acc ++ os)) :
    os.foldl addOutput acc = acc ++ os := by
  induction os generalizing acc with
  | nil => rw [List.foldl_nil, List.append_nil]
  | cons o os ih =>
    have hsplit : acc ++ o :: os = acc ++ [o] ++ os := by rw [List.append_assoc]; rfl
    rw [hsplit] at h ⊢
    have hnew := (unrepeated_concat_iff.mp (List.pairwise_append.mp h).1).2
    rw [List.foldl_cons, addOutput, if_neg (Bool.eq_false_iff.mp hnew), ih _ h]

theorem foldl_addOutput_of_among {acc os : List Json} (h : ∀ o ∈ os, isAmong acc o = true) :
    os.foldl addOutput acc = acc := by
  induction os with
  | nil => rfl
  | cons o os ih =>
    obtain ⟨ho, hrest⟩ := List.forall_mem_cons.mp h
    rw [List.foldl_cons, addOutput, if_pos ho, ih hrest]

theorem subset_addOutput (os : List Json) (o : Json) : os ⊆ addOutput os o := by
  unfold addOutput
  split
  · exact List.Subset.refl os
  · exact List.subset_append_left os [o]

theorem text_mem_addOutput (os : List Json) (t : Text) : .text t ∈ addOutput os (.text t) := by
  unfold addOutput
  split
  · next hamong => exact isAmong_text_iff.mp hamong
  · exact List.mem_append_right os (List.mem_singleton_self _)

/-- A text that is among the outputs before, or is added to them, is among them afterwards. -/
theorem text_mem_foldl_addOutput {acc os : List Json} {t : Text} (h : .text t ∈ acc ∨ .text t ∈ os) :
    .text t ∈ os.foldl addOutput acc := by
  induction os generalizing acc with
  | nil => exact h.resolve_right List.not_mem_nil
  | cons o os ih =>
    refine ih ?_
    rcases h with hacc | hmem
    · exact .inl (subset_addOutput acc o hacc)
    · rcases List.mem_cons.mp hmem with rfl | hmem
      · exact .inl (text_mem_addOutput acc t)
      · exact .inr hmem

theorem complete_mergeOutputs (asked : Option Json) (needed : List Text) :
    Complete needed (mergeOutputs asked needed) where
  unrepeated := unrepeated_foldl .nil _
  covered _ ht := text_mem_foldl_addOutput (.inr (List.mem_append_right _ (List.mem_map_of_mem ht)))

/-- Complete outputs stay as they are. -/
theorem mergeOutputs_of_complete {needed : List Text} {os : List Json} (h : Complete needed os) :
    mergeOutputs (some (.list os)) needed = os := by
  have hasked : ((some (Json.list os)).bind items?).getD [] = os := rfl
  have hneeded : ∀ o ∈ needed.map Json.text, isAmong os o = true := by
    intro o ho
    obtain ⟨t, ht, rfl⟩ := List.mem_map.mp ho
    exact isAmong_text_iff.mpr (h.covered t ht)
  have hkept : os.foldl addOutput [] = os := foldl_addOutput_of_unrepeated [] h.unrepeated
  rw [mergeOutputs, hasked, List.foldl_append, hkept, foldl_addOutput_of_among hneeded]

/-! ## Augmenting twice -/

theorem wildcard_ne_wholeFile : wildcard ≠ wholeFile := by decide

theorem tableAt_put_self (t : Table Json) (k : Text) (entries : Table Json) :
    tableAt (t.put k (.object entries)) k = entries := by
  rw [tableAt, Table.get?_put_self]
  rfl

theorem tableAt_of_get? {t entries : Table Json} {k : Text} (h : t.get? k = some (.object entries)) :
    tableAt t k = entries := by
  rw [tableAt, h]
  rfl

/-- The outputs of one file pattern that are asked for are complete, of the contracts and of the file. -/
def FileSettled (t : Table Json) : Prop :=
  ∃ contract file, t.get? wildcard = some (.list contract) ∧ Complete contractOutputs contract ∧
    t.get? wholeFile = some (.list file) ∧ Complete fileOutputs file

/-- Settings that ask for everything that is needed, and for no output twice. -/
def Settled (settings : Table Json) : Prop :=
  ∃ selection files : Table Json, settings.get? selectionKey = some (.object selection) ∧
    selection.get? wildcard = some (.object files) ∧ FileSettled files

theorem get?_augmentFile_wildcard (t : Table Json) : (augmentFile t).get? wildcard =
    some (.list (mergeOutputs (t.get? wildcard) contractOutputs)) := by
  rw [augmentFile, Table.get?_put_of_ne wildcard_ne_wholeFile, Table.get?_put_self]

theorem get?_augmentFile_wholeFile (t : Table Json) : (augmentFile t).get? wholeFile =
    some (.list (mergeOutputs (t.get? wholeFile) fileOutputs)) := by
  rw [augmentFile, Table.get?_put_self, Table.get?_put_of_ne wildcard_ne_wholeFile.symm]

theorem fileSettled_augmentFile (t : Table Json) : FileSettled (augmentFile t) :=
  ⟨_, _, get?_augmentFile_wildcard t, complete_mergeOutputs _ _, get?_augmentFile_wholeFile t,
    complete_mergeOutputs _ _⟩

theorem settled_augment (settings : Table Json) : Settled (augment settings) :=
  ⟨_, _, Table.get?_put_self settings selectionKey _, Table.get?_put_self _ wildcard _, fileSettled_augmentFile _⟩

/-- Both lists of outputs are found, and neither grows. -/
theorem augmentFile_of_settled {t : Table Json} (h : FileSettled t) : augmentFile t = t := by
  obtain ⟨contract, file, hcontract, hall, hfile, hall'⟩ := h
  have hfirst : t.put wildcard (.list (mergeOutputs (t.get? wildcard) contractOutputs)) = t := by
    rw [hcontract, mergeOutputs_of_complete hall, Table.put_of_get? hcontract]
  rw [augmentFile, hfirst, hfile, mergeOutputs_of_complete hall', Table.put_of_get? hfile]

theorem augment_of_settled {settings : Table Json} (h : Settled settings) : augment settings = settings := by
  obtain ⟨selection, files, hselection, hfiles, hsettled⟩ := h
  rw [augment, tableAt_of_get? hselection, augmentSelection, tableAt_of_get? hfiles,
    augmentFile_of_settled hsettled, Table.put_of_get? hfiles, Table.put_of_get? hselection]

/-- **Augmenting augmented settings changes nothing.** -/
theorem augment_augment (settings : Table Json) : augment (augment settings) = augment settings :=
  augment_of_settled (settled_augment settings)

/-- **Augmenting settles settings.** Augmented settings, whether given or left out, have the same text when they are
augmented again; and the settings that augmenting leaves as they are are those that ask for everything that is
needed, and for no output twice. -/
theorem augment_settles (given : Option (Table Json)) :
    (Json.object (augmentGiven (some (augmentGiven given)))).render = (Json.object (augmentGiven given)).render ∧
      ∀ settings, augmentGiven (some settings) = settings ↔ Settled settings := by
  refine ⟨congrArg (fun t => (Json.object t).render) (augment_augment _), fun settings => ⟨fun h => ?_, ?_⟩⟩
  · rw [← h]
    exact settled_augment settings
  · exact augment_of_settled

/-! ## Numbers that are not finite -/

theorem mem_addOutput {os : List Json} {o x : Json} (h : x ∈ addOutput os o) : x ∈ os ∨ x = o := by
  unfold addOutput at h
  split at h
  · exact .inl h
  · exact (List.mem_append.mp h).imp id List.mem_singleton.mp

theorem mem_foldl_addOutput {acc os : List Json} {x : Json} (h : x ∈ os.foldl addOutput acc) :
    x ∈ acc ∨ x ∈ os := by
  induction os generalizing acc with
  | nil => exact .inl h
  | cons o os ih =>
    rcases ih h with hmem | hmem
    · rcases mem_addOutput hmem with hacc | rfl
      · exact .inl hacc
      · exact .inr List.mem_cons_self
    · exact .inr (List.mem_cons_of_mem o hmem)

theorem finite_mergeOutputs {asked : Option Json} (h : ∀ j, asked = some j → j.Finite) (needed : List Text) :
    Finite (.list (mergeOutputs asked needed)) := by
  refine finite_list_iff.mpr fun x hx => ?_
  rcases mem_foldl_addOutput hx with hmem | hmem
  · exact absurd hmem List.not_mem_nil
  rcases List.mem_append.mp hmem with hasked | hneeded
  · cases asked with
    | none => exact absurd hasked List.not_mem_nil
    | some j =>
      cases j with
      | list items => exact finite_list_iff.mp (h _ rfl) x hasked
      | _ => exact absurd hasked List.not_mem_nil
  · obtain ⟨t, -, rfl⟩ := List.mem_map.mp hneeded
    rfl

theorem finite_tableAt {t : Table Json} (h : Finite (.object t)) (k : Text) : Finite (.object (tableAt t k)) := by
  rcases tableAt_cases t k with hempty | hfound
  · rw [hempty]
    rfl
  · exact h.of_get? hfound

theorem finite_augmentFile {t : Table Json} (h : Finite (.object t)) : Finite (.object (augmentFile t)) := by
  have hfirst := h.put wildcard
    (finite_mergeOutputs (fun j hj => h.of_get? (k := wildcard) hj) contractOutputs)
  exact hfirst.put wholeFile (finite_mergeOutputs (fun j hj => hfirst.of_get? hj) fileOutputs)

/-- Augmenting brings in no number that is not finite. -/
theorem finite_augment {settings : Table Json} (h : Finite (.object settings)) :
    Finite (.object (augment settings)) := by
  have hselection := finite_tableAt h selectionKey
  exact h.put selectionKey (hselection.put wildcard (finite_augmentFile (finite_tableAt hselection wildcard)))

end Settings

end SolidityBuild
