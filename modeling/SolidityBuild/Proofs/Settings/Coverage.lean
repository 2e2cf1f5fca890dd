import SolidityBuild.Proofs.Settings

/-!
What augmented settings ask for, level by level. Nothing that is asked for is lost but repetitions: every key keeps
its place and, but for the keys that lead to the outputs, its value, and the outputs under those are the asked ones,
each once, followed by the needed ones that are missing. An output is dropped if it equals an earlier one, whether
that one was kept or not; adding the outputs one by one compares it with the kept ones alone, which comes to the same
because the looser equality is an equivalence.
-/

set_option autoImplicit false

namespace SolidityBuild

namespace Settings

open Json

/-! ## Outputs without repetitions -/

/-- The outputs that are not loosely equal to an earlier one. -/
def firsts (os : List Json) : List Json := (os.zipIdx.filter fun e => !isAmong (os.take e.2) e.1).map Prod.fst

/-- The needed outputs that are not among the given ones. -/
def missing (needed : List Text) (os : List Json) : List Json :=
  (needed.map Json.text).filter fun o => !isAmong os o

theorem isAmong_append (os os' : List Json) (o : Json) :
    isAmong (os ++ os') o = (isAmong os o || isAmong os' o) := List.any_append

theorem isAmong_singleton (x o : Json) : isAmong [x] o = x.looseEq o := Bool.or_false _

theorem firsts_concat (os : List Json) (o : Json) :
    firsts (os ++ [o]) = firsts os ++ if isAmong os o then [] else [o] := by
  have hold : os.zipIdx.filter (fun e => !isAmong ((os ++ [o]).take e.2) e.1) =
      os.zipIdx.filter fun e => !isAmong (os.take e.2) e.1 := by
    refine List.filter_congr fun e he => ?_
    rw [List.take_append_of_le_length (List.snd_lt_of_mem_zipIdx he).le]
  rw [firsts, List.zipIdx_append, List.filter_append, List.map_append, hold, List.zipIdx_singleton,
    List.filter_singleton, Nat.zero_add, List.take_left]
  cases isAmong os o <;> rfl

theorem missing_concat (needed : List Text) (t : Text) (os : List Json) :
    missing (needed ++ [t]) os = missing needed os ++ if isAmong os (.text t) then [] else [.text t] := by
  rw [missing, List.map_append, List.filter_append, List.map_singleton, List.filter_singleton, missing]
  cases isAmong os (.text t) <;> rfl

/-- What equals some output equals one that is kept. -/
theorem isAmong_firsts {os : List Json} (hos : ∀ x ∈ os, KeysDistinct x) {o : Json} (ho : KeysDistinct o) :
    isAmong (firsts os) o = isAmong os o := by
  induction os using List.reverseRecOn with
  | nil => rfl
  | append_singleton os x ih =>
    have hx : KeysDistinct x := hos x (List.mem_append_right os (List.mem_singleton_self x))
    have hold : ∀ y ∈ os, KeysDistinct y := fun y hy => hos y (List.mem_append_left [x] hy)
    rw [firsts_concat, isAmong_append, isAmong_append, ih hold, isAmong_singleton]
    cases hamong : isAmong os x with
    | false => rw [if_neg Bool.false_ne_true, isAmong_singleton]
    | true =>
      -- the dropped output equals an earlier one, which then equals whatever the dropped one equals
      obtain ⟨y, hy, hyx⟩ := List.any_eq_true.mp hamong
      have hcovered : x.looseEq o = true → isAmong os o = true := fun hxo =>
        List.any_eq_true.mpr ⟨y, hy, looseEq_trans (hold y hy) hx ho hyx hxo⟩
      rw [if_pos rfl]
      cases hxo : x.looseEq o with
      | false => rfl
      | true => rw [hcovered hxo]; rfl

/-- **Adding outputs one by one keeps those that equal no earlier one.** -/
theorem foldl_addOutput_eq_firsts {os : List Json} (hos : ∀ x ∈ os, KeysDistinct x) :
    os.foldl addOutput [] = firsts os := by
  induction os using List.reverseRecOn with
  | nil => rfl
  | append_singleton os o ih =>
    have ho : KeysDistinct o := hos o (List.mem_append_right os (List.mem_singleton_self o))
    have hold : ∀ y ∈ os, KeysDistinct y := fun y hy => hos y (List.mem_append_left [o] hy)
    rw [List.foldl_concat, ih hold, addOutput, isAmong_firsts hold ho, firsts_concat]
    split
    · rw [List.append_nil]
    · rfl

theorem firsts_append_needed (os : List Json) {needed : List Text} (hneeded : needed.Nodup) :
    firsts (os ++ needed.map Json.text) = firsts os ++ missing needed os := by
  induction needed using List.reverseRecOn with
  | nil => rw [List.map_nil, List.append_nil, missing, List.map_nil, List.filter_nil, List.append_nil]
  | append_singleton needed t ih =>
    obtain ⟨hinit, -, hnew⟩ := List.nodup_append.mp hneeded
    have hother : isAmong (needed.map Json.text) (.text t) = false := by
      rw [Bool.eq_false_iff, ne_eq, isAmong_text_iff, List.mem_map]
      rintro ⟨t', ht', hsame⟩
      exact hnew t' ht' t (List.mem_singleton_self t) (Json.text.inj hsame)
    rw [List.map_append, List.map_singleton, ← List.append_assoc, firsts_concat, ih hinit, missing_concat,
      isAmong_append, hother, Bool.or_false, List.append_assoc]

/-- The outputs that are asked for under a key; only a list asks for any. -/
def outputsAt (t : Table Json) (key : Text) : List Json := ((t.get? key).bind items?).getD []

theorem mergeOutputs_eq {t : Table Json} {key : Text} (ht : ∀ o ∈ outputsAt t key, KeysDistinct o)
    {needed : List Text} (hneeded : needed.Nodup) :
    mergeOutputs (t.get? key) needed =
      firsts (outputsAt t key) ++ missing needed (firsts (outputsAt t key)) := by
  have hmissing : missing needed (firsts (outputsAt t key)) = missing needed (outputsAt t key) := by
    refine List.filter_congr fun o ho => ?_
    obtain ⟨t', -, rfl⟩ := List.mem_map.mp ho
    rw [isAmong_firsts ht (.text t')]
  have hall : ∀ o ∈ outputsAt t key ++ needed.map Json.text, KeysDistinct o := by
    intro o ho
    rcases List.mem_append.mp ho with hasked | hmem
    · exact ht o hasked
    · obtain ⟨t', -, rfl⟩ := List.mem_map.mp hmem
      exact .text t'
  rw [hmissing, ← firsts_append_needed _ hneeded]
  exact foldl_addOutput_eq_firsts hall

/-! ## Parts of settings -/

theorem keysDistinct_tableAt {t : Table Json} (h : KeysDistinct (.object t)) (k : Text) :
    KeysDistinct (.object (tableAt t k)) := by
  rcases tableAt_cases t k with hempty | hfound
  · rw [hempty]
    exact .object List.nodup_nil fun _ he => absurd he List.not_mem_nil
  · exact (keysDistinct_object_iff.mp h).2 _ (Table.mem_of_get? hfound)

theorem keysDistinct_of_mem_outputsAt {t : Table Json} (h : KeysDistinct (.object t)) {key : Text} :
    ∀ o ∈ outputsAt t key, KeysDistinct o := by
  unfold outputsAt
  cases hget : t.get? key with
  | none => exact fun _ ho => absurd ho List.not_mem_nil
  | some j =>
    cases j with
    | list items => exact keysDistinct_list_iff.mp ((keysDistinct_object_iff.mp h).2 _ (Table.mem_of_get? hget))
    | _ => exact fun _ ho => absurd ho List.not_mem_nil

theorem changedAt_augmentFile (t : Table Json) : t.ChangedAt (augmentFile t) [wildcard, wholeFile] :=
  (Table.changedAt_put t wildcard _).trans (Table.changedAt_put _ wholeFile _) (by decide)

/-- The outputs that are needed under each key. -/
def neededOutputs : List (Text × List Text) := [(wildcard, contractOutputs), (wholeFile, fileOutputs)]

theorem get?_augmentFile {t : Table Json} {e : Text × List Text} (he : e ∈ neededOutputs) :
    (augmentFile t).get? e.1 = some (.list (mergeOutputs (t.get? e.1) e.2)) := by
  simp only [neededOutputs, List.mem_cons, List.not_mem_nil, or_false] at he
  rcases he with rfl | rfl
  · exact get?_augmentFile_wildcard t
  · exact get?_augmentFile_wholeFile t

theorem nodup_of_mem_neededOutputs : ∀ e ∈ neededOutputs, e.2.Nodup := by decide

/-- **Augmenting loses nothing and asks for everything.** At each of the three levels the keys keep their places, new
ones follow, and all values but those that lead to the outputs stay as they are. The outputs of every contract are the
asked ones without those that equal an earlier one, followed by the needed ones that are not among these; and so are
those of every file. So none of them equals another, and every needed one is there. -/
theorem augment_keeps_and_covers (given : Option (Table Json)) (h : KeysDistinct (.object (given.getD []))) :
    let asked := given.getD []
    let askedSelection := tableAt asked selectionKey
    let askedFiles := tableAt askedSelection wildcard
    ∃ selection files : Table Json,
      asked.ChangedAt (augmentGiven given) [selectionKey] ∧
      (augmentGiven given).get? selectionKey = some (.object selection) ∧
      askedSelection.ChangedAt selection [wildcard] ∧ selection.get? wildcard = some (.object files) ∧
      askedFiles.ChangedAt files [wildcard, wholeFile] ∧
      ∀ e ∈ neededOutputs, ∃ outputs, files.get? e.1 = some (.list outputs) ∧
        outputs = firsts (outputsAt askedFiles e.1) ++ missing e.2 (firsts (outputsAt askedFiles e.1)) ∧
        Complete e.2 outputs := by
  intro asked askedSelection askedFiles
  have hfiles : KeysDistinct (.object askedFiles) := keysDistinct_tableAt (keysDistinct_tableAt h _) _
  refine ⟨augmentSelection askedSelection, augmentFile askedFiles, Table.changedAt_put asked selectionKey _,
    Table.get?_put_self asked selectionKey _, Table.changedAt_put askedSelection wildcard _,
    Table.get?_put_self askedSelection wildcard _, changedAt_augmentFile askedFiles, fun e he => ?_⟩
  exact ⟨_, get?_augmentFile he,
    mergeOutputs_eq (keysDistinct_of_mem_outputsAt hfiles) (nodup_of_mem_neededOutputs e he),
    complete_mergeOutputs _ _⟩

/-- Settings that ask for some outputs twice, once as another kind of number and once inside a list. -/
def repeatingSettings : Table Json :=
  [("optimizer", .object [("enabled", .bool true)]),
    ("outputSelection", .object
      [("a.sol", .null),
        ("*", .object
          [("A", .list [.text "ir"]),
            ("*", .list [.int 1, .bool true, .list [.bool false], .text "abi", .list [.int 0], .text "abi"])])]),
    ("remappings", .null)]

/-- The first of equal outputs stays, the needed ones that are missing follow, and the key of whole files is new. -/
theorem augment_keeps_and_covers_repeatingSettings :
    KeysDistinct (.object ((some repeatingSettings).getD [])) ∧
    (augmentGiven (some repeatingSettings)).keys = ["optimizer", "outputSelection", "remappings"] ∧
    ∃ selection files : Table Json,
      (augmentGiven (some repeatingSettings)).get? "outputSelection" = some (.object selection) ∧
      selection.keys = ["a.sol", "*"] ∧ selection.get? "*" = some (.object files) ∧
      files.keys = ["A", "*", ""] ∧ files.get? "A" = some (.list [.text "ir"]) ∧
      files.get? "*" = some (.list [.int 1, .list [.bool false], .text "abi", .text "ast", .text "legacyAST",
        .text "evm.deployedBytecode.sourceMap", .text "evm.bytecode", .text "evm.deployedBytecode"]) := by
  have hdistinct : KeysDistinct (.object ((some repeatingSettings).getD [])) := by
    simp only [repeatingSettings, Option.getD_some, keysDistinct_object_iff, keysDistinct_list_iff,
      List.forall_mem_cons, List.not_mem_nil, false_implies, implies_true, and_true, KeysDistinct.null,
      KeysDistinct.bool, KeysDistinct.int, KeysDistinct.text]
    decide
  obtain ⟨selection, files, hkeys, hselection, hpatterns, hfiles, houtputs, hasked⟩ :=
    augment_keeps_and_covers (some repeatingSettings) hdistinct
  obtain ⟨outputs, hfound, heq, -⟩ := hasked (wildcard, contractOutputs) List.mem_cons_self
  refine ⟨hdistinct, hkeys.keys_eq, selection, files, hselection, hpatterns.keys_eq, hfiles, houtputs.keys_eq, ?_, ?_⟩
  · exact houtputs.get?_eq "A" (by decide)
  · rw [heq] at hfound
    exact hfound

end Settings

end SolidityBuild
