import SolidityBuild.Proofs.Version.Scanning
import Mathlib.Data.List.Infix

/-!
Long versions. What stands behind the first commit is dropped, and a leading letter is put in front if there is none.
The three numbers that select a compiler stand before the mark of the commit, which no number goes on with, so neither
of the two changes them; and there is nothing left to change, as the commit ends the text and the letter is there.

A commit that begins a text is none, as nothing stands before it. With a leading letter in front it would be one, which
is why such a text is left out where a version is put into its form twice.
-/

set_option autoImplicit false

namespace SolidityBuild

namespace Version

open Text (EndsRun)

variable {front : Bool} {c d : CodePoint} {p q s t version commit after : Text}

/-! ## Commits -/

/-- A commit with its mark stands behind the beginning `p` of a text: on the first line and, if this is where the
text begins, not at its very front. -/
structure CommitBehind (front : Bool) (s p : Text) : Prop where
  commit : ∃ c rest, s = p ++ (commitMark ++ c :: rest) ∧ isCommitPoint c = true
  behind : front = true → p ≠ []
  line : 10 ∉ p

theorem CommitBehind.of_points (hsplit : s = p ++ (commitMark ++ (commit ++ after))) (hne : commit ≠ [])
    (hpoints : ∀ c ∈ commit, isCommitPoint c = true) (hbehind : front = true → p ≠ []) (hline : 10 ∉ p) :
    CommitBehind front s p := by
  obtain ⟨c, commit, rfl⟩ := List.exists_cons_of_ne_nil hne
  exact ⟨⟨c, commit ++ after, hsplit, hpoints c List.mem_cons_self⟩, hbehind, hline⟩

theorem commit?_eq_some_iff : commit? t = some version ↔ ∃ commit after, t = commitMark ++ (commit ++ after) ∧
    commit ≠ [] ∧ (∀ c ∈ commit, isCommitPoint c = true) ∧ EndsRun isCommitPoint after ∧
    version = commitMark ++ commit := by
  rw [commit?]
  constructor
  · intro h
    obtain ⟨rest, hrest, htaken⟩ := Option.bind_eq_some_iff.mp h
    obtain rfl := Text.after?_eq_some_iff.mp hrest
    obtain ⟨commit, after, rfl, hpoints, hafter⟩ := Text.exists_run isCommitPoint rest
    rw [Text.takeWhile_run_append hpoints hafter] at htaken
    split at htaken
    · exact nomatch htaken
    · next hne =>
      cases htaken
      exact ⟨commit, after, rfl, hne, hpoints, hafter, rfl⟩
  · rintro ⟨commit, after, rfl, hne, hpoints, hafter, rfl⟩
    rw [Text.after?_eq_some_iff.mpr rfl, Option.bind_eq_bind, Option.bind_some, Text.takeWhile_run_append hpoints hafter]
    split
    · exact absurd rfl hne
    · rfl

theorem commit?_eq_none_iff : commit? t = none ↔ ¬ CommitBehind false t [] := by
  constructor
  · rintro h ⟨⟨c, rest, rfl, hc⟩, -, -⟩
    obtain ⟨commit, after, rfl, hpoints, hafter⟩ := Text.exists_run isCommitPoint rest
    have hfound : commit? (commitMark ++ (c :: commit ++ after)) = some (commitMark ++ c :: commit) :=
      commit?_eq_some_iff.mpr
        ⟨c :: commit, after, rfl, List.cons_ne_nil c commit, List.forall_mem_cons.mpr ⟨hc, hpoints⟩, hafter, rfl⟩
    exact nomatch h.symm.trans hfound
  · intro h
    rw [Option.eq_none_iff_forall_ne_some]
    intro version hfound
    obtain ⟨commit, after, rfl, hne, hpoints, -, -⟩ := commit?_eq_some_iff.mp hfound
    exact h (.of_points rfl hne hpoints (fun h => nomatch h) List.not_mem_nil)

theorem commitBehind_cons :
    CommitBehind front (c :: s) (d :: p) ↔ d = c ∧ c ≠ 10 ∧ CommitBehind false s p := by
  constructor
  · rintro ⟨⟨e, rest, hsplit, he⟩, -, hline⟩
    obtain ⟨rfl, hrest⟩ := List.cons.inj hsplit
    obtain ⟨hc, hline⟩ := List.ne_and_not_mem_of_not_mem_cons hline
    exact ⟨rfl, Ne.symm hc, ⟨e, rest, hrest, he⟩, fun h => (nomatch h), hline⟩
  · rintro ⟨rfl, hc, ⟨e, rest, rfl, he⟩, -, hline⟩
    exact ⟨⟨e, rest, rfl, he⟩, fun _ => List.cons_ne_nil _ _, List.not_mem_cons_of_ne_of_not_mem (Ne.symm hc) hline⟩

theorem not_commitBehind_front : ¬ CommitBehind true s [] := fun h => h.behind rfl rfl

/-- The first commit of a text, with what stands before and after it. -/
structure FirstCommit (front : Bool) (s p commit after : Text) : Prop where
  split : s = p ++ (commitMark ++ (commit ++ after))
  behind : CommitBehind front s p
  points : ∀ c ∈ commit, isCommitPoint c = true
  ne_nil : commit ≠ []
  whole : EndsRun isCommitPoint after
  first : ∀ q, CommitBehind front s q → p.length ≤ q.length

/-- Whether a commit begins the text, as far as it counts. -/
theorem commitHere_eq_none_iff : (if front then none else commit? s) = none ↔ ¬ CommitBehind front s [] := by
  cases front with
  | true => exact iff_of_true rfl not_commitBehind_front
  | false => exact commit?_eq_none_iff

theorem throughCommit?_eq_none_iff : throughCommit? front s = none ↔ ∀ p, ¬ CommitBehind front s p := by
  induction s generalizing front with
  | nil =>
    refine iff_of_true rfl fun p h => ?_
    obtain ⟨c, rest, hsplit, -⟩ := h.commit
    exact nomatch (List.append_eq_nil_iff.mp (List.append_eq_nil_iff.mp hsplit.symm).2).1
  | cons c s ih =>
    rw [throughCommit?]
    constructor
    · intro h p hp
      split at h
      · exact nomatch h
      · next hhere =>
        cases p with
        | nil => exact commitHere_eq_none_iff.mp hhere hp
        | cons d p =>
          obtain ⟨-, hc, hp⟩ := commitBehind_cons.mp hp
          rw [if_neg hc, Option.map_eq_none_iff] at h
          exact ih.mp h p hp
    · intro h
      rw [commitHere_eq_none_iff.mpr (h [])]
      dsimp only
      split_ifs with hc
      · rfl
      · exact Option.map_eq_none_iff.mpr (ih.mpr fun p hp => h (c :: p) (commitBehind_cons.mpr ⟨rfl, hc, hp⟩))

theorem FirstCommit.cons (h : FirstCommit false s p commit after) (hc : c ≠ 10)
    (hhere : ¬ CommitBehind front (c :: s) []) : FirstCommit front (c :: s) (c :: p) commit after where
  split := by rw [h.split, List.cons_append]
  behind := commitBehind_cons.mpr ⟨rfl, hc, h.behind⟩
  points := h.points
  ne_nil := h.ne_nil
  whole := h.whole
  first q hq := by
    cases q with
    | nil => exact absurd hq hhere
    | cons d q => exact Nat.succ_le_succ (h.first q (commitBehind_cons.mp hq).2.2)

theorem FirstCommit.of_cons (h : FirstCommit front (c :: s) (c :: p) commit after) :
    FirstCommit false s p commit after where
  split := (List.cons.inj h.split).2
  behind := (commitBehind_cons.mp h.behind).2.2
  points := h.points
  ne_nil := h.ne_nil
  whole := h.whole
  first q hq := by
    have hc := (commitBehind_cons.mp h.behind).2.1
    exact Nat.le_of_succ_le_succ (h.first (c :: q) (commitBehind_cons.mpr ⟨rfl, hc, hq⟩))

theorem throughCommit?_eq_some_iff : throughCommit? front s = some version ↔
    ∃ p commit after, FirstCommit front s p commit after ∧ version = p ++ (commitMark ++ commit) := by
  constructor
  · intro h
    induction s generalizing front version with
    | nil => exact nomatch h
    | cons c s ih =>
      rw [throughCommit?] at h
      split at h
      · next hhere =>
        obtain rfl := Option.some.inj h
        split_ifs at hhere with hfront
        obtain ⟨commit, after, hsplit, hne, hpoints, hafter, rfl⟩ := commit?_eq_some_iff.mp hhere
        have hbehind : CommitBehind front (c :: s) [] :=
          .of_points hsplit hne hpoints (fun h => absurd h hfront) List.not_mem_nil
        exact ⟨[], commit, after, ⟨hsplit, hbehind, hpoints, hne, hafter, fun _ _ => Nat.zero_le _⟩, rfl⟩
      · next hhere =>
        split_ifs at h with hc
        obtain ⟨rest, hrest, rfl⟩ := Option.map_eq_some_iff.mp h
        obtain ⟨p, commit, after, hfirst, rfl⟩ := ih hrest
        exact ⟨c :: p, commit, after, hfirst.cons hc (commitHere_eq_none_iff.mp hhere), rfl⟩
  · rintro ⟨p, commit, after, h, rfl⟩
    induction p generalizing front s with
    | nil =>
      obtain rfl : front = false := Bool.eq_false_iff.mpr fun hfront => h.behind.behind hfront rfl
      have hhere : commit? s = some (commitMark ++ commit) :=
        commit?_eq_some_iff.mpr ⟨commit, after, h.split, h.ne_nil, h.points, h.whole, rfl⟩
      cases s with
      | nil => exact nomatch hhere
      | cons c s =>
        rw [throughCommit?, if_neg Bool.false_ne_true, hhere]
        rfl
    | cons c p ih =>
      have hhere : ¬ CommitBehind front s [] := fun hhere => absurd (h.first [] hhere) (Nat.not_succ_le_zero _)
      obtain rfl := h.split
      have hc := (commitBehind_cons.mp h.behind).2.1
      rw [List.cons_append] at hhere
      rw [List.cons_append, throughCommit?, commitHere_eq_none_iff.mpr hhere]
      dsimp only
      rw [if_neg hc]
      exact congrArg (Option.map (c :: ·)) (ih h.of_cons)

/-! ## The version proper -/

/-- The version proper of a text: what stands before its first commit, or all of it. -/
inductive Proper (s : Text) : Text → Prop where
  | cut {p : Text} (behind : CommitBehind true s p) (first : ∀ q, CommitBehind true s q → p.length ≤ q.length) :
      Proper s p
  | whole (none : ∀ q, ¬ CommitBehind true s q) : Proper s s

theorem CommitBehind.isPrefix (h : CommitBehind front s p) : p <+: s := by
  obtain ⟨c, rest, rfl, -⟩ := h.commit
  exact List.prefix_append p _

theorem Proper.unique (h : Proper s p) (h' : Proper s q) : p = q := by
  cases h with
  | whole none =>
    cases h' with
    | whole => rfl
    | cut behind => exact absurd behind (none q)
  | cut behind first =>
    cases h' with
    | whole none => exact absurd behind (none p)
    | cut behind' first' =>
      have hprefix := List.prefix_of_prefix_length_le behind.isPrefix behind'.isPrefix (first q behind')
      exact hprefix.eq_of_length_le (first' p behind)

theorem FirstCommit.proper (h : FirstCommit true s p commit after) : Proper s p := .cut h.behind h.first

theorem exists_proper (s : Text) : ∃ p, Proper s p := by
  cases hthrough : throughCommit? true s with
  | none => exact ⟨s, .whole (throughCommit?_eq_none_iff.mp hthrough)⟩
  | some version =>
    obtain ⟨p, commit, after, hfirst, -⟩ := throughCommit?_eq_some_iff.mp hthrough
    exact ⟨p, hfirst.proper⟩

/-! ## What is kept of a text -/

/-- What is kept of a long version: all of it up to the end of its first commit. -/
def kept (s : Text) : Text := (throughCommit? true s).getD s

theorem ofLong_eq (s : Text) :
    ofLong s = if (kept s).head? = some leadingLetter then kept s else leadingLetter :: kept s := rfl

/-- Nothing is dropped, or what stands behind the first commit. -/
theorem kept_cases (s : Text) :
    (kept s = s ∧ Proper s s) ∨
      ∃ p commit after, FirstCommit true s p commit after ∧ kept s = p ++ (commitMark ++ commit) := by
  rw [kept]
  cases hthrough : throughCommit? true s with
  | none => exact .inl ⟨rfl, .whole (throughCommit?_eq_none_iff.mp hthrough)⟩
  | some version =>
    obtain ⟨p, commit, after, hfirst, rfl⟩ := throughCommit?_eq_some_iff.mp hthrough
    exact .inr ⟨p, commit, after, hfirst, rfl⟩

theorem kept_isPrefix (s : Text) : kept s <+: s := by
  rcases kept_cases s with ⟨heq, -⟩ | ⟨p, commit, after, hfirst, heq⟩
  · rw [heq]
  · rw [heq, hfirst.split]
    exact ⟨after, by simp⟩

/-- What stands behind a commit may be taken away. -/
theorem FirstCommit.dropAfter (h : FirstCommit front s p commit after) :
    FirstCommit front (p ++ (commitMark ++ commit)) p commit [] where
  split := by rw [List.append_nil]
  behind := .of_points (by rw [List.append_nil]) h.ne_nil h.points h.behind.behind h.behind.line
  points := h.points
  ne_nil := h.ne_nil
  whole := Text.endsRun_nil
  first q hq := by
    obtain ⟨c, rest, hsplit, hc⟩ := hq.commit
    refine h.first q ⟨⟨c, rest ++ after, ?_, hc⟩, hq.behind, hq.line⟩
    have hs : s = (p ++ (commitMark ++ commit)) ++ after := by rw [h.split]; simp
    rw [hs, hsplit]
    simp

theorem kept_kept (s : Text) : kept (kept s) = kept s := by
  rcases kept_cases s with ⟨heq, -⟩ | ⟨p, commit, after, hfirst, heq⟩
  · rw [heq, heq]
  · have hthrough := throughCommit?_eq_some_iff.mpr ⟨p, commit, [], hfirst.dropAfter, rfl⟩
    rw [heq, kept, hthrough]
    rfl

/-- A code point in front makes no difference, but that a commit that begins the text would stand behind it. -/
theorem kept_cons (hs : ¬ commitMark <+: s) (hc : c ≠ 10) : kept (c :: s) = c :: kept s := by
  have hhere : commit? s = none := by
    refine commit?_eq_none_iff.mpr fun h => hs ?_
    obtain ⟨d, rest, rfl, -⟩ := h.commit
    exact List.prefix_append commitMark _
  have hfront : throughCommit? false s = throughCommit? true s := by
    cases s with
    | nil => rfl
    | cons d s => rw [throughCommit?, throughCommit?, if_pos rfl, if_neg Bool.false_ne_true, hhere]
  rw [kept, kept, throughCommit?, if_pos rfl, if_neg hc, hfront]
  cases throughCommit? true s <;> rfl

/-! ## The version to ask for -/

theorem head?_ofLong (s : Text) : (ofLong s).head? = some leadingLetter := by
  rw [ofLong_eq]
  split_ifs with hletter
  · exact hletter
  · rfl

theorem scan?_ofLong (s : Text) : scan? (ofLong s) = scan? (kept s) := by
  rw [ofLong_eq]
  split_ifs
  · rfl
  · exact scan?_cons isDecimal_leadingLetter _

/-- A number does not go on with the mark of a commit. -/
theorem endsNumber_commitMark (t : Text) : EndsNumber (commitMark ++ t) := Text.endsRun_cons.mpr (by decide)

/-- The three numbers of the version proper are those of the text and of what is kept of it. -/
theorem scan?_of_proper {m : Text} (hp : Proper s p) (h : scan? p = some m) :
    scan? s = some m ∧ scan? (kept s) = some m := by
  rcases kept_cases s with ⟨heq, hwhole⟩ | ⟨p', commit, after, hfirst, heq⟩
  · obtain rfl := hp.unique hwhole
    rw [heq]
    exact ⟨h, h⟩
  · obtain rfl := hp.unique hfirst.proper
    rw [heq, hfirst.split]
    exact ⟨scan?_append h (endsNumber_commitMark _), scan?_append h (endsNumber_commitMark _)⟩

theorem ofLong_ofLong (hs : ¬ commitMark <+: s) : ofLong (ofLong s) = ofLong s := by
  have hkept : kept (ofLong s) = ofLong s := by
    rw [ofLong_eq]
    split_ifs
    · exact kept_kept s
    · have hmark : ¬ commitMark <+: kept s := fun h => hs (h.trans (kept_isPrefix s))
      rw [kept_cons hmark (by decide), kept_kept]
  rw [ofLong_eq (ofLong s), hkept, if_pos (head?_ofLong s)]

/-- **Putting a long version into its form never changes which compiler is selected**: if three numbers stand in the
version proper, which is what stands before the first commit, they are the same ones as before. The form begins with
the leading letter; and to put the form into its form again changes nothing, unless the text began with the mark of a
commit. -/
theorem ofLong_selects_same (s : Text) :
    (ofLong s).head? = some leadingLetter ∧ (∃! p, Proper s p) ∧
    (∀ p, Proper s p → (∃ m, IsTriple m ∧ m <:+: p) → ∃ m, scan? (ofLong s) = some m ∧ scan? s = some m) ∧
    (¬ commitMark <+: s → ofLong (ofLong s) = ofLong s) := by
  obtain ⟨p, hp⟩ := exists_proper s
  refine ⟨head?_ofLong s, ⟨p, hp, fun q hq => hq.unique hp⟩, fun p hp ⟨m, hm, hinfix⟩ => ?_, ofLong_ofLong⟩
  cases hscan : scan? p with
  | none => exact absurd hinfix (scan?_eq_none_iff.mp hscan m hm)
  | some m =>
    obtain ⟨hwhole, hkept⟩ := scan?_of_proper hp hscan
    exact ⟨m, by rw [scan?_ofLong, hkept], hwhole⟩

/-- A long version with two commits and another version behind the first one. -/
def twiceCommitted : Text := "solc 0.8.20+commit.a1b2c3d4.Linux 0.4.1+commit.9"

theorem proper_twiceCommitted : Proper twiceCommitted "solc 0.8.20" := by
  have hsplit : twiceCommitted = Text.ofString "solc 0.8.20" ++
      (commitMark ++ (Text.ofString "a1b2c3d4" ++ Text.ofString ".Linux 0.4.1+commit.9")) := by decide
  have hpoints := List.all_eq_true.mp (show (Text.ofString "a1b2c3d4").all isCommitPoint = true by decide)
  refine .cut (.of_points hsplit (by decide) hpoints (fun _ => by decide) (by decide)) fun q hq => ?_
  by_contra hshort
  have hnone : ∀ n < 11, n ≠ 0 → commit? (twiceCommitted.drop n) = none := by decide
  have hlength : q.length ≠ 0 := fun h => hq.behind rfl (List.length_eq_zero_iff.mp h)
  obtain ⟨c, rest, hsplit, hc⟩ := hq.commit
  refine commit?_eq_none_iff.mp (hnone q.length (Nat.lt_of_not_le hshort) hlength) ?_
  rw [hsplit, List.drop_left]
  exact ⟨⟨c, rest, rfl, hc⟩, fun h => (nomatch h), List.not_mem_nil⟩

/-- Neither what is dropped nor the letter that is put in front makes a difference. -/
theorem ofLong_selects_same_of_twiceCommitted : Proper twiceCommitted "solc 0.8.20" ∧
    (∃ m, IsTriple m ∧ m <:+: Text.ofString "solc 0.8.20") ∧ ¬ commitMark <+: twiceCommitted ∧
    ofLong twiceCommitted = "vsolc 0.8.20+commit.a1b2c3d4" ∧
    scan? (ofLong twiceCommitted) = scan? twiceCommitted ∧
    ofLong (ofLong twiceCommitted) = ofLong twiceCommitted := by
  have hnumber : ∀ digits : Text, digits ≠ [] → digits.all CodePoint.isDecimal = true → IsNumber digits :=
    fun _ hne hdigits => ⟨hne, List.all_eq_true.mp hdigits⟩
  have htriple : ∃ m, IsTriple m ∧ m <:+: Text.ofString "solc 0.8.20" :=
    ⟨"0.8.20", ⟨"0", "8", "20", hnumber _ (by decide) (by decide), hnumber _ (by decide) (by decide),
      hnumber _ (by decide) (by decide), by decide⟩, by decide⟩
  have hmark : ¬ commitMark <+: twiceCommitted := by decide
  obtain ⟨-, -, hsame, hagain⟩ := ofLong_selects_same twiceCommitted
  obtain ⟨m, hlong, hwhole⟩ := hsame _ proper_twiceCommitted htriple
  exact ⟨proper_twiceCommitted, htriple, hmark, by decide, hlong.trans hwhole.symm, hagain hmark⟩

end Version

end SolidityBuild
