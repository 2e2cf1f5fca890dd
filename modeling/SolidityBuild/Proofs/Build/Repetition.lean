import SolidityBuild.Proofs.Build.AtMostOnce
import SolidityBuild.Proofs.Compilation.Refusals

/-!
Calls that repeat a compilation. A call whose document is, up to the order of keys, that of an earlier call
that was answered, finds this answer in the store, read back as it was given; so what it makes of it differs
from what the earlier call made of it by the order of keys and by its own version only.
-/

set_option autoImplicit false

namespace SolidityBuild

open Json

/-! ## The documents of calls -/

namespace CompileRequest

theorem document_congr {r r' : CompileRequest} (h : r.toJson = r'.toJson) : r.document = r'.document := by
  unfold document
  rw [h]

end CompileRequest

/-! ## Answers that are found again -/

namespace Call

/-- Two calls of which the second repeats the first: it selects the same, uses the default analysis and the
same extractor, sends a document that is equal up to the order of keys, and asks for remappings as null or as
a list of texts, or not at all. -/
structure Repeats (c c' : Call) : Prop where
  selection : c.selection = c'.selection
  analyzer : c.post.analyzer = some MergedReport.analyze
  post : c.post = c'.post
  sent : Reordered c.submission.request.toJson c'.submission.request.toJson
  remappings : Bundle.IsPlain (Bundle.askedRemappings c'.submission.request.entries)

variable {c c' : Call} {w : Workshop} {k : Text} {r : CallRecord}

/-- What a call got from the compiler is in the store afterwards, and is what its outcome is made of. -/
theorem Course.exists_answer (hr : Course c w k r) (h : r.answers ≠ []) : ∃ answer : Answer,
    r.after.memory.read (Cache.outputEntry k) = .ok answer.json ∧ r.outcome = c.bundle answer.json := by
  cases hr with
  | held _ => exact absurd rfl h
  | failed _ _ _ => exact absurd rfl h
  | @answered _ answer _ _ _ => exact ⟨answer, MemoryStore.read_put_self _ _ answer.wellFormed, rfl⟩

/-- A call that finds an answer does not invoke the compiler; its outcome is made of this answer. -/
theorem Course.of_read {answer : Json} (hr : Course c w k r)
    (h : w.memory.read (Cache.outputEntry k) = .ok answer) :
    r.invocations = [] ∧ r.outcome = c.bundle answer := by
  cases hr with
  | held held =>
    rw [held] at h
    rw [Except.ok.inj h]
    exact ⟨rfl, rfl⟩
  | failed fresh _ _ =>
    rw [MemoryStore.has_of_read h] at fresh
    exact nomatch fresh
  | answered fresh _ _ =>
    rw [MemoryStore.has_of_read h] at fresh
    exact nomatch fresh

/-- A compiler that never fails answers every call whose key is not answered. -/
theorem Course.answers_ne_nil (hr : Course c w k r) (hfresh : w.memory.has (Cache.outputEntry k) = false)
    (hcompiler : ∀ version request, ∃ answer, c.compiler version request = .ok answer) : r.answers ≠ [] := by
  cases hr with
  | held held =>
    rw [MemoryStore.has_of_read held] at hfresh
    exact nomatch hfresh
  | @failed request _ _ _ outcome =>
    obtain ⟨answer, hanswer⟩ := hcompiler c.version request
    rw [hanswer] at outcome
    exact nomatch outcome
  | answered _ _ _ => exact List.cons_ne_nil _ _

theorem Repeats.documents_alike (h : c.Repeats c') : Alike Text.Scalar c.document c'.document :=
  CompileRequest.document_alike Text.scalar_ofString ⟨c.wellFormed_sent, c'.wellFormed_sent, h.sent⟩

theorem Repeats.key_eq (h : c.Repeats c') : c.key = c'.key :=
  Cache.key_eq_of_reordered c.wellFormed_document h.documents_alike.reordered

/-- One answer is made into matching outcomes by a call and one that repeats it. -/
theorem Repeats.bundle_matches (h : c.Repeats c') (answer : Answer) :
    Bundle.OutcomeMatches c'.version (c.bundle answer.json) (c'.bundle answer.json) := by
  obtain ⟨extractor, hpost⟩ : ∃ extractor, c.post = ⟨some MergedReport.analyze, extractor⟩ := by
    rw [← h.analyzer]
    exact ⟨c.post.extractor, rfl⟩
  have hplain := h.remappings
  rw [← CompileRequest.askedRemappings_document] at hplain
  unfold bundle
  rw [← h.post, hpost, ← h.selection]
  exact Bundle.normalize_matches answer.wellFormed h.documents_alike
    c.submission.request.sources_document c'.submission.request.sources_document hplain _ _ _ _

/-- Texts that are the same are texts of the same document. -/
theorem sent_eq_of_render_eq (h : c.submission.request.toJson.render = c'.submission.request.toJson.render) :
    c.submission.request.toJson = c'.submission.request.toJson := by
  have hread := parse_render (c.wellFormed_sent.mono fun _ => Text.Scalar.pairFree)
  rw [h, parse_render (c'.wellFormed_sent.mono fun _ => Text.Scalar.pairFree)] at hread
  exact (Except.ok.inj hread).symm

theorem Repeats.bundle_eq (h : c.Repeats c')
    (hsent : c.submission.request.toJson = c'.submission.request.toJson) (hversion : c.version = c'.version)
    (answer : Json) : c.bundle answer = c'.bundle answer := by
  unfold bundle document
  rw [hversion, h.selection, h.post, CompileRequest.document_congr hsent]

end Call

/-! ## Sessions -/

namespace Workshop

variable (w : Workshop)

/-- What is in the store stays there. -/
theorem extends_append (calls more : List Call) :
    (w.emptied.after calls).memory.Extends (w.emptied.after (calls ++ more)).memory := by
  induction more using List.reverseRecOn with
  | nil =>
    rw [List.append_nil]
    exact .refl _
  | append_singleton more c ih =>
    obtain ⟨k, -, hcourse⟩ := w.course_after (calls ++ more) c
    rw [← List.append_assoc, after_concat]
    exact ih.trans hcourse.extends

/-- **A held answer is as good as the compilation that it replaces.** After any session in which the compiler
answered a call, a call that repeats it does not invoke the compiler; both build the same up to the order of
keys and the version, or fail with the same failure; and they build exactly the same if the texts of their
documents and their versions are the same. -/
theorem held_answer_matches_compilation (before between : List Call) {c c' : Call} (h : c.Repeats c')
    (hanswered : (c.run (w.emptied.after before)).answers ≠ []) :
    (c'.run (w.emptied.after (before ++ c :: between))).invocations = [] ∧
      Bundle.OutcomeMatches c'.version (c.run (w.emptied.after before)).outcome
        (c'.run (w.emptied.after (before ++ c :: between))).outcome ∧
      (c.submission.request.toJson.render = c'.submission.request.toJson.render → c.version = c'.version →
        (c.run (w.emptied.after before)).outcome =
          (c'.run (w.emptied.after (before ++ c :: between))).outcome) := by
  obtain ⟨k, hk, hcourse⟩ := w.course_after before c
  obtain ⟨answer, hstored, houtcome⟩ := hcourse.exists_answer hanswered
  obtain ⟨k', hk', hcourse'⟩ := w.course_after (before ++ c :: between) c'
  have hkk : k = k' := by
    rw [h.key_eq, hk'] at hk
    exact (Except.ok.inj hk).symm
  -- the answer is still there when the second call looks for it
  have hfound : (w.emptied.after (before ++ c :: between)).memory.read (Cache.outputEntry k') =
      .ok answer.json := by
    have hsplit : before ++ c :: between = (before ++ [c]) ++ between := by rw [List.append_assoc]; rfl
    rw [← after_concat, hkk] at hstored
    rw [hsplit]
    exact (w.extends_append (before ++ [c]) between).read hstored
  obtain ⟨hnone, houtcome'⟩ := hcourse'.of_read hfound
  refine ⟨hnone, ?_, ?_⟩
  · rw [houtcome, houtcome']
    exact h.bundle_matches answer
  · intro hrender hversion
    rw [houtcome, houtcome']
    exact h.bundle_eq (Call.sent_eq_of_render_eq hrender) hversion answer.json

end Workshop

/-! ## Settings in two orders -/

/-- An answer that reports nothing. -/
def emptyAnswer : Answer where
  toLoadedObject := .ofEntries [] .empty
  scalar := Text.scalar_ofString "\x7b\x7d"

/-- Two settings in the order in which they are given. -/
def switches (k l : String) : Table Json := [(k, .bool true), (l, .bool true)]

theorem wellFormed_switches {k l : String} (h : (k : Text) ≠ l) :
    WellFormed Text.Scalar (.object (switches k l)) := by
  have hlast := WellFormed.singleton (Text.scalar_ofString l) (WellFormed.bool true)
  refine hlast.cons ?_ (Text.scalar_ofString k) (.bool true)
  intro hmem
  exact h (List.mem_singleton.mp hmem)

theorem wellFormed_settings {settings : Table Json} (h : WellFormed Text.Scalar (.object settings)) :
    WellFormed Text.Scalar (.object [("settings", .object settings), ("sources", .object [])]) := by
  have hsources := WellFormed.singleton (Text.scalar_ofString "sources") WellFormed.empty
  refine hsources.cons ?_ (Text.scalar_ofString "settings") h
  show Text.ofString "settings" ∉ [Text.ofString "sources"]
  decide

/-- A request without sources under given settings. -/
def settingsSubmission (settings : Table Json) (h : WellFormed Text.Scalar (.object settings)) :
    Submission where
  source := .ofEntries [("settings", .object settings), ("sources", .object [])]
    ((wellFormed_settings h).mono fun _ => Text.Scalar.pairFree)
  scalar := (wellFormed_settings h).holds_of_mem_texts
  request := ⟨"Solidity", [], settings, []⟩
  decoded := rfl

/-- A call for such a request, with a compiler that answers everything with the empty answer. -/
def switchesCall (k l : String) (h : (k : Text) ≠ l) (version : Text) : Call :=
  ⟨settingsSubmission (switches k l) (wellFormed_switches h), version, .all, .default,
    fun _ _ => .ok emptyAnswer⟩

/-- A workshop without files and programs. -/
def bareWorkshop : Workshop := ⟨⟨[], []⟩, [], ⟨[], [], [], [], [], fun _ _ => .notFound, []⟩⟩

theorem sent_switchesCall (k l : String) (h : (k : Text) ≠ l) (version : Text) :
    (switchesCall k l h version).submission.request.toJson =
      .object [("language", .text "Solidity"), ("sources", .object []),
        ("settings", .object (switches k l))] := rfl

theorem switches_reordered (k l : String) :
    Reordered (.object (switches k l)) (.object (switches l k)) :=
  .object rfl (List.forall₂_same.mpr fun j _ => .refl j) (.swap _ _ _)

theorem switchesCall_repeats {k l : String} (h : (k : Text) ≠ l) (hk : ("remappings" : Text) ≠ k)
    (hl : ("remappings" : Text) ≠ l) (v v' : Text) :
    (switchesCall k l h v).Repeats (switchesCall l k h.symm v') where
  selection := rfl
  analyzer := rfl
  post := rfl
  sent := by
    rw [sent_switchesCall, sent_switchesCall]
    exact .of_forall₂ (.cons ⟨rfl, .refl _⟩
      (.cons ⟨rfl, .refl _⟩ (.cons ⟨rfl, switches_reordered k l⟩ .nil)))
  remappings := by
    left
    show (Table.get? (switches l k) "remappings").getD .null = _
    rw [switches, Table.get?_cons_of_ne hl, Table.get?_cons_of_ne hk]
    rfl

/-- A call with two settings and, under another version, one with the same settings in the other order. -/
theorem Workshop.held_answer_matches_reordered_settings :
    let c := switchesCall "viaIR" "debug" (by decide) "0.8.19"
    let c' := switchesCall "debug" "viaIR" (by decide) "0.8.20"
    c.Repeats c' ∧ (c.run (bareWorkshop.emptied.after [])).answers ≠ [] ∧
      (c'.run (bareWorkshop.emptied.after ([] ++ c :: []))).invocations = [] ∧
      Bundle.OutcomeMatches c'.version (c.run (bareWorkshop.emptied.after [])).outcome
        (c'.run (bareWorkshop.emptied.after ([] ++ c :: []))).outcome := by
  intro c c'
  have hrepeats : c.Repeats c' := switchesCall_repeats (by decide) (by decide) (by decide) _ _
  have hanswered : (c.run (bareWorkshop.emptied.after [])).answers ≠ [] := by
    obtain ⟨k, -, hcourse⟩ := bareWorkshop.course_after [] c
    exact hcourse.answers_ne_nil rfl fun _ _ => ⟨emptyAnswer, rfl⟩
  have hmatches := bareWorkshop.held_answer_matches_compilation [] [] hrepeats hanswered
  exact ⟨hrepeats, hanswered, hmatches.1, hmatches.2.1⟩

end SolidityBuild
