import SolidityBuild.Proofs.Build.StoreInvariant

/-!
When a call invokes the compiler. A key is answered in the store exactly if the compiler has answered in
some call with that key, and a call invokes the compiler exactly if its key is not answered. So no key is
answered twice, and a key whose invocations failed so far is tried again.
-/

set_option autoImplicit false

namespace SolidityBuild

/-- What the compiler answered in a call. -/
def CallRecord.answers (r : CallRecord) : List Answer := r.invocations.filterMap fun i => i.outcome.toOption

/-- What the compiler answered in the calls of a session with a given key. -/
def Workshop.answersFor (w : Workshop) (calls : List Call) (key : Except Text.SurrogateFault Text) :
    List Answer :=
  ((w.history calls).filter fun r => r.call.key = key).flatMap CallRecord.answers

/-! ## One call -/

namespace Call.Course

variable {c : Call} {w : Workshop} {k : Text} {r : CallRecord}

/-- The compiler is invoked exactly if the key is not answered. -/
theorem invokes_iff (hr : Course c w k r) :
    r.invocations ≠ [] ↔ w.memory.has (Cache.outputEntry k) = false := by
  cases hr with
  | held held =>
    rw [MemoryStore.has_of_read held]
    simp only [ne_eq, not_true_eq_false, Bool.true_eq_false]
  | failed fresh _ _ => exact ⟨fun _ => fresh, fun _ => List.cons_ne_nil _ _⟩
  | answered fresh _ _ => exact ⟨fun _ => fresh, fun _ => List.cons_ne_nil _ _⟩

theorem length_invocations_le_one (hr : Course c w k r) : r.invocations.length ≤ 1 := by
  cases hr with
  | held _ => exact Nat.zero_le 1
  | failed _ _ _ => exact Nat.le_refl 1
  | answered _ _ _ => exact Nat.le_refl 1

/-- A key is answered after a call if it was answered before it, or if it is the key of the call and the
compiler answered. -/
theorem has_outputEntry_iff (hr : Course c w k r) (d : Text) :
    r.after.memory.has (Cache.outputEntry d) = true ↔
      w.memory.has (Cache.outputEntry d) = true ∨ d = k ∧ r.answers ≠ [] := by
  have hrecorded := MemoryStore.has_outputEntry_record w.memory k c.document d
  cases hr with
  | held _ =>
    rw [hrecorded]
    exact ⟨.inl, fun h => h.resolve_right fun hd => hd.2 rfl⟩
  | failed _ _ _ =>
    rw [hrecorded]
    exact ⟨.inl, fun h => h.resolve_right fun hd => hd.2 rfl⟩
  | answered _ _ _ =>
    by_cases hd : d = k
    · rw [hd]
      exact ⟨fun _ => .inr ⟨rfl, List.cons_ne_nil _ _⟩, fun _ => MemoryStore.has_put_self _ _ _⟩
    · have hne : Cache.outputEntry d ≠ Cache.outputEntry k := by
        intro h
        exact hd (Cache.outputEntry_injective h)
      rw [MemoryStore.has_put_of_ne hne, hrecorded]
      exact ⟨.inl, fun h => h.resolve_right fun h => hd h.1⟩

theorem length_answers_le_one (hr : Course c w k r) : r.answers.length ≤ 1 :=
  (List.length_filterMap_le _ _).trans hr.length_invocations_le_one

/-- Where the compiler answers, it was invoked. -/
theorem answers_eq_nil (hr : Course c w k r) (h : w.memory.has (Cache.outputEntry k) = true) :
    r.answers = [] := by
  have hnone : r.invocations = [] := by
    by_contra hinvokes
    rw [hr.invokes_iff.mp hinvokes] at h
    exact nomatch h
  unfold CallRecord.answers
  rw [hnone, List.filterMap_nil]

end Call.Course

/-! ## Sessions -/

namespace Workshop

variable (w : Workshop) (calls : List Call) (c : Call)

theorem answersFor_eq_nil_iff {key : Except Text.SurrogateFault Text} :
    w.answersFor calls key = [] ↔ ∀ r ∈ w.history calls, r.call.key = key → r.answers = [] := by
  unfold answersFor
  rw [List.flatMap_eq_nil_iff]
  constructor
  · intro h r hr hkey
    exact h r (List.mem_filter.mpr ⟨hr, decide_eq_true hkey⟩)
  · intro h r hr
    obtain ⟨hmem, hkey⟩ := List.mem_filter.mp hr
    exact h r hmem (of_decide_eq_true hkey)

theorem answersFor_concat_self : w.answersFor (calls ++ [c]) c.key =
    w.answersFor calls c.key ++ (c.run (w.after calls)).answers := by
  have hself : [c.run (w.after calls)].filter (fun r => r.call.key = c.key) = [c.run (w.after calls)] :=
    List.filter_cons_of_pos (decide_eq_true rfl)
  unfold answersFor
  rw [history_concat, List.filter_append, List.flatMap_append, hself, List.flatMap_singleton]

theorem answersFor_concat_of_ne {key : Except Text.SurrogateFault Text} (h : c.key ≠ key) :
    w.answersFor (calls ++ [c]) key = w.answersFor calls key := by
  have hother : [c.run (w.after calls)].filter (fun r => r.call.key = key) = [] :=
    List.filter_cons_of_neg fun hkey => h (of_decide_eq_true hkey)
  unfold answersFor
  rw [history_concat, List.filter_append, hother, List.append_nil]

/-- A key is answered in the store exactly if the compiler answered in a call with this key. -/
theorem has_outputEntry_iff (d : Text) :
    (w.emptied.after calls).memory.has (Cache.outputEntry d) = true ↔
      w.emptied.answersFor calls (.ok d) ≠ [] := by
  induction calls using List.reverseRecOn with
  | nil => exact ⟨fun h => (nomatch h), fun h => absurd rfl h⟩
  | append_singleton calls c ih =>
    obtain ⟨k, hk, hcourse⟩ := w.course_after calls c
    rw [after_concat, hcourse.has_outputEntry_iff, ih]
    -- the last call counts for its own key only
    by_cases hd : d = k
    · rw [hd, ← hk, answersFor_concat_self, ne_eq, ne_eq, ne_eq, List.append_eq_nil_iff, not_and_or,
        eq_self_iff_true, true_and]
    · have hne : c.key ≠ .ok d := by
        rw [hk]
        exact fun h => hd (Except.ok.inj h).symm
      rw [answersFor_concat_of_ne w.emptied calls c hne]
      exact ⟨fun h => h.resolve_right fun h => hd h.1, .inl⟩

/-- The call after a session invokes the compiler exactly if its key is not answered. -/
theorem invokes_iff_answersFor_eq_nil : (c.run (w.emptied.after calls)).invocations ≠ [] ↔
    w.emptied.answersFor calls c.key = [] := by
  obtain ⟨k, hk, hcourse⟩ := w.course_after calls c
  rw [hcourse.invokes_iff, hk, ← not_iff_not, ← ne_eq, ← ne_eq, ← w.has_outputEntry_iff calls k,
    ne_eq, Bool.not_eq_false]

/-- No key is answered twice. A call whose key is answered gets no answer, as it does not invoke. -/
theorem length_answersFor_le_one (key : Except Text.SurrogateFault Text) :
    (w.emptied.answersFor calls key).length ≤ 1 := by
  induction calls using List.reverseRecOn with
  | nil => exact Nat.zero_le 1
  | append_singleton calls c ih =>
    by_cases hkey : c.key = key
    · subst hkey
      obtain ⟨k, hk, hcourse⟩ := w.course_after calls c
      rw [answersFor_concat_self, List.length_append]
      -- either side of the sum may have an answer, but not both
      by_cases hanswered : w.emptied.answersFor calls c.key = []
      · rw [hanswered, List.length_nil, Nat.zero_add]
        exact hcourse.length_answers_le_one
      · have hheld : (w.emptied.after calls).memory.has (Cache.outputEntry k) = true :=
          (w.has_outputEntry_iff calls k).mpr (hk ▸ hanswered)
        rw [hcourse.answers_eq_nil hheld]
        exact ih
    · rw [answersFor_concat_of_ne w.emptied calls c hkey]
      exact ih

/-- Calls with other keys add no answers for a key. -/
theorem answersFor_append_of_forall_ne {key : Except Text.SurrogateFault Text} {more : List Call}
    (h : ∀ b ∈ more, b.key ≠ key) : w.answersFor (calls ++ more) key = w.answersFor calls key := by
  induction more using List.reverseRecOn with
  | nil => rw [List.append_nil]
  | append_singleton more b ih =>
    have hb : b.key ≠ key := h b (List.mem_append_right more List.mem_cons_self)
    rw [← List.append_assoc, answersFor_concat_of_ne w _ b hb]
    exact ih fun b hb => h b (List.mem_append_left _ hb)

/-- **The compiler is invoked once for a key, unless it fails.** In every session a call invokes the
compiler exactly if it has answered in no earlier call with the same key, whatever the versions, the
selections and the outcomes of the calls are, and then once; so it answers at most once for every key; and
after a failed invocation the next call with the same key invokes it again. -/
theorem invokes_iff_unanswered :
    ((c.run (w.emptied.after calls)).invocations ≠ [] ↔
        ¬ ∃ r ∈ w.emptied.history calls, r.call.key = c.key ∧ r.answers ≠ []) ∧
      (c.run (w.emptied.after calls)).invocations.length ≤ 1 ∧
      (∀ key, (w.emptied.answersFor calls key).length ≤ 1) ∧
      ∀ (others : List Call) (next : Call), next.key = c.key → (∀ b ∈ others, b.key ≠ c.key) →
        (c.run (w.emptied.after calls)).invocations ≠ [] → (c.run (w.emptied.after calls)).answers = [] →
          (next.run (w.emptied.after (calls ++ c :: others))).invocations ≠ [] := by
  refine ⟨?_, ?_, w.length_answersFor_le_one calls, ?_⟩
  · rw [invokes_iff_answersFor_eq_nil, answersFor_eq_nil_iff]
    simp only [not_exists, not_and, not_not]
  · obtain ⟨k, -, hcourse⟩ := w.course_after calls c
    exact hcourse.length_invocations_le_one
  · intro others next hnext hothers hinvokes hfailed
    rw [invokes_iff_answersFor_eq_nil] at hinvokes ⊢
    have hsplit : calls ++ c :: others = (calls ++ [c]) ++ others := by rw [List.append_assoc]; rfl
    rw [hnext, hsplit, answersFor_append_of_forall_ne _ _ hothers, answersFor_concat_self, hinvokes, hfailed,
      List.append_nil]

end Workshop

end SolidityBuild
