import SolidityBuild.Proofs.Text.Runs
import SolidityBuild.Text.Lines

/-!
The lines of a text, and what is left of a text without the blanks around it. What ends a line is blank and is on no
line. Unifying the line ends first makes no difference, as a carriage return ends a line too, and one directly before a
line feed does so only once in both ways.
-/

set_option autoImplicit false

namespace SolidityBuild

variable {c : CodePoint} {line pad rest t : Text}

theorem CodePoint.isBlank_of_endsLine (h : c.endsLine = true) : c.isBlank = true := by
  simp only [endsLine, Bool.or_eq_true, Bool.and_eq_true, decide_eq_true_eq] at h
  simp only [isBlank, isWhiteSpace, Bool.or_eq_true, Bool.and_eq_true, decide_eq_true_eq]
  omega

namespace Text

/-! ## Lines -/

/-- A line that is not ended yet goes on with what follows it. -/
theorem lines_cons_inner (hc : c.endsLine = false) (t : Text) : lines (c :: t) =
    match lines t with
    | [] => [[c]]
    | first :: others => (c :: first) :: others := by
  have hne : c ≠ 13 := by
    rintro rfl
    exact nomatch hc
  cases t with
  | nil => simp only [lines, hc, Bool.false_eq_true, if_false]
  | cons d t =>
    rw [lines, if_neg fun h => hne h.1]
    exact if_neg (Bool.eq_false_iff.mp hc)

/-- A line ends once where a carriage return is directly before a line feed. -/
theorem lines_return_feed (t : Text) : lines (13 :: 10 :: t) = [] :: lines t := by
  rw [lines, if_pos ⟨rfl, rfl⟩]

theorem lines_cons_end (hc : c.endsLine = true) (h : c = 13 → t.head? ≠ some 10) :
    lines (c :: t) = [] :: lines t := by
  cases t with
  | nil => simp only [lines, hc, if_true]
  | cons d t =>
    have hfeed : ¬ (c = 13 ∧ d = 10) := by
      rintro ⟨hc, rfl⟩
      exact h hc rfl
    rw [lines, if_neg hfeed, if_pos hc]

theorem lines_feed (t : Text) : lines (10 :: t) = [] :: lines t := lines_cons_end rfl fun h => nomatch h

/-- **Unifying the line ends keeps the lines.** -/
theorem lines_unifyNewlines (t : Text) : t.unifyNewlines.lines = t.lines := by
  fun_induction unifyNewlines t with
  | case1 => rfl
  | case2 => rfl
  | case3 => rfl
  | case4 rest ih => rw [lines_feed, ih, lines_return_feed]
  | case5 d rest hd ih =>
    have hend : lines (13 :: d :: rest) = [] :: lines (d :: rest) :=
      lines_cons_end rfl fun _ h => hd (Option.some.inj h)
    rw [lines_feed, ih, hend]
  | case6 c d rest hc ih =>
    cases hends : c.endsLine with
    | true => rw [lines_cons_end hends fun h => absurd h hc, lines_cons_end hends fun h => absurd h hc, ih]
    | false => rw [lines_cons_inner hends, lines_cons_inner hends, ih]

/-- A line ends where it may, or its end is that of a carriage return and the line feed after it. -/
theorem lines_cons_end_cases (hc : c.endsLine = true) (t : Text) :
    lines (c :: t) = [] :: lines t ∨ ∃ rest, t = 10 :: rest ∧ lines (c :: t) = lines t := by
  by_cases h : c = 13 → t.head? ≠ some 10
  · exact .inl (lines_cons_end hc h)
  · obtain ⟨rfl, hhead⟩ := Classical.not_imp.mp h
    obtain ⟨rest, rfl⟩ := List.head?_eq_some_iff.mp (not_not.mp hhead)
    refine .inr ⟨rest, rfl, ?_⟩
    rw [lines_return_feed, lines_feed]

theorem exists_lines_cons_end (hc : c.endsLine = true) (t : Text) : ∃ others, lines (c :: t) = [] :: others := by
  rcases lines_cons_end_cases hc t with h | ⟨rest, rfl, h⟩
  · exact ⟨_, h⟩
  · exact ⟨_, h.trans (lines_feed rest)⟩

/-- A text begins with the line that the first line end in it ends. -/
theorem lines_line_append (hline : ∀ c ∈ line, c.endsLine = false) {others : List Text}
    (h : lines rest = [] :: others) : lines (line ++ rest) = line :: others := by
  induction line with
  | nil => exact h
  | cons c line ih =>
    obtain ⟨hc, hline⟩ := List.forall_mem_cons.mp hline
    rw [List.cons_append, lines_cons_inner hc, ih hline]

theorem lines_of_line (hline : ∀ c ∈ line, c.endsLine = false) (hne : line ≠ []) : lines line = [line] := by
  induction line with
  | nil => exact absurd rfl hne
  | cons c line ih =>
    obtain ⟨hc, hline⟩ := List.forall_mem_cons.mp hline
    rw [lines_cons_inner hc]
    cases line with
    | nil => rfl
    | cons d line => rw [ih hline (List.cons_ne_nil d line)]

/-- **No line has a line end in it**, and all that is on the lines is from the text. -/
theorem of_mem_lines (h : line ∈ lines t) : (∀ c ∈ line, c.endsLine = false) ∧ line ⊆ t := by
  have hempty : ∀ t : Text, (∀ c ∈ ([] : Text), c.endsLine = false) ∧ ([] : Text) ⊆ t :=
    fun t => ⟨List.forall_mem_nil _, List.nil_subset t⟩
  fun_induction lines t generalizing line with
  | case1 => exact absurd h List.not_mem_nil
  | case2 =>
    obtain rfl := List.mem_singleton.mp h
    exact hempty _
  | case3 c hc =>
    obtain rfl := List.mem_singleton.mp h
    exact ⟨List.forall_mem_singleton.mpr (Bool.eq_false_iff.mpr hc), List.Subset.refl _⟩
  | case4 c d rest _ ih =>
    rcases List.mem_cons.mp h with rfl | h
    · exact hempty _
    · obtain ⟨hline, hsubset⟩ := ih h
      exact ⟨hline, List.subset_cons_of_subset c (List.subset_cons_of_subset d hsubset)⟩
  | case5 c d rest _ _ ih =>
    rcases List.mem_cons.mp h with rfl | h
    · exact hempty _
    · obtain ⟨hline, hsubset⟩ := ih h
      exact ⟨hline, List.subset_cons_of_subset c hsubset⟩
  | case6 c d rest _ hc =>
    obtain rfl := List.mem_singleton.mp h
    exact ⟨List.forall_mem_singleton.mpr (Bool.eq_false_iff.mpr hc), List.cons_subset_cons c (List.nil_subset _)⟩
  | case7 c d rest _ hc first others hrest ih =>
    rw [hrest] at ih
    rcases List.mem_cons.mp h with rfl | h
    · obtain ⟨hline, hsubset⟩ := ih List.mem_cons_self
      exact ⟨List.forall_mem_cons.mpr ⟨Bool.eq_false_iff.mpr hc, hline⟩, List.cons_subset_cons c hsubset⟩
    · obtain ⟨hline, hsubset⟩ := ih (List.mem_cons_of_mem first h)
      exact ⟨hline, List.subset_cons_of_subset c hsubset⟩

/-! ## Blanks around a text -/

theorem trim_cons_blank (hc : c.isBlank = true) (t : Text) : trim (c :: t) = trim t := by
  rw [trim, trimLeftBy, List.dropWhile_cons_of_pos hc, trim, trimLeftBy]

/-- A text with nothing blank at either end is what is left of it when blanks follow. -/
theorem trim_append_blank (hne : t ≠ []) (hbegin : EndsRun CodePoint.isBlank t)
    (hend : ∀ c ∈ t.getLast?, c.isBlank = false) (hpad : ∀ c ∈ pad, c.isBlank = true) : trim (t ++ pad) = t := by
  have hfront : EndsRun CodePoint.isBlank (t ++ pad) := hbegin.append_of_ne_nil hne pad
  have hback : EndsRun CodePoint.isBlank t.reverse := by
    intro c hc
    rw [List.head?_reverse] at hc
    exact hend c hc
  have hpad' : ∀ c ∈ pad.reverse, c.isBlank = true := fun c hc => hpad c (List.mem_reverse.mp hc)
  rw [trim, trimLeftBy, hfront.dropWhile_eq, trimRightBy, List.reverse_append, dropWhile_run_append hpad' hback,
    List.reverse_reverse]

theorem trim_isPrefix (t : Text) : trim t <+: trimLeftBy CodePoint.isBlank t := by
  rw [trim, trimRightBy, ← List.reverse_suffix, List.reverse_reverse]
  exact List.dropWhile_suffix _

theorem trim_subset (t : Text) : trim t ⊆ t :=
  List.Subset.trans (trim_isPrefix t).subset (List.dropWhile_suffix _).subset

theorem endsRun_trim (t : Text) : EndsRun CodePoint.isBlank (trim t) :=
  (endsRun_dropWhile _ t).of_isPrefix (trim_isPrefix t)

/-- What is left of a text ends with nothing blank. -/
theorem isBlank_getLast?_trim (t : Text) : ∀ c ∈ (trim t).getLast?, c.isBlank = false := by
  intro c hc
  rw [trim, trimRightBy, List.getLast?_reverse] at hc
  exact endsRun_dropWhile _ _ c hc

end Text

end SolidityBuild
