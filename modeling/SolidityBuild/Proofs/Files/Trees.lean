import SolidityBuild.Files.Change
import SolidityBuild.Files.Search
import Mathlib.Data.List.Induction
import Mathlib.Data.List.Nodup

/-!
Well-formed trees of files: whatever stands in them stands in a folder, under a name that may name a file, and
there is one thing at a location. What stands at a location changes only where a change is made, and a tree stays
well-formed.
-/

set_option autoImplicit false

namespace SolidityBuild

/-! ## Looking up -/

section Lookup

variable {α β : Type} [BEq α] [LawfulBEq α] {k : α} {p : α × β → Bool} {entries : List (α × β)}

theorem lookup_filter (h : ∀ v, p (k, v) = true) : (entries.filter p).lookup k = entries.lookup k := by
  induction entries with
  | nil => rfl
  | cons e entries ih =>
    obtain ⟨l, v⟩ := e
    by_cases hl : k = l
    · subst hl
      rw [List.filter_cons_of_pos (h v), List.lookup_cons_self, List.lookup_cons_self]
    · have hne : (k == l) = false := beq_eq_false_iff_ne.mpr hl
      rw [List.filter_cons, List.lookup_cons, hne]
      split
      · rw [List.lookup_cons, hne]
        exact ih
      · exact ih

theorem lookup_filter_eq_none (h : ∀ v, p (k, v) = false) : (entries.filter p).lookup k = none := by
  rw [List.lookup_eq_none_iff]
  intro e he
  obtain ⟨-, hp⟩ := List.mem_filter.mp he
  rw [bne_iff_ne]
  rintro rfl
  exact Bool.false_ne_true ((h e.2).symm.trans hp)

end Lookup

/-- A text that may name a file: it has no separator in it. -/
def Path.Name (t : Text) : Prop := Path.separator ∉ t

instance (t : Text) : Decidable (Path.Name t) := inferInstanceAs (Decidable (Path.separator ∉ t))

namespace Files

variable {files : Files} {l l' : Location}

/-! ## What stands where -/

theorem node?_nil (files : Files) : files.node? [] = some .folder := if_pos rfl

theorem node?_of_ne (hl : l ≠ []) : files.node? l = files.entries.lookup l := if_neg hl

theorem node?_put_self (files : Files) (hl : l ≠ []) (node : Node) : (files.put l node).node? l = some node := by
  have hgone : (files.entries.filter fun e => e.1 ≠ l).lookup l = none :=
    lookup_filter_eq_none fun v => decide_eq_false (not_not_intro rfl)
  rw [node?_of_ne hl, put, List.lookup_append, hgone, Option.none_or, List.lookup_cons_self]

theorem node?_put_of_ne (hne : l' ≠ l) (node : Node) : (files.put l node).node? l' = files.node? l' := by
  by_cases hl' : l' = []
  · rw [hl', node?_nil, node?_nil]
  · have hstill : (files.entries.filter fun e => e.1 ≠ l).lookup l' = files.entries.lookup l' :=
      lookup_filter fun v => decide_eq_true hne
    have hother : (l' == l) = false := beq_eq_false_iff_ne.mpr hne
    rw [node?_of_ne hl', node?_of_ne hl', put, List.lookup_append, hstill, List.lookup_cons, hother,
      List.lookup_nil, Option.or_none]

/-- Folders stay where something is put in the place of what is none. -/
theorem node?_put_folder (hold : files.node? l ≠ some .folder) (node : Node)
    (hl' : files.node? l' = some .folder) : (files.put l node).node? l' = some .folder := by
  have hne : l' ≠ l := by
    rintro rfl
    exact hold hl'
  rw [node?_put_of_ne hne, hl']

theorem node?_erase (h : ¬ l <+: l') : (files.erase l).node? l' = files.node? l' := by
  by_cases hl' : l' = []
  · rw [hl', node?_nil, node?_nil]
  · rw [node?_of_ne hl', node?_of_ne hl']
    refine lookup_filter fun v => ?_
    rw [Bool.not_eq_true', ← Bool.not_eq_true, List.isPrefixOf_iff_prefix]
    exact h

theorem node?_erase_below (hl' : l' ≠ []) (h : l <+: l') : (files.erase l).node? l' = none := by
  rw [node?_of_ne hl']
  refine lookup_filter_eq_none fun v => ?_
  rw [Bool.not_eq_false', List.isPrefixOf_iff_prefix]
  exact h

/-! ## Well-formed trees -/

/-- What an entry of a folder may be called: nothing that means a folder, and nothing that is too long. -/
structure IsName (name : Text) : Prop where
  part : Path.isPart name = true
  down : name ≠ Path.dotDot
  short : Text.utf8Size name ≤ nameLimit

theorem isName_iff {name : Text} :
    IsName name ↔ Path.isPart name = true ∧ name ≠ Path.dotDot ∧ Text.utf8Size name ≤ nameLimit :=
  ⟨fun h => ⟨h.part, h.down, h.short⟩, fun ⟨hpart, hdown, hshort⟩ => ⟨hpart, hdown, hshort⟩⟩

instance (name : Text) : Decidable (IsName name) := decidable_of_iff _ isName_iff.symm

/-- Relative paths start in a folder, nothing stands outside of a folder, entries have names that they may have,
and no two of them are at the same location. -/
structure WellFormed (files : Files) : Prop where
  here : files.node? files.here = some .folder
  parent : ∀ l node, l ≠ [] → files.node? l = some node → files.node? l.dropLast = some .folder
  names : ∀ l node, files.node? l = some node → ∀ name ∈ l, IsName name
  distinct : (files.entries.map Prod.fst).Nodup

/-- No name in the tree holds a separator, as none in a tree of files does. -/
def Separated (files : Files) : Prop := ∀ e ∈ files.entries, ∀ name ∈ e.1, Path.Name name

instance (files : Files) : Decidable files.Separated :=
  inferInstanceAs (Decidable (∀ e ∈ files.entries, ∀ name ∈ e.1, Path.Name name))

/-- No name in the tree holds the code point zero, as none in a tree of files does. -/
def NullFree (files : Files) : Prop := ∀ e ∈ files.entries, ∀ name ∈ e.1, (0 : CodePoint) ∉ name

instance (files : Files) : Decidable files.NullFree :=
  inferInstanceAs (Decidable (∀ e ∈ files.entries, ∀ name ∈ e.1, (0 : CodePoint) ∉ name))

namespace WellFormed

theorem empty : WellFormed {} where
  here := rfl
  parent l node hl hnode := by
    rw [node?_of_ne hl] at hnode
    cases hnode
  names l node hnode := by
    by_cases hl : l = []
    · rw [hl]
      exact List.forall_mem_nil _
    · rw [node?_of_ne hl] at hnode
      cases hnode
  distinct := List.nodup_nil

/-- Where something stands, folders stand on the way. -/
theorem folder_above (h : files.WellFormed) {node : Node} (hnode : files.node? l' = some node)
    (hbelow : l <+: l') (hne : l ≠ l') : files.node? l = some .folder := by
  induction l' using List.reverseRecOn generalizing node with
  | nil => exact absurd (List.prefix_nil.mp hbelow) hne
  | append_singleton l' name ih =>
    have hfolder := h.parent _ _ (List.concat_ne_nil name l') hnode
    rw [List.dropLast_concat] at hfolder
    rcases List.prefix_concat_iff.mp hbelow with heq | hbelow'
    · exact absurd heq hne
    · by_cases heq : l = l'
      · rwa [heq]
      · exact ih hfolder hbelow' heq

/-- Below what is no folder nothing stands. -/
theorem not_below (h : files.WellFormed) {node : Node} (hnode : files.node? l' = some node)
    (hl : files.node? l ≠ some .folder) (hne : l ≠ l') : ¬ l <+: l' :=
  fun hbelow => hl (h.folder_above hnode hbelow hne)

/-- Below where nothing stands nothing stands. -/
theorem not_below_free (h : files.WellFormed) {node : Node} (hnode : files.node? l' = some node)
    (hl : files.node? l = none) : ¬ l <+: l' := by
  refine h.not_below hnode ?_ ?_
  · rw [hl]
    exact (Option.some_ne_none _).symm
  · rintro rfl
    rw [hl] at hnode
    cases hnode

/-- Below where nothing stands nothing stands, nor there. -/
theorem free_below (h : files.WellFormed) (hl : files.node? l = none) (hbelow : l <+: l') :
    files.node? l' = none := by
  cases hnode : files.node? l' with
  | none => rfl
  | some node => exact absurd hbelow (h.not_below_free hnode hl)

/-- Anything may be put into a folder, in the place of whatever is no folder. -/
theorem put (h : files.WellFormed) (hl : l ≠ []) (hparent : files.node? l.dropLast = some .folder)
    (hnames : ∀ name ∈ l, IsName name) (hold : files.node? l ≠ some .folder) (node : Node) :
    (files.put l node).WellFormed := by
  refine ⟨node?_put_folder hold node h.here, ?_, ?_, ?_⟩
  · intro l' node' hl' hnode'
    by_cases hne : l' = l
    · subst hne
      exact node?_put_folder hold node hparent
    · rw [node?_put_of_ne hne] at hnode'
      exact node?_put_folder hold node (h.parent l' node' hl' hnode')
  · intro l' node' hnode'
    by_cases hne : l' = l
    · exact hne ▸ hnames
    · rw [node?_put_of_ne hne] at hnode'
      exact h.names l' node' hnode'
  · have hstill : ((files.entries.filter fun e => e.1 ≠ l).map Prod.fst).Nodup :=
      h.distinct.sublist (List.filter_sublist.map Prod.fst)
    rw [Files.put, List.map_append, List.nodup_append]
    refine ⟨hstill, List.nodup_singleton l, ?_⟩
    intro l' hl' l'' hl''
    obtain ⟨e, he, rfl⟩ := List.mem_map.mp hl'
    obtain rfl := List.mem_singleton.mp hl''
    exact of_decide_eq_true (List.mem_filter.mp he).2

/-- Folders stay where what is none is taken away. -/
theorem node?_erase_folder (h : files.WellFormed) (hl : files.node? l ≠ some .folder)
    (hl' : files.node? l' = some .folder) : (files.erase l).node? l' = some .folder := by
  have hne : l ≠ l' := by
    rintro rfl
    exact hl hl'
  rw [node?_erase (h.not_below hl' hl hne), hl']

/-- What is left after something is taken away stood before. -/
theorem node?_of_erase (hl' : l' ≠ []) {node : Node} (hnode : (files.erase l).node? l' = some node) :
    files.node? l' = some node := by
  have hbelow : ¬ l <+: l' := by
    intro hbelow
    rw [node?_erase_below hl' hbelow] at hnode
    cases hnode
  rwa [node?_erase hbelow] at hnode

/-- What is no folder may be taken away. -/
theorem erase (h : files.WellFormed) (hl : files.node? l ≠ some .folder) : (files.erase l).WellFormed := by
  refine ⟨h.node?_erase_folder hl h.here, ?_, ?_, h.distinct.sublist (List.filter_sublist.map Prod.fst)⟩
  · intro l' node hl' hnode
    exact h.node?_erase_folder hl (h.parent l' node hl' (node?_of_erase hl' hnode))
  · intro l' node hnode
    by_cases hl' : l' = []
    · rw [hl']
      exact List.forall_mem_nil _
    · exact h.names l' node (node?_of_erase hl' hnode)

end WellFormed

/-! ## What stands in a folder and below it -/

theorem node?_ne_none_iff (hl : l ≠ []) : files.node? l ≠ none ↔ l ∈ files.entries.map Prod.fst := by
  rw [node?_of_ne hl, ne_eq, List.lookup_eq_none_iff]
  constructor
  · intro h
    by_contra hmem
    refine h fun e he => bne_iff_ne.mpr ?_
    rintro rfl
    exact hmem (List.mem_map_of_mem he)
  · intro hmem h
    obtain ⟨e, he, rfl⟩ := List.mem_map.mp hmem
    exact bne_iff_ne.mp (h e he) rfl

/-- The name that the entry at a location has in a folder, if that is where it is. -/
def nameIn (folder l : Location) : Option Text :=
  match l.getLast? with
  | some name => if l.dropLast = folder then some name else none
  | none => none

theorem nameIn_eq_some_iff {folder : Location} {name : Text} :
    nameIn folder l = some name ↔ l = folder ++ [name] := by
  rw [nameIn]
  induction l using List.reverseRecOn with
  | nil => exact iff_of_false (fun h => nomatch h) fun h => List.concat_ne_nil name folder h.symm
  | append_singleton above last _ =>
    rw [List.getLast?_concat, List.dropLast_concat]
    dsimp only
    rw [Option.ite_none_right_eq_some, Option.some_inj, List.append_singleton_inj]

theorem names_eq (files : Files) (folder : Location) :
    files.names folder = (files.entries.map Prod.fst).filterMap (nameIn folder) := by
  rw [List.filterMap_map]
  rfl

/-- The names in a folder are those of what stands in it. -/
theorem mem_names_iff {folder : Location} {name : Text} :
    name ∈ files.names folder ↔ files.node? (folder ++ [name]) ≠ none := by
  rw [node?_ne_none_iff (List.concat_ne_nil name folder), names_eq, List.mem_filterMap]
  constructor
  · rintro ⟨l, hl, hname⟩
    rwa [← nameIn_eq_some_iff.mp hname]
  · exact fun hmem => ⟨_, hmem, nameIn_eq_some_iff.mpr rfl⟩

theorem WellFormed.nodup_names (h : files.WellFormed) (folder : Location) : (files.names folder).Nodup := by
  rw [names_eq]
  refine List.Nodup.filterMap (fun l l' name hl hl' => ?_) h.distinct
  rw [nameIn_eq_some_iff.mp hl, nameIn_eq_some_iff.mp hl']

/-- The place that a location has below a folder, if it is below it. -/
def placeBelow (folder l : Location) : Option Location :=
  if folder.isPrefixOf l ∧ l ≠ folder then some (l.drop folder.length) else none

theorem placeBelow_eq_some_iff {folder place : Location} :
    placeBelow folder l = some place ↔ place ≠ [] ∧ l = folder ++ place := by
  rw [placeBelow, Option.ite_none_right_eq_some, List.isPrefixOf_iff_prefix, Option.some_inj]
  constructor
  · rintro ⟨⟨⟨rest, rfl⟩, hne⟩, hplace⟩
    rw [List.drop_left] at hplace
    subst hplace
    exact ⟨fun hnil => hne (by rw [hnil, List.append_nil]), rfl⟩
  · rintro ⟨hne, rfl⟩
    refine ⟨⟨List.prefix_append folder place, fun heq => hne ?_⟩, List.drop_left⟩
    exact List.append_right_eq_self.mp heq

theorem below_eq (files : Files) (folder : Location) :
    files.below folder = (files.entries.map Prod.fst).filterMap (placeBelow folder) := by
  rw [List.filterMap_map]
  rfl

/-- The places below a folder are those at which something stands. -/
theorem mem_below_iff {folder place : Location} :
    place ∈ files.below folder ↔ place ≠ [] ∧ files.node? (folder ++ place) ≠ none := by
  rw [below_eq, List.mem_filterMap]
  constructor
  · rintro ⟨l, hl, hplace⟩
    obtain ⟨hne, rfl⟩ := placeBelow_eq_some_iff.mp hplace
    exact ⟨hne, (node?_ne_none_iff (List.append_ne_nil_of_right_ne_nil folder hne)).mpr hl⟩
  · rintro ⟨hne, hnode⟩
    exact ⟨_, (node?_ne_none_iff (List.append_ne_nil_of_right_ne_nil folder hne)).mp hnode,
      placeBelow_eq_some_iff.mpr ⟨hne, rfl⟩⟩

theorem WellFormed.nodup_below (h : files.WellFormed) (folder : Location) : (files.below folder).Nodup := by
  rw [below_eq]
  refine List.Nodup.filterMap (fun l l' place hl hl' => ?_) h.distinct
  rw [(placeBelow_eq_some_iff.mp hl).2, (placeBelow_eq_some_iff.mp hl').2]

end Files

end SolidityBuild
