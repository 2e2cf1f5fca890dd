import SolidityBuild.Proofs.Files.Changing

/-!
Folders in which nothing is. What stands in a folder is reached through it, so nothing is reached through a folder
that is empty or is not there; and a folder that was not there is empty when it is made, unless its path goes up
again on the way.
-/

set_option autoImplicit false

namespace SolidityBuild

/-! ## Paths of entries -/

theorem Text.utf8Size_append (s t : Text) : utf8Size (s ++ t) = utf8Size s + utf8Size t := by
  rw [utf8Size, List.flatMap_append, List.length_append]
  rfl

theorem Text.utf8Size_pos {t : Text} (ht : t ≠ []) : 1 ≤ utf8Size t := by
  cases t with
  | nil => exact absurd rfl ht
  | cons c t =>
    have hoctets : 1 ≤ (octetsOf c).length := by
      rw [octetsOf]
      split_ifs <;> exact Nat.succ_le_succ (Nat.zero_le _)
    rw [utf8Size, List.flatMap_cons, List.length_append]
    exact Nat.le_trans hoctets (Nat.le_add_right _ _)

theorem Text.join_concat (separator : Text) {parts : List Text} (hne : parts ≠ []) (name : Text) :
    join separator (parts ++ [name]) = join separator parts ++ (separator ++ name) := by
  rw [join, join]
  induction parts with
  | nil => exact absurd rfl hne
  | cons part parts ih =>
    cases parts with
    | nil => simp [List.intercalate]
    | cons part' parts =>
      have hrest := ih (List.cons_ne_nil part' parts)
      rw [List.cons_append, List.cons_append, List.intercalate_cons_cons, ← List.cons_append, hrest,
        List.intercalate_cons_cons, List.append_assoc (part ++ separator)]

/-- The path of a folder is not longer than those of its entries. -/
theorem Path.utf8Size_le_child (p : Path) {name : Text} (hname : isPart name = true) :
    Text.utf8Size p.text ≤ Text.utf8Size (p.child name).text := by
  obtain ⟨slashes, parts⟩ := p
  have hchild : ¬ (slashes = 0 ∧ parts ++ [name] = []) := fun h => List.concat_ne_nil name parts h.2
  have hne : name ≠ [] := by
    rintro rfl
    exact Bool.false_ne_true hname
  rw [text, text, child]
  dsimp only
  rw [if_neg hchild]
  split_ifs with hdot
  · obtain ⟨rfl, rfl⟩ := hdot
    exact Text.utf8Size_pos (by simpa [Text.join] using hne)
  · rw [Text.utf8Size_append, Text.utf8Size_append]
    refine Nat.add_le_add_left ?_ _
    by_cases hparts : parts = []
    · rw [hparts]
      exact Nat.zero_le _
    · rw [Text.join_concat _ hparts, Text.utf8Size_append]
      exact Nat.le_add_right _ _

/-- A path with another one above it is that of an entry there. -/
theorem Path.exists_child {p : Path} (hparent : p.parent ≠ p) : ∃ name, p = p.parent.child name := by
  obtain ⟨slashes, parts⟩ := p
  rcases List.eq_nil_or_concat' parts with rfl | ⟨above, name, rfl⟩
  · exact absurd rfl hparent
  · refine ⟨name, ?_⟩
    rw [parent, child, List.dropLast_concat]

namespace Files

variable {files files' : Files} {followLast : Bool} {links : Nat} {l : Location} {part name : Text}
  {parts : List Text} {s : Spot} {p : Path}

/-- The way to an entry goes through its folder. -/
theorem Leads.above (h : Leads files followLast links l (parts ++ [part]) s) :
    ∃ d, Leads files true links l parts ⟨d, some .folder⟩ := by
  have hhere : ∀ {links l}, files.node? l = some .folder → ∃ d, Leads files true links l [] ⟨d, some .folder⟩ := by
    intro links l hfolder
    refine ⟨l, ?_⟩
    rw [← hfolder]
    exact .here links l
  generalize hall : parts ++ [part] = all at h
  induction h generalizing parts with
  | here _ _ => exact absurd hall (List.concat_ne_nil part parts)
  | skip folder blank _ ih =>
    cases parts with
    | nil => exact hhere folder
    | cons _ parts =>
      obtain ⟨rfl, hrest⟩ := List.cons_eq_cons.mp hall
      obtain ⟨d, hd⟩ := ih hrest
      exact ⟨d, .skip folder blank hd⟩
  | up folder _ ih =>
    cases parts with
    | nil => exact hhere folder
    | cons _ parts =>
      obtain ⟨rfl, hrest⟩ := List.cons_eq_cons.mp hall
      obtain ⟨d, hd⟩ := ih hrest
      exact ⟨d, .up folder hd⟩
  | free folder _ _ | stay folder _ _ _ =>
    cases parts with
    | nil => exact hhere folder
    | cons _ parts => exact absurd (List.cons_eq_cons.mp hall).2 (List.concat_ne_nil part parts)
  | into folder hname there plain _ ih =>
    cases parts with
    | nil => exact hhere folder
    | cons _ parts =>
      obtain ⟨rfl, hrest⟩ := List.cons_eq_cons.mp hall
      obtain ⟨d, hd⟩ := ih hrest
      exact ⟨d, .into folder hname there plain hd⟩
  | @jump _ _ _ target _ _ folder hname there _ _ ih =>
    cases parts with
    | nil => exact hhere folder
    | cons _ parts =>
      obtain ⟨rfl, rfl⟩ := List.cons_eq_cons.mp hall
      obtain ⟨d, hd⟩ := ih (List.append_assoc _ _ _)
      exact ⟨d, .jump folder hname there (fun _ => rfl) hd⟩

/-- Where the path of an entry leads somewhere, that of its folder leads to a folder. -/
theorem spot_above (hname : Path.isPart name = true) (hspot : files.spot followLast (p.child name) = .ok s) :
    ∃ d, files.spot true p = .ok ⟨d, some .folder⟩ := by
  obtain ⟨hnull, hshort, hleads⟩ := (spot_eq_ok_iff files followLast (p.child name)).mp hspot
  obtain ⟨d, hd⟩ := hleads.above
  rw [hasNull_child, Bool.or_eq_false_iff] at hnull
  exact ⟨d, (spot_eq_ok_iff files true p).mpr ⟨hnull.1, Nat.lt_of_le_of_lt (p.utf8Size_le_child hname) hshort, hd⟩⟩

/-- Where the path of an entry leads somewhere, the entry has a name that it may have. -/
theorem WellFormed.isName_of_spot (h : files.WellFormed) (hpart : Path.isPart name = true)
    (hdown : name ≠ Path.dotDot) (hspot : files.spot true (p.child name) = .ok s) : IsName name := by
  obtain ⟨s', hstill⟩ := exists_spot_still hspot
  obtain ⟨-, -, hleads⟩ := (spot_eq_ok_iff files false _).mp hstill
  obtain ⟨d, hd⟩ := hleads.last hpart hdown List.getLast?_concat
  refine hleads.names h (h.node?_start _) name ?_
  rw [hd]
  exact List.mem_append_right d (List.mem_singleton_self name)

/-- The path of an entry that is not there leads to nothing. -/
theorem WellFormed.nothing_at_child (h : files.WellFormed) (hpart : Path.isPart name = true)
    (hdown : name ≠ Path.dotDot) (hfree : ∀ d, files.spot true p = .ok ⟨d, some .folder⟩ →
      files.node? (d ++ [name]) = none) (hspot : files.spot true (p.child name) = .ok s) : s.node = none := by
  obtain ⟨d, hfolder⟩ := spot_above hpart hspot
  have hnode := hfree d hfolder
  have hchild := spot_child true h hfolder (h.isName_of_spot hpart hdown hspot)
    fun target hl => nomatch hnode.symm.trans hl
  rw [hspot, hnode] at hchild
  split_ifs at hchild
  rw [Except.ok.inj hchild]

/-- A path that leads to nothing is a fault of the system, unless it is no path. -/
theorem target_of_nothing (hnull : hasNull p = false) (h : ∀ s, files.spot true p = .ok s → s.node = none) :
    ∃ f, files.target p = .error (.system f) := by
  cases hspot : files.spot true p with
  | ok s =>
    obtain ⟨l, node⟩ := s
    obtain rfl : node = none := h _ hspot
    rw [target, hspot]
    exact ⟨_, rfl⟩
  | error fault =>
    rw [target, hspot]
    cases fault with
    | system f => exact ⟨f, rfl⟩
    | nullInPath =>
      rw [spot, hnull, if_neg Bool.false_ne_true] at hspot
      split_ifs at hspot
      · cases hspot
      · split at hspot <;> cases hspot

/-! ## Vacant folders -/

/-- A folder that is empty, or will be once it is made. -/
def Vacant (files : Files) (p : Path) : Prop :=
  ∀ made d, files.ensurePath p = (made, .ok ()) → made.spot true p = .ok ⟨d, some .folder⟩ → made.names d = []

theorem node?_of_names_eq_nil {d : Location} (hnames : files.names d = []) (name : Text) :
    files.node? (d ++ [name]) = none := by
  by_contra hnode
  have hmem := mem_names_iff.mpr hnode
  rw [hnames] at hmem
  exact List.not_mem_nil hmem

/-- A folder that is there is vacant if it is empty. -/
theorem vacant_of_empty {d : Location} (hspot : files.spot true p = .ok ⟨d, some .folder⟩)
    (hnames : files.names d = []) : files.Vacant p := by
  intro made d' hensure hspot'
  rw [ensurePath_of_folder (isFolder_iff.mpr ⟨d, hspot⟩)] at hensure
  obtain rfl : files = made := congrArg Prod.fst hensure
  obtain ⟨rfl, -⟩ := Spot.mk.inj (Except.ok.inj (hspot.symm.trans hspot'))
  exact hnames

/-- In a new folder nothing is. -/
theorem WellFormed.names_of_makeFolder (h : files.WellFormed) (hmake : files.makeFolder p = .ok files') :
    ∃ d, files'.spot true p = .ok ⟨d, some .folder⟩ ∧ files'.names d = [] := by
  obtain ⟨l, hspot, rfl, -, -, hmade⟩ := h.makeFolder_ok hmake
  refine ⟨l, hmade, List.eq_nil_iff_forall_not_mem.mpr fun name hmem => mem_names_iff.mp hmem ?_⟩
  have hne : l ++ [name] ≠ l := fun heq => List.cons_ne_nil name [] (List.append_right_eq_self.mp heq)
  rw [node?_put_of_ne hne]
  exact h.free_below (node?_of_spot hspot) (List.prefix_append l [name])

/-- A folder that is made is empty, unless it was there. -/
theorem WellFormed.names_of_ensureFolder (h : files.WellFormed)
    (hensure : files.ensureFolder p = (files', .ok ())) :
    files.isFolder p = .ok true ∨ ∃ d, files'.spot true p = .ok ⟨d, some .folder⟩ ∧ files'.names d = [] := by
  rcases files.ensureFolder_cases p with ⟨made, hmake, heq⟩ | ⟨hfolder, -⟩ | ⟨fault, heq⟩
  · obtain rfl : made = files' := congrArg Prod.fst (heq.symm.trans hensure)
    exact .inr (h.names_of_makeFolder hmake)
  · exact .inl hfolder
  · exact nomatch congrArg Prod.snd (heq.symm.trans hensure)

/-- That is so with the folders above it as well. The induction is on the levels of folders that may be missing:
if the folder above had to be made, nothing was in it. -/
theorem WellFormed.names_of_ensureFolders (levels : Nat) (h : files.WellFormed)
    (hparts : ∀ part ∈ p.parts, Path.isPart part = true ∧ part ≠ Path.dotDot)
    (hensure : ensureFolders levels files p = (files', .ok ())) :
    files.isFolder p = .ok true ∨ ∃ d, files'.spot true p = .ok ⟨d, some .folder⟩ ∧ files'.names d = [] := by
  induction levels generalizing files files' p with
  | zero => exact h.names_of_ensureFolder hensure
  | succ levels ih =>
    rw [ensureFolders] at hensure
    rcases files.ensureFolder_cases p with ⟨made, hmake, heq⟩ | ⟨hfolder, -⟩ | ⟨fault, heq⟩
    · rw [heq] at hensure
      cases hensure
      exact h.names_of_ensureFolder heq
    · exact .inl hfolder
    rw [heq] at hensure
    dsimp only at hensure
    split_ifs at hensure with hcause
    · obtain ⟨hmissing, hparent⟩ := hcause
      obtain ⟨name, hp⟩ := Path.exists_child hparent
      have hlast : name ∈ p.parts := by
        rw [hp]
        exact List.mem_append_right _ (List.mem_singleton_self name)
      obtain ⟨hpart, hdown⟩ := hparts name hlast
      rcases habove : ensureFolders levels files p.parent with ⟨files₂, fault' | ⟨⟩⟩
      · rw [habove] at hensure
        cases congrArg Prod.snd hensure
      rw [habove] at hensure
      obtain ⟨hfiles₂, hdeepens, -⟩ := h.ensureFolders_spec levels habove
      refine (hfiles₂.names_of_ensureFolder hensure).imp_left fun hfolder => ?_
      obtain ⟨l, hspot⟩ := isFolder_iff.mp hfolder
      rw [hp] at hspot
      have hname := hfiles₂.isName_of_spot hpart hdown hspot
      rcases ih h (fun part hmem => hparts part ((List.dropLast_sublist _).subset hmem)) habove with
        hfolder | ⟨d, hfolder, hnames⟩
      · obtain ⟨d, hd⟩ := isFolder_iff.mp hfolder
        -- the way is not broken then
        have hchild := spot_child false h hd hname fun _ _ => rfl
        have hbroken := spot_of_missing (congrArg Prod.snd heq) hmissing
        rw [hp, hchild] at hbroken
        split_ifs at hbroken
        · cases hbroken
          cases hmissing
        · cases hbroken
          rw [isMissing_fault] at hmissing
          exact absurd hmissing (by decide)
      · have hfree : ∀ d', files₂.spot true p.parent = .ok ⟨d', some .folder⟩ →
            files₂.node? (d' ++ [name]) = none := by
          intro d' hd'
          obtain ⟨rfl, -⟩ := Spot.mk.inj (Except.ok.inj (hfolder.symm.trans hd'))
          exact node?_of_names_eq_nil hnames name
        cases hfiles₂.nothing_at_child hpart hdown hfree hspot
    · cases congrArg Prod.snd hensure

/-- **A folder that is not there is vacant**, if its path goes straight down. -/
theorem WellFormed.vacant_of_missing (h : files.WellFormed) (hmissing : files.isFolder p ≠ .ok true)
    (hparts : ∀ part ∈ p.parts, Path.isPart part = true ∧ part ≠ Path.dotDot) : files.Vacant p := by
  intro made d hensure hspot
  obtain ⟨d', hspot', hnames⟩ := (h.names_of_ensureFolders _ hparts hensure).resolve_left hmissing
  obtain ⟨rfl, -⟩ := Spot.mk.inj (Except.ok.inj (hspot.symm.trans hspot'))
  exact hnames

end Files

end SolidityBuild
