import SolidityBuild.Proofs.Files.Trees

/-!
Where paths lead. Parts lead from folder to folder, up, down or behind a link, to a location where something stands
or to a free one in an existing folder. This is a relation with one case for each kind of step, by which all else
is proved; the number in it is that of the links that may still be followed.
-/

set_option autoImplicit false

namespace SolidityBuild

/-- The path of a place below a folder. -/
def Path.under (folder : Path) (place : Location) : Path := ⟨folder.slashes, folder.parts ++ place⟩

namespace Files

variable {files files' : Files} {followLast : Bool} {links : Nat} {l : Location} {part : Text}
  {parts rest : List Text} {s : Spot}

/-- Where the target of a link starts. -/
def linkStart (l : Location) (target : Text) : Location := if target.head? = some Path.separator then [] else l

/-- What is left to walk behind a link. -/
def behind (target : Text) (rest : List Text) : List Text := Text.splitOn Path.separator target ++ rest

/-- Where parts lead from a location over at most so many links. -/
inductive Leads (files : Files) (followLast : Bool) : Nat → Location → List Text → Spot → Prop where
  | here (links : Nat) (l : Location) : Leads files followLast links l [] ⟨l, files.node? l⟩
  | skip {links : Nat} {l : Location} {part : Text} {rest : List Text} {s : Spot}
      (folder : files.node? l = some .folder) (blank : Path.isPart part = false)
      (further : Leads files followLast links l rest s) : Leads files followLast links l (part :: rest) s
  | up {links : Nat} {l : Location} {rest : List Text} {s : Spot} (folder : files.node? l = some .folder)
      (further : Leads files followLast links l.dropLast rest s) :
      Leads files followLast links l (Path.dotDot :: rest) s
  | free {links : Nat} {l : Location} {part : Text} (folder : files.node? l = some .folder) (name : IsName part)
      (nothing : files.node? (l ++ [part]) = none) :
      Leads files followLast links l [part] ⟨l ++ [part], none⟩
  | into {links : Nat} {l : Location} {part : Text} {rest : List Text} {s : Spot} {node : Node}
      (folder : files.node? l = some .folder) (name : IsName part)
      (there : files.node? (l ++ [part]) = some node) (plain : ∀ target, node ≠ .link target)
      (further : Leads files followLast links (l ++ [part]) rest s) :
      Leads files followLast links l (part :: rest) s
  | stay {links : Nat} {l : Location} {part target : Text} (folder : files.node? l = some .folder)
      (name : IsName part) (there : files.node? (l ++ [part]) = some (.link target)) (still : followLast = false) :
      Leads files followLast links l [part] ⟨l ++ [part], some (.link target)⟩
  | jump {links : Nat} {l : Location} {part target : Text} {rest : List Text} {s : Spot}
      (folder : files.node? l = some .folder) (name : IsName part)
      (there : files.node? (l ++ [part]) = some (.link target)) (follow : rest = [] → followLast = true)
      (further : Leads files followLast links (linkStart l target) (behind target rest) s) :
      Leads files followLast (links + 1) l (part :: rest) s

/-! ## Walking -/

theorem isFolderAt_iff : files.isFolderAt l = true ↔ files.node? l = some .folder := by
  rw [isFolderAt]
  split
  · next h => exact iff_of_true rfl h
  · next h => exact iff_of_false Bool.false_ne_true h

section Walking

variable {jump : Location → List Text → Except SystemCause Spot}

theorem walkParts_blank (hfolder : files.node? l = some .folder) (hblank : Path.isPart part = false) :
    files.walkParts followLast jump l (part :: rest) = files.walkParts followLast jump l rest := by
  rw [walkParts, isFolderAt_iff.mpr hfolder, hblank]
  rfl

theorem walkParts_up (hfolder : files.node? l = some .folder) :
    files.walkParts followLast jump l (Path.dotDot :: rest) = files.walkParts followLast jump l.dropLast rest := by
  have hname : Path.isPart Path.dotDot = true := by decide
  rw [walkParts, isFolderAt_iff.mpr hfolder, hname]
  rfl

/-- A name leads to what stands there, or to a free location if it is the last one. -/
theorem walkParts_name (hfolder : files.node? l = some .folder) (hname : IsName part) :
    files.walkParts followLast jump l (part :: rest) =
      match files.node? (l ++ [part]) with
      | none => if rest = [] then .ok ⟨l ++ [part], none⟩ else .error .notFound
      | some (.link target) =>
        if rest = [] ∧ !followLast then .ok ⟨l ++ [part], some (.link target)⟩
        else jump (linkStart l target) (behind target rest)
      | some _ => files.walkParts followLast jump (l ++ [part]) rest := by
  have hat : ¬ (!files.isFolderAt l) = true := by
    rw [isFolderAt_iff.mpr hfolder]
    exact Bool.false_ne_true
  have hpart : ¬ (!Path.isPart part) = true := by
    rw [hname.part]
    exact Bool.false_ne_true
  rw [walkParts, if_neg hat, if_neg hpart, if_neg hname.down, if_neg (Nat.not_lt.mpr hname.short)]
  rfl

theorem walkParts_plain (hfolder : files.node? l = some .folder) (hname : IsName part) {node : Node}
    (hthere : files.node? (l ++ [part]) = some node) (hplain : ∀ target, node ≠ .link target) :
    files.walkParts followLast jump l (part :: rest) = files.walkParts followLast jump (l ++ [part]) rest := by
  rw [walkParts_name hfolder hname, hthere]
  cases node with
  | link target => exact absurd rfl (hplain target)
  | folder | file _ | «sealed» => rfl

theorem walkParts_link (hfolder : files.node? l = some .folder) (hname : IsName part) {target : Text}
    (hthere : files.node? (l ++ [part]) = some (.link target)) (hfollow : rest = [] → followLast = true) :
    files.walkParts followLast jump l (part :: rest) = jump (linkStart l target) (behind target rest) := by
  rw [walkParts_name hfolder hname, hthere]
  refine if_neg ?_
  rintro ⟨hrest, hstill⟩
  rw [hfollow hrest] at hstill
  exact Bool.false_ne_true hstill

/-- What is walked is what the relation says, if that is so behind links. -/
theorem walkParts_eq_ok_iff (hjump : ∀ l parts s,
    jump l parts = .ok s ↔ ∃ links', links = links' + 1 ∧ Leads files followLast links' l parts s) :
    files.walkParts followLast jump l parts = .ok s ↔ Leads files followLast links l parts s := by
  constructor
  · intro hwalk
    induction parts generalizing l with
    | nil =>
      cases hwalk
      exact .here links l
    | cons part rest ih =>
      by_cases hfolder : files.node? l = some .folder
      · cases hpart : Path.isPart part with
        | false =>
          rw [walkParts_blank hfolder hpart] at hwalk
          exact .skip hfolder hpart (ih hwalk)
        | true =>
          by_cases hdown : part = Path.dotDot
          · subst hdown
            rw [walkParts_up hfolder] at hwalk
            exact .up hfolder (ih hwalk)
          by_cases hshort : Text.utf8Size part ≤ nameLimit
          · have hname : IsName part := ⟨hpart, hdown, hshort⟩
            rw [walkParts_name hfolder hname] at hwalk
            split at hwalk
            · next hnext =>
              split_ifs at hwalk with hrest
              subst hrest
              cases hwalk
              exact .free hfolder hname hnext
            · next target hnext =>
              split_ifs at hwalk with hstay
              · obtain ⟨hrest, hstill⟩ := hstay
                subst hrest
                cases hwalk
                exact .stay hfolder hname hnext (by simpa using hstill)
              · obtain ⟨links', rfl, hleads⟩ := (hjump _ _ _).mp hwalk
                refine .jump hfolder hname hnext (fun hrest => ?_) hleads
                by_contra hstill
                exact hstay ⟨hrest, by simpa using hstill⟩
            · next node hplain hnext =>
              exact .into hfolder hname hnext hplain (ih hwalk)
          · rw [walkParts, isFolderAt_iff.mpr hfolder, hpart, if_neg hdown, if_pos (Nat.not_le.mp hshort)] at hwalk
            cases hwalk
      · have hat : (!files.isFolderAt l) = true := by
          rw [Bool.not_eq_true', Bool.eq_false_iff]
          exact fun hat => hfolder (isFolderAt_iff.mp hat)
        rw [walkParts, if_pos hat] at hwalk
        cases hwalk
  · intro hleads
    induction hleads with
    | here links l => rfl
    | skip folder blank _ ih =>
      rw [walkParts_blank folder blank]
      exact ih hjump
    | up folder _ ih =>
      rw [walkParts_up folder]
      exact ih hjump
    | free folder name nothing =>
      rw [walkParts_name folder name, nothing]
      rfl
    | into folder name there plain _ ih =>
      rw [walkParts_plain folder name there plain]
      exact ih hjump
    | stay folder name there still =>
      rw [walkParts_name folder name, there, still]
      rfl
    | jump folder name there follow further _ =>
      rw [walkParts_link folder name there follow]
      exact (hjump _ _ _).mpr ⟨_, rfl, further⟩

/-- The induction is on the links that may be followed. -/
theorem walk_eq_ok_iff : files.walk followLast links l parts = .ok s ↔ Leads files followLast links l parts s := by
  induction links generalizing l parts s with
  | zero =>
    refine walkParts_eq_ok_iff fun l parts s => iff_of_false (fun h => nomatch h) ?_
    rintro ⟨links', h, -⟩
    exact absurd h (Nat.succ_ne_zero links').symm
  | succ links ih =>
    refine walkParts_eq_ok_iff fun l parts s => ?_
    rw [ih]
    constructor
    · exact fun h => ⟨links, rfl, h⟩
    · rintro ⟨links', h, hleads⟩
      rwa [Nat.succ.inj h]

end Walking

theorem hasNull_child (p : Path) (name : Text) : hasNull (p.child name) = (hasNull p || name.contains 0) := by
  rw [hasNull, Path.child, List.any_append, hasNull, List.any_cons, List.any_nil, Bool.or_false]

/-- **Where a path leads.** -/
theorem spot_eq_ok_iff (files : Files) (followLast : Bool) (p : Path) :
    files.spot followLast p = .ok s ↔
      hasNull p = false ∧ Text.utf8Size p.text < pathLimit ∧
        Leads files followLast linkLimit (files.start p) p.parts s := by
  rw [spot]
  split_ifs with hnull hlong
  · refine iff_of_false (fun heq => by cases heq) ?_
    rintro ⟨hfree, -, -⟩
    exact Bool.false_ne_true (hfree.symm.trans hnull)
  · refine iff_of_false (fun heq => by cases heq) ?_
    rintro ⟨-, hshort, -⟩
    exact Nat.not_lt.mpr hlong hshort
  · rw [← walk_eq_ok_iff]
    cases files.walk followLast linkLimit (files.start p) p.parts with
    | error cause =>
      refine iff_of_false (fun heq => by cases heq) ?_
      rintro ⟨-, -, heq⟩
      cases heq
    | ok s' =>
      have hnull' : hasNull p = false := Bool.eq_false_iff.mpr hnull
      constructor
      · intro heq
        exact ⟨hnull', Nat.not_le.mp hlong, congrArg Except.ok (Except.ok.inj heq)⟩
      · rintro ⟨-, -, heq⟩
        exact congrArg Except.ok (Except.ok.inj heq)

theorem WellFormed.node?_start (h : files.WellFormed) (p : Path) : files.node? (files.start p) = some .folder := by
  rw [start]
  split
  · exact node?_nil files
  · exact h.here

/-! ## Spots -/

namespace Leads

theorem node_eq (h : Leads files followLast links l parts s) : s.node = files.node? s.location := by
  induction h with
  | here _ _ => rfl
  | skip _ _ _ ih => exact ih
  | up _ _ ih => exact ih
  | free _ _ nothing => exact nothing.symm
  | into _ _ _ _ _ ih => exact ih
  | stay _ _ there _ => exact there.symm
  | jump _ _ _ _ _ ih => exact ih

end Leads

/-- Where a link leads, its target is read from a folder. -/
theorem node?_linkStart (hfolder : files.node? l = some .folder) (target : Text) :
    files.node? (linkStart l target) = some .folder := by
  rw [linkStart]
  split
  · exact node?_nil files
  · exact hfolder

theorem WellFormed.node?_dropLast (h : files.WellFormed) (hfolder : files.node? l = some .folder) :
    files.node? l.dropLast = some .folder := by
  by_cases hl : l = []
  · subst hl
    exact node?_nil files
  · exact h.parent l _ hl hfolder

namespace Leads

/-- A way from something that leads to a free location leads into a folder. -/
theorem exists_folder_of_free (hfiles : files.WellFormed) (h : Leads files followLast links l parts s)
    {node : Node} (hstart : files.node? l = some node) (hfree : s.node = none) :
    ∃ folder name, s.location = folder ++ [name] ∧ files.node? folder = some .folder ∧ IsName name := by
  induction h generalizing node with
  | here _ _ => exact nomatch hstart.symm.trans hfree
  | skip folder _ _ ih => exact ih folder hfree
  | up folder _ ih => exact ih (hfiles.node?_dropLast folder) hfree
  | free folder name _ => exact ⟨_, _, rfl, folder, name⟩
  | into _ _ there _ _ ih => exact ih there hfree
  | stay _ _ _ _ => exact nomatch hfree
  | jump folder _ _ _ _ ih => exact ih (node?_linkStart folder _) hfree

/-- A spot where no folder stands is in a folder. -/
theorem parent (hfiles : files.WellFormed) (h : Leads files followLast links l parts s)
    (hstart : files.node? l = some .folder) (hs : files.node? s.location ≠ some .folder) :
    s.location ≠ [] ∧ files.node? s.location.dropLast = some .folder := by
  cases hs' : s.node with
  | none =>
    obtain ⟨folder, name, heq, hfolder, -⟩ := h.exists_folder_of_free hfiles hstart hs'
    rw [heq, List.dropLast_concat]
    exact ⟨List.concat_ne_nil name folder, hfolder⟩
  | some node =>
    have hne : s.location ≠ [] := by
      intro heq
      rw [heq] at hs
      exact hs (node?_nil files)
    exact ⟨hne, hfiles.parent _ node hne (h.node_eq.symm.trans hs')⟩

/-- Every name of a spot is one that an entry may have. -/
theorem names (hfiles : files.WellFormed) (h : Leads files followLast links l parts s)
    (hstart : files.node? l = some .folder) : ∀ name ∈ s.location, IsName name := by
  cases hs : s.node with
  | some node => exact hfiles.names _ node (h.node_eq.symm.trans hs)
  | none =>
    obtain ⟨folder, name, heq, hfolder, hname⟩ := h.exists_folder_of_free hfiles hstart hs
    rw [heq]
    exact List.forall_mem_append.mpr ⟨hfiles.names _ _ hfolder, List.forall_mem_singleton.mpr hname⟩

/-- Where the last link is followed no link stands. -/
theorem unlinked (hfiles : files.WellFormed) (h : Leads files true links l parts s)
    (hstart : files.node? l = some .folder) (target : Text) : s.node ≠ some (.link target) := by
  have hall : ∀ node, files.node? l = some node → (∀ target, node ≠ .link target) →
      s.node ≠ some (.link target) := by
    clear hstart
    induction h with
    | here _ _ =>
      intro node hnode hplain heq
      exact hplain target (Option.some.inj (hnode.symm.trans heq))
    | skip folder _ _ ih => exact fun _ _ _ => ih _ folder fun _ h => nomatch h
    | up folder _ ih => exact fun _ _ _ => ih _ (hfiles.node?_dropLast folder) fun _ h => nomatch h
    | free _ _ _ => exact fun _ _ _ h => nomatch h
    | into _ _ there plain _ ih => exact fun _ _ _ => ih _ there plain
    | stay _ _ _ still => exact nomatch still
    | jump folder _ _ _ _ ih => exact fun _ _ _ => ih _ (node?_linkStart folder _) fun _ h => nomatch h
  exact hall _ hstart fun _ h => nomatch h

/-- A path that ends with a name leads to a location that ends with it, if a link there is not followed. -/
theorem last {name : Text} (hpart : Path.isPart name = true) (hdown : name ≠ Path.dotDot)
    (h : Leads files false links l parts s) (hlast : parts.getLast? = some name) :
    ∃ folder, s.location = folder ++ [name] := by
  induction h with
  | here _ _ => exact nomatch hlast
  | @skip _ _ part rest _ _ blank _ ih =>
    cases rest with
    | nil =>
      obtain rfl := Option.some.inj hlast
      exact nomatch blank.symm.trans hpart
    | cons part' rest => exact ih hlast
  | @up _ _ rest _ _ _ ih =>
    cases rest with
    | nil => exact absurd (Option.some.inj hlast).symm hdown
    | cons part' rest => exact ih hlast
  | free _ _ _ =>
    obtain rfl := Option.some.inj hlast
    exact ⟨_, rfl⟩
  | @into _ _ part rest _ _ _ _ _ _ further ih =>
    cases rest with
    | nil =>
      obtain rfl := Option.some.inj hlast
      cases further
      exact ⟨_, rfl⟩
    | cons part' rest => exact ih hlast
  | stay _ _ _ _ =>
    obtain rfl := Option.some.inj hlast
    exact ⟨_, rfl⟩
  | @jump _ _ part target rest _ _ _ _ follow _ ih =>
    -- there is more behind the link, as a link at the end is not followed
    cases rest with
    | nil => exact nomatch follow rfl
    | cons part' rest =>
      refine ih ?_
      rw [behind, List.getLast?_append_of_ne_nil _ (List.cons_ne_nil part' rest)]
      exact hlast

/-- A way on which the last link is followed is one on which it is not, up to that link. -/
theorem exists_still (h : Leads files true links l parts s) : ∃ s', Leads files false links l parts s' := by
  induction h with
  | here links l => exact ⟨_, .here links l⟩
  | skip folder blank _ ih =>
    obtain ⟨s', hs'⟩ := ih
    exact ⟨s', .skip folder blank hs'⟩
  | up folder _ ih =>
    obtain ⟨s', hs'⟩ := ih
    exact ⟨s', .up folder hs'⟩
  | free folder name nothing => exact ⟨_, .free folder name nothing⟩
  | into folder name there plain _ ih =>
    obtain ⟨s', hs'⟩ := ih
    exact ⟨s', .into folder name there plain hs'⟩
  | stay _ _ _ still => exact nomatch still
  | @jump _ _ _ target rest _ folder name there _ _ ih =>
    cases rest with
    | nil => exact ⟨_, .stay folder name there rfl⟩
    | cons part' rest =>
      obtain ⟨s', hs'⟩ := ih
      exact ⟨s', .jump folder name there (fun h => nomatch h) hs'⟩

/-- A way on which the last link is not followed leads to no link only if it is one on which it is followed. -/
theorem followed (h : Leads files false links l parts s) (hs : ∀ target, s.node ≠ some (.link target)) :
    Leads files true links l parts s := by
  induction h with
  | here links l => exact .here links l
  | skip folder blank _ ih => exact .skip folder blank (ih hs)
  | up folder _ ih => exact .up folder (ih hs)
  | free folder name nothing => exact .free folder name nothing
  | into folder name there plain _ ih => exact .into folder name there plain (ih hs)
  | stay _ _ _ _ => exact absurd rfl (hs _)
  | jump folder name there _ _ ih => exact .jump folder name there (fun _ => rfl) (ih hs)

end Leads

/-- What stands at a spot is what stands at its location. -/
theorem node?_of_spot {p : Path} (hspot : files.spot followLast p = .ok s) :
    files.node? s.location = s.node :=
  ((spot_eq_ok_iff files followLast p).mp hspot).2.2.node_eq.symm

/-- Where a path leads to no link, it leads there whether or not a link were followed. -/
theorem spot_followed {p : Path} (hspot : files.spot false p = .ok s)
    (hs : ∀ target, s.node ≠ some (.link target)) : files.spot followLast p = .ok s := by
  cases followLast with
  | false => exact hspot
  | true =>
    obtain ⟨hnull, hshort, hleads⟩ := (spot_eq_ok_iff files false p).mp hspot
    exact (spot_eq_ok_iff files true p).mpr ⟨hnull, hshort, hleads.followed hs⟩

theorem exists_spot_still {p : Path} (hspot : files.spot true p = .ok s) : ∃ s', files.spot false p = .ok s' := by
  obtain ⟨hnull, hshort, hleads⟩ := (spot_eq_ok_iff files true p).mp hspot
  obtain ⟨s', hs'⟩ := hleads.exists_still
  exact ⟨s', (spot_eq_ok_iff files false p).mpr ⟨hnull, hshort, hs'⟩⟩

/-! ## Trees that keep their folders and links -/

/-- A tree in which every folder and every link of another one is what it was, and relative paths start in the
same folder. -/
structure Keeps (files files' : Files) : Prop where
  here : files'.here = files.here
  folder : ∀ l, files.node? l = some .folder → files'.node? l = some .folder
  link : ∀ l target, files.node? l = some (.link target) → files'.node? l = some (.link target)

namespace Keeps

theorem refl (files : Files) : Keeps files files := ⟨rfl, fun _ h => h, fun _ _ h => h⟩

theorem trans {files₁ files₂ files₃ : Files} (h : Keeps files₁ files₂) (h' : Keeps files₂ files₃) :
    Keeps files₁ files₃ :=
  ⟨h'.here.trans h.here, fun l hl => h'.folder l (h.folder l hl), fun l t hl => h'.link l t (h.link l t hl)⟩

theorem start (h : Keeps files files') (p : Path) : files'.start p = files.start p := by
  rw [Files.start, Files.start, h.here]

end Keeps

namespace Leads

/-- A name leads to what stands there, unless a link there is followed. -/
theorem name (hfolder : files.node? l = some .folder) (hname : IsName part)
    (hlink : ∀ target, files.node? (l ++ [part]) = some (.link target) → followLast = false) :
    Leads files followLast links l [part] ⟨l ++ [part], files.node? (l ++ [part])⟩ := by
  cases hnode : files.node? (l ++ [part]) with
  | none => exact .free hfolder hname hnode
  | some node =>
    cases node with
    | link target => exact .stay hfolder hname hnode (hlink target hnode)
    | folder | file _ | «sealed» =>
      refine .into hfolder hname hnode (fun _ h => nomatch h) ?_
      rw [← hnode]
      exact .here _ _

/-- What leads to a location leads there in a tree that keeps the folders and the links, unless a link has come to
stand there that is followed. -/
theorem keeps (h : Leads files followLast links l parts s) (hkeeps : Keeps files files')
    (hlink : ∀ target, files'.node? s.location = some (.link target) → followLast = false) :
    Leads files' followLast links l parts ⟨s.location, files'.node? s.location⟩ := by
  induction h with
  | here links l => exact .here links l
  | skip folder blank _ ih => exact .skip (hkeeps.folder _ folder) blank (ih hlink)
  | up folder _ ih => exact .up (hkeeps.folder _ folder) (ih hlink)
  | free folder hname _ => exact .name (hkeeps.folder _ folder) hname hlink
  | @into _ l part rest _ node folder hname there plain further ih =>
    by_cases hnode : node = .folder
    · subst hnode
      exact .into (hkeeps.folder _ folder) hname (hkeeps.folder _ there) plain (ih hlink)
    · -- the way ends where no folder stands
      cases further with
      | here _ _ => exact .name (hkeeps.folder _ folder) hname hlink
      | skip folder' | up folder' | free folder' | into folder' | stay folder' | jump folder' =>
        exact absurd (Option.some.inj (there.symm.trans folder')) hnode
  | @stay _ l part target folder hname there still =>
    have hthere := hkeeps.link _ _ there
    dsimp only
    rw [hthere]
    exact .stay (hkeeps.folder _ folder) hname hthere still
  | jump folder hname there follow _ ih =>
    exact .jump (hkeeps.folder _ folder) hname (hkeeps.link _ _ there) follow (ih hlink)

end Leads

/-- **A path that leads to a location leads there in a tree that keeps the folders and the links.** -/
theorem spot_keeps (hkeeps : Keeps files files') {p : Path} (hspot : files.spot followLast p = .ok s)
    (hlink : ∀ target, files'.node? s.location = some (.link target) → followLast = false) :
    files'.spot followLast p = .ok ⟨s.location, files'.node? s.location⟩ := by
  obtain ⟨hnull, hshort, hleads⟩ := (spot_eq_ok_iff files followLast p).mp hspot
  refine (spot_eq_ok_iff files' followLast p).mpr ⟨hnull, hshort, ?_⟩
  rw [hkeeps.start]
  exact hleads.keeps hkeeps hlink

/-- A path that leads to a folder leads to it then. -/
theorem Keeps.spot_folder (h : Keeps files files') {p : Path} (hspot : files.spot true p = .ok ⟨l, some .folder⟩) :
    files'.spot true p = .ok ⟨l, some .folder⟩ := by
  have hl := h.folder l (node?_of_spot hspot)
  rw [← hl]
  exact spot_keeps h hspot fun _ hlink => nomatch hl.symm.trans hlink

/-- A path leads to what it led to, if that still stands there. -/
theorem WellFormed.spot_still (h : files.WellFormed) (hkeeps : Keeps files files') {p : Path}
    (hspot : files.spot true p = .ok s) (hstill : files'.node? s.location = s.node) :
    files'.spot true p = .ok s := by
  have hplain := ((spot_eq_ok_iff files true p).mp hspot).2.2.unlinked h (h.node?_start p)
  have hkept := spot_keeps hkeeps hspot fun target hl => absurd (hstill.symm.trans hl) (hplain target)
  rwa [hstill] at hkept

/-! ## Paths below a folder -/

/-- Behind a path that leads to a folder, what follows it is walked from there. -/
theorem Leads.append (h : Leads files true links l parts s) (hs : s.node = some .folder) :
    ∃ links', ∀ followLast rest s', rest ≠ [] → Leads files followLast links' s.location rest s' →
      Leads files followLast links l (parts ++ rest) s' := by
  induction h with
  | here links l => exact ⟨links, fun _ _ _ _ h => h⟩
  | skip folder blank _ ih =>
    obtain ⟨links', h⟩ := ih hs
    exact ⟨links', fun _ _ _ hrest hleads => .skip folder blank (h _ _ _ hrest hleads)⟩
  | up folder _ ih =>
    obtain ⟨links', h⟩ := ih hs
    exact ⟨links', fun _ _ _ hrest hleads => .up folder (h _ _ _ hrest hleads)⟩
  | free _ _ _ => exact nomatch hs
  | into folder hname there plain _ ih =>
    obtain ⟨links', h⟩ := ih hs
    exact ⟨links', fun _ _ _ hrest hleads => .into folder hname there plain (h _ _ _ hrest hleads)⟩
  | stay _ _ _ still => exact nomatch still
  | @jump _ _ _ target rest _ folder hname there _ _ ih =>
    obtain ⟨links', h⟩ := ih hs
    refine ⟨links', fun _ rest' _ hrest hleads => .jump folder hname there ?_ ?_⟩
    · exact fun hnil => absurd (List.append_eq_nil_iff.mp hnil).2 hrest
    · change Leads _ _ _ _ (behind target (rest ++ rest')) _
      rw [behind, ← List.append_assoc]
      exact h _ _ _ hrest hleads

/-- Names lead down from folder to folder. -/
theorem Leads.down (hfiles : files.WellFormed) {place : Location} {name : Text}
    (hfolder : files.node? (l ++ place) = some .folder) (hname : IsName name)
    (hlink : ∀ target, files.node? (l ++ place ++ [name]) = some (.link target) → followLast = false) :
    Leads files followLast links l (place ++ [name])
      ⟨l ++ place ++ [name], files.node? (l ++ place ++ [name])⟩ := by
  induction place generalizing l with
  | nil =>
    rw [List.append_nil] at hfolder hlink ⊢
    exact .name hfolder hname hlink
  | cons part place ih =>
    have hassoc : l ++ (part :: place) = (l ++ [part]) ++ place := by
      rw [List.append_assoc, List.singleton_append]
    have hpart : IsName part :=
      hfiles.names _ _ hfolder part (List.mem_append_right l List.mem_cons_self)
    have habove : files.node? l = some .folder := by
      refine hfiles.folder_above hfolder (List.prefix_append l _) fun heq => ?_
      exact List.cons_ne_nil part place (List.self_eq_append_right.mp heq)
    rw [hassoc] at hfolder hlink ⊢
    have hnext : files.node? (l ++ [part]) = some .folder := by
      by_cases hplace : place = []
      · rwa [hplace, List.append_nil] at hfolder
      · refine hfiles.folder_above hfolder (List.prefix_append _ place) fun heq => hplace ?_
        exact List.self_eq_append_right.mp heq
    exact .into habove hpart hnext (fun _ h => nomatch h) (ih hfolder hlink)

/-- **Where the path of a place below a folder leads**, unless it is no path or too long. -/
theorem spot_under (followLast : Bool) (hfiles : files.WellFormed) {folder : Path} {d place : Location}
    {name : Text} (hfolder : files.spot true folder = .ok ⟨d, some .folder⟩)
    (habove : files.node? (d ++ place) = some .folder) (hname : IsName name)
    (hlink : ∀ target, files.node? (d ++ place ++ [name]) = some (.link target) → followLast = false) :
    files.spot followLast (folder.under (place ++ [name])) =
      if hasNull (folder.under (place ++ [name])) then .error .nullInPath
      else if pathLimit ≤ Text.utf8Size (folder.under (place ++ [name])).text then
        .error (fault .nameTooLong (folder.under (place ++ [name])))
      else .ok ⟨d ++ place ++ [name], files.node? (d ++ place ++ [name])⟩ := by
  obtain ⟨links, hfurther⟩ := ((spot_eq_ok_iff files true folder).mp hfolder).2.2.append rfl
  have hleads := hfurther followLast _ _ (List.concat_ne_nil name place) (.down hfiles habove hname hlink)
  have hwalk : files.walk followLast linkLimit (files.start (folder.under (place ++ [name])))
      (folder.under (place ++ [name])).parts = .ok ⟨d ++ place ++ [name], files.node? (d ++ place ++ [name])⟩ :=
    walk_eq_ok_iff.mpr hleads
  rw [spot, hwalk]

/-- Where the path of an entry of a folder leads. -/
theorem spot_child (followLast : Bool) (hfiles : files.WellFormed) {folder : Path} {d : Location} {name : Text}
    (hfolder : files.spot true folder = .ok ⟨d, some .folder⟩) (hname : IsName name)
    (hlink : ∀ target, files.node? (d ++ [name]) = some (.link target) → followLast = false) :
    files.spot followLast (folder.child name) =
      if hasNull (folder.child name) then .error .nullInPath
      else if pathLimit ≤ Text.utf8Size (folder.child name).text then
        .error (fault .nameTooLong (folder.child name))
      else .ok ⟨d ++ [name], files.node? (d ++ [name])⟩ := by
  have habove : files.node? (d ++ []) = some .folder := by
    rw [List.append_nil]
    exact node?_of_spot hfolder
  have hunder := spot_under followLast hfiles hfolder habove hname (by rwa [List.append_nil])
  rwa [List.append_nil] at hunder

end Files

end SolidityBuild
