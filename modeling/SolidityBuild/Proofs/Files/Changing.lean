import SolidityBuild.Proofs.Files.Leading

/-!
What the operations on files do. Making folders adds folders where nothing stood; a file is put where a path
leads, in a folder that exists, and what was put at a location, or taken from it, is all that changes.
-/

set_option autoImplicit false

namespace SolidityBuild

namespace Files

variable {files files' : Files} {l : Location} {p : Path}

/-! ## Trees that grow -/

/-- A tree with further folders where nothing stood in another one. -/
structure Deepens (files files' : Files) : Prop where
  here : files'.here = files.here
  node : ∀ l, files'.node? l = files.node? l ∨ files.node? l = none ∧ files'.node? l = some .folder

namespace Deepens

theorem refl (files : Files) : Deepens files files := ⟨rfl, fun _ => .inl rfl⟩

theorem trans {files₁ files₂ files₃ : Files} (h : Deepens files₁ files₂) (h' : Deepens files₂ files₃) :
    Deepens files₁ files₃ := by
  refine ⟨h'.here.trans h.here, fun l => ?_⟩
  rcases h.node l with hl | ⟨hfree, hl⟩
  · rw [← hl]
    exact h'.node l
  · rcases h'.node l with hl' | ⟨hfree', -⟩
    · exact .inr ⟨hfree, hl'.trans hl⟩
    · exact nomatch hl.symm.trans hfree'

theorem put (files : Files) (hne : l ≠ []) (hl : files.node? l = none) : Deepens files (files.put l .folder) := by
  refine ⟨rfl, fun l' => ?_⟩
  by_cases heq : l' = l
  · subst heq
    exact .inr ⟨hl, node?_put_self files hne .folder⟩
  · exact .inl (node?_put_of_ne heq .folder)

theorem still (h : Deepens files files') {node : Node} (hl : files.node? l = some node) :
    files'.node? l = some node := by
  rcases h.node l with heq | ⟨hfree, -⟩
  · exact heq.trans hl
  · exact nomatch hfree.symm.trans hl

theorem keeps (h : Deepens files files') : Keeps files files' :=
  ⟨h.here, fun _ hl => h.still hl, fun _ _ hl => h.still hl⟩

end Deepens

/-- A tree that differs from another one at a location and below it only. -/
structure DiffersAt (l : Location) (files files' : Files) : Prop where
  here : files'.here = files.here
  elsewhere : ∀ l', ¬ l <+: l' → files'.node? l' = files.node? l'

namespace DiffersAt

theorem put (files : Files) (l : Location) (node : Node) : DiffersAt l files (files.put l node) := by
  refine ⟨rfl, fun l' hl' => node?_put_of_ne ?_ node⟩
  rintro rfl
  exact hl' (List.prefix_refl l')

theorem erase (files : Files) (l : Location) : DiffersAt l files (files.erase l) :=
  ⟨rfl, fun _ hl' => node?_erase hl'⟩

theorem trans {files₁ files₂ files₃ : Files} (h : DiffersAt l files₁ files₂) (h' : DiffersAt l files₂ files₃) :
    DiffersAt l files₁ files₃ :=
  ⟨h'.here.trans h.here, fun l' hl' => (h'.elsewhere l' hl').trans (h.elsewhere l' hl')⟩

/-- Where nothing stood and nothing stands, there is no difference. -/
theorem node?_eq (h : DiffersAt l files files') (hfiles : files.WellFormed) (hl : files.node? l = none)
    (hgone : ∀ {l'}, l' ≠ [] → l <+: l' → files'.node? l' = none) (l' : Location) :
    files'.node? l' = files.node? l' := by
  by_cases hbelow : l <+: l'
  · have hl' : l' ≠ [] := by
      rintro rfl
      rw [List.prefix_nil.mp hbelow, node?_nil] at hl
      exact nomatch hl
    rw [hgone hl' hbelow, hfiles.free_below hl hbelow]
  · exact h.elsewhere l' hbelow

end DiffersAt

/-! ## Looking -/

theorem target_of_spot {node : Node} (hspot : files.spot true p = .ok ⟨l, some node⟩) :
    files.target p = .ok node := by
  rw [target, hspot]
  rfl

theorem exists_spot_of_target {node : Node} (htarget : files.target p = .ok node) :
    ∃ l, files.spot true p = .ok ⟨l, some node⟩ := by
  rw [target] at htarget
  rcases hspot : files.spot true p with fault | ⟨l, _ | node'⟩
  · rw [hspot] at htarget
    cases htarget
  · rw [hspot] at htarget
    cases htarget
  · rw [hspot] at htarget
    cases htarget
    exact ⟨l, rfl⟩

theorem holds_of_spot {node : Node} (hspot : files.spot true p = .ok ⟨l, some node⟩) (test : Node → Bool) :
    files.holds test p = .ok (test node) := by
  rw [holds, target_of_spot hspot]

/-- What passes a test stands somewhere. -/
theorem exists_spot_of_holds {test : Node → Bool} (hholds : files.holds test p = .ok true) :
    ∃ l node, files.spot true p = .ok ⟨l, some node⟩ ∧ test node = true := by
  cases hspot : files.spot true p with
  | error fault =>
    rw [holds, target, hspot] at hholds
    cases fault with
    | nullInPath => cases hholds
    | system fault =>
      change (if fault.cause = .nameTooLong then Except.error (FileFault.system fault) else .ok false) =
        _ at hholds
      split_ifs at hholds
      cases hholds
  | ok s =>
    obtain ⟨l, node⟩ := s
    cases node with
    | none =>
      rw [holds, target, hspot] at hholds
      cases hholds
    | some node =>
      rw [holds_of_spot hspot] at hholds
      exact ⟨l, node, rfl, Except.ok.inj hholds⟩

theorem isFolder_iff : files.isFolder p = .ok true ↔ ∃ l, files.spot true p = .ok ⟨l, some .folder⟩ := by
  constructor
  · intro hfolder
    obtain ⟨l, node, hspot, hnode⟩ := exists_spot_of_holds hfolder
    cases node with
    | folder => exact ⟨l, hspot⟩
    | _ => exact nomatch hnode
  · rintro ⟨l, hspot⟩
    exact holds_of_spot hspot _

/-- Looking does not tell trees apart in which a path leads to the same. -/
theorem target_congr (h : files'.spot true p = files.spot true p) : files'.target p = files.target p := by
  rw [target, target, h]

theorem holds_congr (h : files'.spot true p = files.spot true p) (test : Node → Bool) :
    files'.holds test p = files.holds test p := by
  rw [holds, holds, target_congr h]

theorem readText_congr (h : files'.spot true p = files.spot true p) : files'.readText p = files.readText p := by
  rw [readText, readText, readOctets, readOctets, target_congr h]

/-! ## Folders -/

/-- A new folder is made at a free location in a folder, and the path leads to it then. -/
theorem WellFormed.makeFolder_ok (h : files.WellFormed) (hmake : files.makeFolder p = .ok files') :
    ∃ l, files.spot false p = .ok ⟨l, none⟩ ∧ files' = files.put l .folder ∧ files'.WellFormed ∧
      Deepens files files' ∧ files'.spot true p = .ok ⟨l, some .folder⟩ := by
  rw [makeFolder] at hmake
  cases hspot : files.spot false p with
  | error fault =>
    rw [hspot] at hmake
    cases hmake
  | ok s =>
    rw [hspot] at hmake
    obtain ⟨-, -, hleads⟩ := (spot_eq_ok_iff files false p).mp hspot
    obtain ⟨l, node⟩ := s
    cases node with
    | some node => cases hmake
    | none =>
      cases hmake
      have hfree : files.node? l = none := hleads.node_eq.symm
      have hfolder : files.node? l ≠ some .folder := by
        rw [hfree]
        exact (Option.some_ne_none _).symm
      obtain ⟨hne, hparent⟩ := hleads.parent h (h.node?_start p) hfolder
      have hdeepens := Deepens.put files hne hfree
      have hput := node?_put_self files hne .folder
      have hfollowed : files.spot true p = .ok ⟨l, none⟩ := spot_followed hspot fun _ h => nomatch h
      refine ⟨l, rfl, rfl, h.put hne hparent (hleads.names h (h.node?_start p)) hfolder .folder, hdeepens, ?_⟩
      rw [← hput]
      exact spot_keeps hdeepens.keeps hfollowed fun _ h => nomatch hput.symm.trans h

/-- Making one folder makes it, or finds it there, or fails, and then nothing is changed. -/
theorem ensureFolder_cases (files : Files) (p : Path) :
    (∃ made, files.makeFolder p = .ok made ∧ files.ensureFolder p = (made, .ok ())) ∨
      (files.isFolder p = .ok true ∧ files.ensureFolder p = (files, .ok ())) ∨
        ∃ fault, files.ensureFolder p = (files, .error fault) := by
  rw [ensureFolder]
  cases files.makeFolder p with
  | ok made => exact .inl ⟨made, rfl, rfl⟩
  | error fault =>
    cases fault with
    | nullInPath => exact .inr (.inr ⟨_, rfl⟩)
    | system fault =>
      dsimp only
      split_ifs
      · exact .inr (.inr ⟨_, rfl⟩)
      · cases files.isFolder p with
        | error fault' => exact .inr (.inr ⟨_, rfl⟩)
        | ok found =>
          cases found with
          | true => exact .inr (.inl ⟨rfl, rfl⟩)
          | false => exact .inr (.inr ⟨_, rfl⟩)

theorem WellFormed.ensureFolder_spec (h : files.WellFormed) {outcome : Except FileFault Unit}
    (hensure : files.ensureFolder p = (files', outcome)) :
    files'.WellFormed ∧ Deepens files files' ∧ (outcome = .ok () → files'.isFolder p = .ok true) := by
  rcases files.ensureFolder_cases p with ⟨made, hmake, heq⟩ | ⟨hfolder, heq⟩ | ⟨fault, heq⟩
  · obtain ⟨rfl, rfl⟩ := Prod.ext_iff.mp (heq.symm.trans hensure)
    obtain ⟨l, -, -, hmade, hdeepens, hspot⟩ := h.makeFolder_ok hmake
    exact ⟨hmade, hdeepens, fun _ => isFolder_iff.mpr ⟨l, hspot⟩⟩
  · obtain ⟨rfl, rfl⟩ := Prod.ext_iff.mp (heq.symm.trans hensure)
    exact ⟨h, .refl _, fun _ => hfolder⟩
  · obtain ⟨rfl, rfl⟩ := Prod.ext_iff.mp (heq.symm.trans hensure)
    exact ⟨h, .refl _, fun heq => nomatch heq⟩

/-- The induction is on the levels of folders that may be missing. -/
theorem WellFormed.ensureFolders_spec (levels : Nat) (h : files.WellFormed) {outcome : Except FileFault Unit}
    (hensure : ensureFolders levels files p = (files', outcome)) :
    files'.WellFormed ∧ Deepens files files' ∧ (outcome = .ok () → files'.isFolder p = .ok true) := by
  induction levels generalizing files files' p outcome with
  | zero => exact h.ensureFolder_spec hensure
  | succ levels ih =>
    rw [ensureFolders] at hensure
    rcases hfirst : files.ensureFolder p with ⟨files₁, outcome₁⟩
    obtain ⟨hfiles₁, hdeepens, hfolder⟩ := h.ensureFolder_spec hfirst
    rw [hfirst] at hensure
    cases outcome₁ with
    | ok _ =>
      cases hensure
      exact ⟨hfiles₁, hdeepens, fun _ => hfolder rfl⟩
    | error fault =>
      dsimp only at hensure
      split_ifs at hensure
      · -- the folder above first, then this one
        rcases habove : ensureFolders levels files₁ p.parent with ⟨files₂, outcome₂⟩
        obtain ⟨hfiles₂, hdeepens', -⟩ := ih hfiles₁ habove
        rw [habove] at hensure
        cases outcome₂ with
        | error fault' =>
          cases hensure
          exact ⟨hfiles₂, hdeepens.trans hdeepens', fun heq => by cases heq⟩
        | ok _ =>
          obtain ⟨hfiles', hdeepens'', hfolder'⟩ := hfiles₂.ensureFolder_spec hensure
          exact ⟨hfiles', (hdeepens.trans hdeepens').trans hdeepens'', hfolder'⟩
      · cases hensure
        exact ⟨hfiles₁, hdeepens, fun heq => by cases heq⟩

/-- **Making a folder and those above it** adds folders to a tree; if it succeeds, the folder is there. -/
theorem WellFormed.ensurePath_spec (h : files.WellFormed) {outcome : Except FileFault Unit}
    (hensure : files.ensurePath p = (files', outcome)) :
    files'.WellFormed ∧ Deepens files files' ∧ (outcome = .ok () → files'.isFolder p = .ok true) :=
  h.ensureFolders_spec _ hensure

/-- A folder that is there need not be made. -/
theorem ensurePath_of_folder (hfolder : files.isFolder p = .ok true) : files.ensurePath p = (files, .ok ()) := by
  obtain ⟨l, hspot⟩ := isFolder_iff.mp hfolder
  obtain ⟨⟨l', node⟩, hstill⟩ := exists_spot_still hspot
  have hmake : files.makeFolder p = .error (fault .alreadyThere p) := by
    cases node with
    | none => exact nomatch (spot_followed hstill fun _ h => nomatch h).symm.trans hspot
    | some node =>
      rw [makeFolder, hstill]
      rfl
  have hensure : files.ensureFolder p = (files, .ok ()) := by
    rw [ensureFolder, hmake]
    change (if SystemCause.alreadyThere = .notFound then _ else _) = _
    rw [if_neg (by decide), hfolder]
  rw [ensurePath, ensureFolders, hensure]

theorem isMissing_fault (cause : SystemCause) (p : Path) :
    isMissing (fault cause p) = decide (cause = .notFound) := rfl

/-- A test fails only on a path that is too long, which is no missing one. -/
theorem isMissing_of_holds {test : Node → Bool} {fault : FileFault} (h : files.holds test p = .error fault) :
    isMissing fault = false := by
  rw [holds] at h
  cases htarget : files.target p with
  | ok node =>
    rw [htarget] at h
    exact nomatch h
  | error fault' =>
    rw [htarget] at h
    cases fault' with
    | nullInPath => exact nomatch h
    | system f =>
      change (if f.cause = .nameTooLong then Except.error (FileFault.system f) else .ok false) = _ at h
      split_ifs at h with hlong
      cases h
      rw [isMissing, hlong]
      rfl

/-- Something is missing only where the way to the path is broken. -/
theorem spot_of_missing {fault : FileFault} (hensure : (files.ensureFolder p).2 = .error fault)
    (hmissing : isMissing fault = true) : files.spot false p = .error fault := by
  rw [ensureFolder] at hensure
  cases hmake : files.makeFolder p with
  | ok made =>
    rw [hmake] at hensure
    exact nomatch hensure
  | error fault' =>
    rw [hmake] at hensure
    have hsame : fault' = fault := by
      cases fault' with
      | nullInPath =>
        cases hensure
        exact absurd hmissing Bool.false_ne_true
      | system f =>
        dsimp only at hensure
        split_ifs at hensure
        · exact Except.error.inj hensure
        · cases hfolder : files.isFolder p with
          | error fault'' =>
            rw [hfolder] at hensure
            rw [← Except.error.inj hensure, isMissing_of_holds hfolder] at hmissing
            exact absurd hmissing Bool.false_ne_true
          | ok found =>
            rw [hfolder] at hensure
            cases found with
            | true => exact nomatch hensure
            | false => exact Except.error.inj hensure
    subst hsame
    rw [makeFolder] at hmake
    cases hspot : files.spot false p with
    | error fault =>
      rw [hspot] at hmake
      rw [← Except.error.inj hmake]
    | ok s =>
      obtain ⟨l, node⟩ := s
      rw [hspot] at hmake
      cases node with
      | none => exact nomatch hmake
      | some node =>
        cases hmake
        rw [isMissing_fault] at hmissing
        exact absurd hmissing (by decide)

/-- A folder in one that is there is made there, if it is missing, and nothing else is. -/
theorem WellFormed.ensurePath_child (h : files.WellFormed) {folder : Path} {d : Location} {name : Text}
    (hfolder : files.spot true folder = .ok ⟨d, some .folder⟩) (hname : IsName name)
    (hensure : files.ensurePath (folder.child name) = (files', .ok ())) :
    files' = files ∨ files.node? (d ++ [name]) = none ∧ files' = files.put (d ++ [name]) .folder := by
  have hspot := spot_child false h hfolder hname fun _ _ => rfl
  rw [ensurePath, ensureFolders] at hensure
  rcases files.ensureFolder_cases (folder.child name) with ⟨made, hmake, heq⟩ | ⟨-, heq⟩ | ⟨fault, heq⟩
  · obtain ⟨l, hl, rfl, -⟩ := h.makeFolder_ok hmake
    rw [heq] at hensure
    cases hensure
    rw [hspot] at hl
    split_ifs at hl
    obtain ⟨rfl, hfree⟩ := Spot.mk.inj (Except.ok.inj hl)
    exact .inr ⟨hfree, rfl⟩
  · rw [heq] at hensure
    cases hensure
    exact .inl rfl
  · -- the way to it is not broken, so nothing above it is made
    have hpresent : isMissing fault = false := by
      by_contra hmissing
      have hbroken := spot_of_missing (congrArg Prod.snd heq) (Bool.not_eq_false _ ▸ hmissing)
      rw [hspot] at hbroken
      split_ifs at hbroken
      · cases hbroken
        exact hmissing rfl
      · cases hbroken
        rw [isMissing_fault] at hmissing
        exact hmissing (by decide)
    rw [heq] at hensure
    dsimp only at hensure
    rw [hpresent, if_neg (fun h => Bool.false_ne_true h.1)] at hensure
    exact nomatch (Prod.ext_iff.mp hensure).2

/-! ## Files -/

/-- **Writing a file** puts it where the path leads, in the place of what is neither a folder nor a link. -/
theorem WellFormed.write_ok (h : files.WellFormed) {octets : Octets} (hwrite : files.write p octets = .ok files') :
    ∃ l, files.spot true p = .ok ⟨l, files.node? l⟩ ∧ files.node? l ≠ some .folder ∧
      files' = files.put l (.file octets) ∧ files'.node? l = some (.file octets) ∧ files'.WellFormed ∧
      Keeps files files' := by
  rw [write] at hwrite
  cases hspot : files.spot true p with
  | error fault =>
    rw [hspot] at hwrite
    cases hwrite
  | ok s =>
    obtain ⟨-, -, hleads⟩ := (spot_eq_ok_iff files true p).mp hspot
    obtain ⟨l, node⟩ := s
    have hnode : files.node? l = node := hleads.node_eq.symm
    have hplain := hleads.unlinked h (h.node?_start p)
    rw [hspot] at hwrite
    have hput : node ≠ some .folder ∧ files' = files.put l (.file octets) := by
      cases node with
      | none =>
        cases hwrite
        exact ⟨(Option.some_ne_none _).symm, rfl⟩
      | some node =>
        cases node with
        | folder | «sealed» => cases hwrite
        | file _ | link _ =>
          cases hwrite
          exact ⟨(by rintro ⟨⟩), rfl⟩
    obtain ⟨hfolder, rfl⟩ := hput
    dsimp only at hplain
    rw [← hnode] at hfolder hplain
    obtain ⟨hne, hparent⟩ := hleads.parent h (h.node?_start p) hfolder
    refine ⟨l, by rw [hnode], hfolder, rfl, node?_put_self files hne _,
      h.put hne hparent (hleads.names h (h.node?_start p)) hfolder _, rfl, ?_, ?_⟩
    · exact fun l' hl' => node?_put_folder hfolder _ hl'
    · intro l' target hl'
      rw [node?_put_of_ne ?_, hl']
      rintro rfl
      exact hplain target hl'

/-- A path leads to the file that was written to it. -/
theorem WellFormed.spot_of_write (h : files.WellFormed) {octets : Octets} (hwrite : files.write p octets = .ok files') :
    ∃ l, files'.spot true p = .ok ⟨l, some (.file octets)⟩ := by
  obtain ⟨l, hspot, -, -, hput, -, hkeeps⟩ := h.write_ok hwrite
  have hspot' := spot_keeps hkeeps hspot fun target hlink => nomatch hlink.symm.trans hput
  dsimp only at hspot'
  rw [hput] at hspot'
  exact ⟨l, hspot'⟩

/-- A file that is there can be written, and it is read as it was written. -/
theorem WellFormed.exists_write (h : files.WellFormed) {octets : Octets} (htarget : files.target p = .ok (.file octets))
    (octets' : Octets) : ∃ files', files.write p octets' = .ok files' ∧ files'.target p = .ok (.file octets') := by
  obtain ⟨l, hspot⟩ := exists_spot_of_target htarget
  have hwrite : files.write p octets' = .ok (files.put l (.file octets')) := by
    rw [write, hspot]
    rfl
  obtain ⟨l', hspot'⟩ := h.spot_of_write hwrite
  exact ⟨_, hwrite, target_of_spot hspot'⟩

theorem discard_of_spot {node : Node} (hspot : files.spot false p = .ok ⟨l, some node⟩) :
    files.discard p = files.erase l := by
  rw [discard, hspot]

/-- **Moving a file** takes it from where it stands and puts it where the other path leads, in the place of what
is no folder. -/
theorem WellFormed.move_ok (h : files.WellFormed) {source target : Path} {octets : Octets}
    (hsource : files.spot false source = .ok ⟨l, some (.file octets)⟩)
    (hmove : files.move source target = .ok files') :
    ∃ g, files.spot false target = .ok ⟨g, files.node? g⟩ ∧ files.node? g ≠ some .folder ∧
      files' = (files.erase l).put g (.file octets) ∧ files'.node? g = some (.file octets) ∧
      files'.WellFormed := by
  cases hgoal : files.spot false target with
  | error fault =>
    simp only [move, hsource, hgoal] at hmove
    cases fault <;> cases hmove
  | ok goal =>
    obtain ⟨-, -, horigin⟩ := (spot_eq_ok_iff files false source).mp hsource
    obtain ⟨-, -, hleads⟩ := (spot_eq_ok_iff files false target).mp hgoal
    obtain ⟨g, node⟩ := goal
    have hnode : files.node? g = node := hleads.node_eq.symm
    have hput : node ≠ some .folder ∧ files' = (files.erase l).put g (.file octets) := by
      simp only [move, hsource, hgoal] at hmove
      cases node with
      | none =>
        cases hmove
        exact ⟨(Option.some_ne_none _).symm, rfl⟩
      | some node =>
        cases node with
        | folder => cases hmove
        | file _ | «sealed» | link _ =>
          cases hmove
          exact ⟨(by rintro ⟨⟩), rfl⟩
    obtain ⟨hfolder, rfl⟩ := hput
    rw [← hnode] at hfolder
    have hfile : files.node? l ≠ some .folder := by
      rw [← horigin.node_eq]
      exact fun heq => by cases heq
    obtain ⟨hne, hparent⟩ := hleads.parent h (h.node?_start target) hfolder
    -- first the file is taken away, then it is put
    have herased := h.erase hfile
    have hfolder' : (files.erase l).node? g ≠ some .folder := by
      by_cases hbelow : l <+: g
      · rw [node?_erase_below hne hbelow]
        exact (Option.some_ne_none _).symm
      · rwa [node?_erase hbelow]
    refine ⟨g, by rw [hnode], hfolder, rfl, node?_put_self _ hne _, herased.put hne
      (h.node?_erase_folder hfile hparent) (hleads.names h (h.node?_start target)) hfolder' _⟩

/-! ## Trees without links -/

/-- A well-formed tree without links. -/
structure Ordinary (files : Files) : Prop extends WellFormed files where
  unlinked : ∀ l target, files.node? l ≠ some (.link target)

namespace Ordinary

theorem empty : Ordinary {} := by
  refine ⟨.empty, fun l target hl => ?_⟩
  by_cases hne : l = []
  · subst hne
    exact nomatch hl
  · rw [node?_of_ne hne] at hl
    exact nomatch hl

/-- Anything but a link may be put into a folder, in the place of whatever is no folder. -/
theorem put {l : Location} (h : files.Ordinary) (hl : l ≠ []) (hparent : files.node? l.dropLast = some .folder)
    (hnames : ∀ name ∈ l, IsName name) (hold : files.node? l ≠ some .folder) {node : Node}
    (hnode : ∀ target, node ≠ .link target) : (files.put l node).Ordinary := by
  refine ⟨h.toWellFormed.put hl hparent hnames hold node, fun l' target => ?_⟩
  by_cases hne : l' = l
  · rw [hne, node?_put_self files hl]
    exact fun heq => hnode target (Option.some.inj heq)
  · rw [node?_put_of_ne hne]
    exact h.unlinked l' target

theorem of_deepens (h : files.Ordinary) (hfiles' : files'.WellFormed) (hdeepens : Deepens files files') :
    files'.Ordinary := by
  refine ⟨hfiles', fun l target hl => ?_⟩
  rcases hdeepens.node l with heq | ⟨-, hfolder⟩
  · exact h.unlinked l target (heq.symm.trans hl)
  · exact nomatch hfolder.symm.trans hl

/-- Whether a link at the end of a path were followed makes no difference. -/
theorem spot_still (h : files.Ordinary) {s : Spot} (hspot : files.spot true p = .ok s) :
    files.spot false p = .ok s := by
  obtain ⟨s', hs'⟩ := exists_spot_still hspot
  have hplain : ∀ target, s'.node ≠ some (.link target) := fun target => by
    rw [← node?_of_spot hs']
    exact h.unlinked s'.location target
  rw [hs', ← hspot, spot_followed hs' hplain]

end Ordinary

end Files

end SolidityBuild
