import SolidityBuild.Proofs.Files.Listing
import SolidityBuild.Proofs.Project.Unreadable

/-!
Which files are the sources of a project: those at any depth below its folder that are named as sources are and have
a text. They are gathered in the order of their places, so that the first of them that yields no text is the one that
is reported, and nothing depends on the order in which folders are listed.

A link is a file if it leads to one; that the places are those of the tree says that no link is entered. The one way
out of this is a path that is too long to be asked whether it leads to a file.
-/

set_option autoImplicit false

namespace SolidityBuild

/-! ## The order of places -/

/-- A place that comes before another one: it begins the other, or is before it in the first name that differs. -/
def Path.Before (s t : Location) : Prop := partsLe s t = true ∧ s ≠ t

theorem Path.Before.asymm {s t : Location} (h : Path.Before s t) : ¬ Path.Before t s :=
  fun h' => h.2 (lexicographic_antisymm (fun _ _ => Text.le_antisymm) h.1 h'.1)

/-- Places that are sorted come one before the other if none of them is there twice. -/
theorem Path.pairwise_before_mergeSort {places : List Location} (h : places.Nodup) :
    (places.mergeSort partsLe).Pairwise Before := by
  refine pairwise_and_ne_mergeSort (fun s t u => ?_) (fun s t => ?_) h
  · exact lexicographic_trans (fun _ _ => Text.le_antisymm) fun _ _ _ => Text.le_trans
  · rw [Bool.or_eq_true]
    exact lexicographic_total Text.le_total s t

/-! ## What is found at a place -/

namespace Files

variable {files : Files} {folder : Path} {d place : Location} {node : Node} {tail : Text}

/-- What is found at a place below a folder: what stands there, or what a link that stands there leads to. -/
inductive Finds (files : Files) (folder : Path) (d place : Location) (node : Node) : Prop where
  | plain (there : files.node? (d ++ place) = some node) (plain : ∀ target, node ≠ .link target)
  | linked {target : Text} {l : Location} (there : files.node? (d ++ place) = some (.link target))
      (leads : files.spot true (folder.under place) = .ok ⟨l, some node⟩)

theorem hasNull_under (hnull : files.NullFree) (hfolder : files.spot true folder = .ok ⟨d, some .folder⟩)
    (hbelow : place ∈ files.below d) : hasNull (folder.under place) = false := by
  obtain ⟨hne, hnode⟩ := mem_below_iff.mp hbelow
  obtain ⟨e, he, heq⟩ := List.mem_map.mp
    ((node?_ne_none_iff (List.append_ne_nil_of_right_ne_nil d hne)).mp hnode)
  have habove : hasNull folder = false := ((spot_eq_ok_iff files true folder).mp hfolder).1
  have hplace : (place.any fun name => name.contains 0) = false := by
    rw [List.any_eq_false]
    intro name hname hzero
    exact hnull e he name (heq ▸ List.mem_append_right d hname) (List.contains_iff_mem.mp hzero)
  rw [hasNull, Path.under, List.any_append, hplace, Bool.or_false]
  exact habove

/-- **What is found at a place** is what its path leads to, unless the path cannot be asked. -/
theorem finds_iff (hfiles : files.WellFormed) (hnull : files.NullFree)
    (hfolder : files.spot true folder = .ok ⟨d, some .folder⟩)
    (hfound : place ∈ (files.below d).filter (nameEndsWith tail)) {there : Bool}
    (hasked : files.isFile (folder.under place) = .ok there) :
    files.Finds folder d place node ↔ ∃ l, files.spot true (folder.under place) = .ok ⟨l, some node⟩ := by
  have hbelow := (List.mem_filter.mp hfound).1
  by_cases hlink : ∃ target, files.node? (d ++ place) = some (.link target)
  · obtain ⟨target, hlink⟩ := hlink
    constructor
    · intro h
      cases h with
      | plain there plain => exact absurd (Option.some.inj (there.symm.trans hlink)) (plain target)
      | linked there leads => exact ⟨_, leads⟩
    · rintro ⟨l, hspot⟩
      exact .linked hlink hspot
  · -- a path that is not too long leads to what stands at the place
    have hspot : files.spot true (folder.under place) = .ok ⟨d ++ place, files.node? (d ++ place)⟩ := by
      obtain ⟨above, name, rfl, habove, hname, -⟩ := hfiles.exists_of_mem_found hfound
      rw [← List.append_assoc] at hlink ⊢
      have hunder := spot_under true hfiles hfolder habove hname fun target h => absurd ⟨target, h⟩ hlink
      rw [hasNull_under hnull hfolder hbelow, if_neg Bool.false_ne_true] at hunder
      split_ifs at hunder with hlong
      · rw [isFile, holds, target, hunder] at hasked
        cases hasked
      · exact hunder
    rw [hspot]
    constructor
    · intro h
      cases h with
      | plain there plain => exact ⟨_, by rw [there]⟩
      | linked there leads => exact absurd ⟨_, there⟩ hlink
    · rintro ⟨l, heq⟩
      have hnode := congrArg Spot.node (Except.ok.inj heq)
      exact .plain hnode fun target h => hlink ⟨target, h ▸ hnode⟩

end Files

namespace Project

variable {files : Files} {folder path : Path} {d place : Location} {places : List Location} {node : Node}
  {yield : Except UnreadableReason Text} {text : Text} {reason : UnreadableReason} {failure : Failure}
  {sources : Table SourceText}

/-! ## What a file yields -/

/-- What a file yields: its text, with every line end turned into a line feed, or why it yields none. -/
inductive Yields (path : Path) : Node → Except UnreadableReason Text → Prop where
  | text {octets : Octets} {t : Text} (decoded : Text.decodeUtf8 octets = .ok t) :
      Yields path (.file octets) (.ok t.unifyNewlines)
  | octets {octets : Octets} {fault : Text.OctetFault} (decoded : Text.decodeUtf8 octets = .error fault) :
      Yields path (.file octets) (.error (.octets fault))
  | denied : Yields path .sealed (.error (.system ⟨.denied, path.text, none⟩))

/-- What is had of a file that yields this. -/
def had (path : Path) : Except UnreadableReason Text → Except Failure (Option Text)
  | .ok text => .ok (some text)
  | .error reason => .error (.sourceUnreadable ⟨path.text, reason⟩)

theorem fileText_of_yields {l : Location} (hspot : files.spot true path = .ok ⟨l, some node⟩)
    (h : Yields path node yield) : fileText files path = had path yield := by
  have htarget := Files.target_of_spot hspot
  have hfile : files.isFile path = .ok true := by
    rw [Files.isFile, Files.holds_of_spot hspot]
    cases h <;> rfl
  rw [fileText, hfile]
  cases h with
  | @text octets t decoded =>
    have hoctets : files.readOctets path = .ok octets := by
      rw [Files.readOctets, htarget]
      rfl
    have hread : files.readText path = .ok t.unifyNewlines := by
      rw [Files.readText, hoctets]
      dsimp only
      rw [decoded]
    rw [readText, hread]
    rfl
  | @octets octets fault decoded =>
    have hoctets : files.readOctets path = .ok octets := by
      rw [Files.readOctets, htarget]
      rfl
    have hread : files.readText path = .error (.octets fault) := by
      rw [Files.readText, hoctets]
      dsimp only
      rw [decoded]
    rw [readText, hread]
    rfl
  | denied =>
    rw [readText, Files.readText, Files.readOctets, htarget]
    rfl

/-- There is no file, or what the file yields is had, or the path cannot be asked. -/
theorem fileText_cases (files : Files) (path : Path) :
    fileText files path = .ok none ∨
      (∃ l node yield, files.spot true path = .ok ⟨l, some node⟩ ∧ Yields path node yield) ∨
      ∃ fault : SystemFault, fileText files path = .error (.unforeseen (.system fault)) ∧
        fault.cause = .nameTooLong ∧ ∀ there, files.isFile path ≠ .ok there := by
  rcases hfile : files.isFile path with fault | (_ | _)
  · obtain ⟨fault, rfl, hcause⟩ := Files.tooLong_of_holds_fails hfile
    refine .inr (.inr ⟨fault, ?_, hcause, by rintro _ ⟨⟩⟩)
    rw [fileText, hfile]
    rfl
  · left
    rw [fileText, hfile]
  · right
    left
    obtain ⟨l, node, hspot, hnode⟩ := Files.exists_spot_of_holds hfile
    cases node with
    | file octets =>
      cases hdecode : Text.decodeUtf8 octets with
      | ok t => exact ⟨l, _, _, hspot, .text hdecode⟩
      | error fault => exact ⟨l, _, _, hspot, .octets hdecode⟩
    | «sealed» => exact ⟨l, _, _, hspot, .denied⟩
    | folder | link target => cases hnode

/-- A source file: it is named as sources are, at a place below the folder, and yields this. -/
structure SourceFile (files : Files) (folder : Path) (d place : Location) (yield : Except UnreadableReason Text) :
    Prop where
  named : Files.nameEndsWith sourceSuffix place = true
  found : ∃ node, files.Finds folder d place node ∧ Yields (folder.under place) node yield

section Places

variable (hfiles : files.WellFormed) (hnull : files.NullFree)
  (hfolder : files.spot true folder = .ok ⟨d, some .folder⟩)

/-- The places of sources, in order. -/
def sourcePlaces (files : Files) (d : Location) : List Location :=
  ((files.below d).filter (Files.nameEndsWith sourceSuffix)).mergeSort Path.partsLe

theorem SourceFile.mem (h : SourceFile files folder d place yield) : place ∈ sourcePlaces files d := by
  obtain ⟨hnamed, node, hfinds, -⟩ := h
  have hne : place ≠ [] := by
    rintro rfl
    exact Bool.false_ne_true hnamed
  have hnode : files.node? (d ++ place) ≠ none := by
    intro hnone
    cases hfinds with
    | plain there _ => exact nomatch hnone.symm.trans there
    | linked there _ => exact nomatch hnone.symm.trans there
  exact List.mem_mergeSort.mpr (List.mem_filter.mpr ⟨Files.mem_below_iff.mpr ⟨hne, hnode⟩, hnamed⟩)

include hfiles hnull hfolder

/-- What is had of a source file, if its path can be asked. -/
theorem SourceFile.fileText (h : SourceFile files folder d place yield) {there : Bool}
    (hasked : files.isFile (folder.under place) = .ok there) :
    Project.fileText files (folder.under place) = had (folder.under place) yield := by
  obtain ⟨node, hfinds, hyields⟩ := h.found
  have hfound := List.mem_mergeSort.mp h.mem
  obtain ⟨l, hspot⟩ := (Files.finds_iff hfiles hnull hfolder hfound hasked).mp hfinds
  exact fileText_of_yields hspot hyields

/-- What is had at the place of a source is what a source file there yields, or there is none. -/
theorem fileText_at (hplace : place ∈ sourcePlaces files d) :
    Project.fileText files (folder.under place) = .ok none ∨
      (∃ yield, SourceFile files folder d place yield ∧
        Project.fileText files (folder.under place) = had (folder.under place) yield) ∨
      ∃ fault : SystemFault, Project.fileText files (folder.under place) = .error (.unforeseen (.system fault)) ∧
        fault.cause = .nameTooLong ∧ ∀ there, files.isFile (folder.under place) ≠ .ok there := by
  have hfound := List.mem_mergeSort.mp hplace
  obtain ⟨-, hnamed⟩ := List.mem_filter.mp hfound
  rcases fileText_cases files (folder.under place) with hnone | ⟨l, node, yield, hspot, hyields⟩ |
    ⟨fault, hfault, hcause, hasked⟩
  · exact .inl hnone
  · have hasked : files.isFile (folder.under place) = .ok _ := Files.holds_of_spot hspot _
    have hfinds := (Files.finds_iff hfiles hnull hfolder hfound hasked).mpr ⟨l, hspot⟩
    exact .inr (.inl ⟨yield, ⟨hnamed, node, hfinds, hyields⟩, fileText_of_yields hspot hyields⟩)
  · exact .inr (.inr ⟨fault, hfault, hcause, hasked⟩)

end Places

/-! ## All sources -/

/-- The first text that is not had is why no sources are: those before it are. -/
theorem first_of_sourcesAt_fails (h : (sourcesAt files folder places).outcome = .error failure) :
    ∃ before place after, places = before ++ place :: after ∧
      fileText files (folder.under place) = .error failure ∧
      ∀ earlier ∈ before, ∃ text, fileText files (folder.under earlier) = .ok text := by
  induction places with
  | nil => exact nomatch h
  | cons place rest ih =>
    rw [outcome_sourcesAt_cons] at h
    rcases bind_eq_error h with hplace | ⟨text, htext, h⟩
    · exact ⟨[], place, rest, rfl, hplace, List.forall_mem_nil _⟩
    rcases bind_eq_error h with hrest | ⟨others, -, h⟩
    · obtain ⟨before, later, after, rfl, hfails, hbefore⟩ := ih hrest
      exact ⟨place :: before, later, after, rfl, hfails, List.forall_mem_cons.mpr ⟨⟨text, htext⟩, hbefore⟩⟩
    · exact nomatch h

/-- What is gathered is every text at one of the places that is not empty, under its path. -/
theorem mem_sourcesAt (h : (sourcesAt files folder places).outcome = .ok sources) {key : Text} {source : SourceText} :
    (key, source) ∈ sources ↔ ∃ place ∈ places, ∃ text, fileText files (folder.under place) = .ok (some text) ∧
      text ≠ [] ∧ key = Text.join [Path.separator] place ∧ source = ⟨text, []⟩ := by
  induction places generalizing sources with
  | nil =>
    cases h
    exact iff_of_false List.not_mem_nil fun ⟨place, hplace, _⟩ => List.not_mem_nil hplace
  | cons place rest ih =>
    rw [outcome_sourcesAt_cons] at h
    obtain ⟨text, htext, h⟩ := bind_eq_ok h
    obtain ⟨others, hothers, h⟩ := bind_eq_ok h
    simp only [List.mem_cons, exists_eq_or_imp]
    rw [← ih hothers, htext]
    cases Except.ok.inj h
    rcases text with _ | (_ | ⟨c, content⟩)
    · simp
    · simp
    · simp [Prod.ext_iff]

/-- The sources that a project has: each source file that has a text, and no other one, in the order of their places;
and no source file is there that yields no text. -/
structure Complete (files : Files) (folder : Path) (d : Location) (sources : Table SourceText) : Prop where
  increasing : (sources.keys.map (Text.splitOn Path.separator)).Pairwise Path.Before
  exact : ∀ key source, (key, source) ∈ sources ↔ ∃ place text, SourceFile files folder d place (.ok text) ∧
    text ≠ [] ∧ key = Text.join [Path.separator] place ∧ source = ⟨text, []⟩
  readable : ∀ place reason, ¬ SourceFile files folder d place (.error reason)

/-- No source file before a place yields no text. -/
def ReadableBefore (files : Files) (folder : Path) (d place : Location) : Prop :=
  ∀ earlier reason, Path.Before earlier place → ¬ SourceFile files folder d earlier (.error reason)

/-- The first source file that yields no text. -/
structure FirstUnreadable (files : Files) (folder : Path) (d place : Location) (reason : UnreadableReason) :
    Prop where
  unreadable : SourceFile files folder d place (.error reason)
  first : ReadableBefore files folder d place

/-- A path with the name of a source that cannot be asked whether it leads to a file, and before which every source
file yields a text. -/
structure FirstUnasked (files : Files) (folder : Path) (d place : Location) : Prop where
  there : place ∈ sourcePlaces files d
  unasked : ∀ there, files.isFile (folder.under place) ≠ .ok there
  first : ReadableBefore files folder d place

theorem isFile_of_fileText {text : Option Text} (h : fileText files path = .ok text) :
    ∃ there, files.isFile path = .ok there := by
  rw [fileText] at h
  cases hfile : files.isFile path with
  | error fault =>
    rw [hfile] at h
    cases h
  | ok there => exact ⟨there, rfl⟩

section Gathering

variable (hfiles : files.WellFormed) (hnull : files.NullFree)
  (hfolder : files.spot true folder = .ok ⟨d, some .folder⟩)

include hfiles hnull hfolder

theorem complete_of_sources (hnames : files.Separated)
    (h : (sourcesAt files folder (sourcePlaces files d)).outcome = .ok sources) :
    Complete files folder d sources := by
  have hhad : ∀ place ∈ sourcePlaces files d, ∃ text, fileText files (folder.under place) = .ok text :=
    fileText_of_sourcesAt h
  -- since every text is had, every path could be asked, and each source file has given what it yields
  have hsource : ∀ place yield, SourceFile files folder d place yield →
      fileText files (folder.under place) = had (folder.under place) yield := by
    intro place yield hsource
    obtain ⟨text, htext⟩ := hhad place hsource.mem
    obtain ⟨there, hasked⟩ := isFile_of_fileText htext
    exact hsource.fileText hfiles hnull hfolder hasked
  refine ⟨?_, fun key source => ?_, fun place reason hunread => ?_⟩
  · -- the places are read back from their paths, and they are sorted
    have hback : ((sourcePlaces files d).map (Text.join [Path.separator])).map (Text.splitOn Path.separator) =
        sourcePlaces files d := by
      rw [List.map_map, List.map_congr_left fun place hplace => ?_]
      · exact List.map_id _
      · exact Files.splitOn_join_of_below hnames (List.mem_filter.mp (List.mem_mergeSort.mp hplace)).1
    have hkeys := (collected_of_sourcesAt h).1.map (Text.splitOn Path.separator)
    rw [hback] at hkeys
    exact (Path.pairwise_before_mergeSort ((hfiles.nodup_below d).filter _)).sublist hkeys
  · rw [mem_sourcesAt h]
    constructor
    · rintro ⟨place, hplace, text, htext, hne, hkey, heq⟩
      refine ⟨place, text, ?_, hne, hkey, heq⟩
      rcases fileText_at hfiles hnull hfolder hplace with hnone | ⟨yield, hyield, hyielded⟩ | ⟨fault, hfault, -⟩
      · exact nomatch htext.symm.trans hnone
      · cases yield with
        | ok text' =>
          obtain rfl : text = text' := Option.some.inj (Except.ok.inj (htext.symm.trans hyielded))
          exact hyield
        | error reason => exact nomatch htext.symm.trans hyielded
      · exact nomatch htext.symm.trans hfault
    · rintro ⟨place, text, hyield, hne, hkey, heq⟩
      exact ⟨place, hyield.mem, text, hsource place _ hyield, hne, hkey, heq⟩
  · obtain ⟨text, htext⟩ := hhad place hunread.mem
    exact nomatch htext.symm.trans (hsource place _ hunread)

theorem first_of_sources_fail (h : (sourcesAt files folder (sourcePlaces files d)).outcome = .error failure) :
    (∃ place reason, failure = .sourceUnreadable ⟨(folder.under place).text, reason⟩ ∧
        FirstUnreadable files folder d place reason) ∨
      ∃ (place : Location) (fault : SystemFault), failure = .unforeseen (.system fault) ∧
        fault.cause = .nameTooLong ∧ FirstUnasked files folder d place := by
  obtain ⟨before, place, after, hplaces, hfails, hbefore⟩ := first_of_sourcesAt_fails h
  have hplace : place ∈ sourcePlaces files d := hplaces ▸ List.mem_append_right before List.mem_cons_self
  have hsorted : (sourcePlaces files d).Pairwise Path.Before :=
    Path.pairwise_before_mergeSort ((hfiles.nodup_below d).filter _)
  have hfirst : ReadableBefore files folder d place := by
    intro earlier reason hearlier hunread
    -- a source file that comes before the place is among those whose texts are had
    have hmem := hunread.mem
    rw [hplaces] at hmem hsorted
    rcases List.mem_append.mp hmem with hmem | hmem
    · obtain ⟨text, htext⟩ := hbefore earlier hmem
      obtain ⟨there, hasked⟩ := isFile_of_fileText htext
      exact nomatch htext.symm.trans (hunread.fileText hfiles hnull hfolder hasked)
    · rcases List.mem_cons.mp hmem with rfl | hmem
      · exact hearlier.2 rfl
      · exact hearlier.asymm ((List.pairwise_cons.mp (List.pairwise_append.mp hsorted).2.1).1 earlier hmem)
  rcases fileText_at hfiles hnull hfolder hplace with hnone | ⟨yield, hyield, hyielded⟩ |
    ⟨fault, hfault, hcause, hasked⟩
  · exact nomatch hfails.symm.trans hnone
  · cases yield with
    | ok text => exact nomatch hfails.symm.trans hyielded
    | error reason =>
      exact .inl ⟨place, reason, Except.error.inj (hfails.symm.trans hyielded), hyield, hfirst⟩
  · exact .inr ⟨place, fault, Except.error.inj (hfails.symm.trans hfault), hcause, hplace, hasked, hfirst⟩

end Gathering

/-! ## The order in which folders are listed -/

theorem sources_relisted {files' : Files} (h : Files.Relisted files files') (hfiles : files.WellFormed)
    (folder : Path) : Project.sources files' folder = Project.sources files folder := by
  have hspot := h.spot_eq hfiles folder
  have hisFolder : files'.isFolder folder = files.isFolder folder := Files.holds_congr hspot _
  have hfound : files'.findBelow folder sourceSuffix = files.findBelow folder sourceSuffix := by
    rw [Files.findBelow, Files.findBelow, hisFolder, hspot]
    rcases files.spot true folder with fault | ⟨l, node⟩
    · rfl
    · -- the places are sorted, which forgets the order of the entries
      have hbelow : (files'.below l).Perm (files.below l) := h.entries.filterMap _
      have hsorted := Files.mergeSort_partsLe_eq (hbelow.filter (Files.nameEndsWith sourceSuffix))
      change (files.isFolder folder >>= fun found => if found = true then
        Except.ok (((files'.below l).filter (Files.nameEndsWith sourceSuffix)).mergeSort Path.partsLe) else _) = _
      rw [hsorted]
      rfl
  rw [Project.sources, Project.sources, hfound]
  cases files.findBelow folder sourceSuffix with
  | error fault => rfl
  | ok places => exact sourcesAt_congr fun place _ => h.spot_eq hfiles _

/-- **The sources of a project are exact and in order**, or the first source file that yields no text is reported,
unless a path with the name of a source comes first that is too long to be asked whether it leads to a file. The order
in which folders are listed makes no difference, not even to what is told. -/
theorem sources_exact_or_first_unreadable (hfiles : files.WellFormed) (hnames : files.Separated)
    (hnull : files.NullFree) (hfolder : files.spot true folder = .ok ⟨d, some .folder⟩) :
    ((∃ sources, (Project.sources files folder).outcome = .ok sources ∧ Complete files folder d sources) ∨
      (∃ place reason, (Project.sources files folder).outcome =
          .error (.sourceUnreadable ⟨(folder.under place).text, reason⟩) ∧
        FirstUnreadable files folder d place reason) ∨
      ∃ (place : Location) (fault : SystemFault),
        (Project.sources files folder).outcome = .error (.unforeseen (.system fault)) ∧
        fault.cause = .nameTooLong ∧ FirstUnasked files folder d place) ∧
    ∀ files', Files.Relisted files files' → Project.sources files' folder = Project.sources files folder := by
  refine ⟨?_, fun files' h => sources_relisted h hfiles folder⟩
  rw [outcome_sources_of_folder hfolder]
  change (∃ sources, (sourcesAt files folder (sourcePlaces files d)).outcome = .ok sources ∧ _) ∨
    (∃ place reason, (sourcesAt files folder (sourcePlaces files d)).outcome = _ ∧ _) ∨
    ∃ (place : Location) (fault : SystemFault), (sourcesAt files folder (sourcePlaces files d)).outcome = _ ∧ _
  cases houtcome : (sourcesAt files folder (sourcePlaces files d)).outcome with
  | ok sources => exact .inl ⟨sources, rfl, complete_of_sources hfiles hnull hfolder hnames houtcome⟩
  | error failure =>
    rcases first_of_sources_fail hfiles hnull hfolder houtcome with ⟨place, reason, rfl, hfirst⟩ |
      ⟨place, fault, rfl, hcause, hfirst⟩
    · exact .inr (.inl ⟨place, reason, rfl, hfirst⟩)
    · exact .inr (.inr ⟨place, fault, rfl, hcause, hfirst⟩)

/-! ### A folder with a link -/

/-- A link to a source, an empty file, and the source in a folder that is named as a source. -/
def linkTree : Files :=
  (((Files.put {} ["A.sol"] (.link "lib.sol/B.sol")).put ["E.sol"] (.file [])).put ["lib.sol"] .folder).put
    ["lib.sol", "B.sol"] (.file [66, 13, 10])

theorem wellFormed_linkTree : linkTree.WellFormed := by
  have hlink : (Files.put {} ["A.sol"] (.link "lib.sol/B.sol")).WellFormed :=
    Files.WellFormed.empty.put (by decide) rfl (by decide) (by decide) _
  have hblank := hlink.put (l := ["E.sol"]) (by decide) rfl (by decide) (by decide) (.file [])
  have hfolder := hblank.put (l := ["lib.sol"]) (by decide) rfl (by decide) (by decide) .folder
  exact hfolder.put (by decide) rfl (by decide) (by decide) _

theorem spot_linkTree : linkTree.spot true ⟨1, []⟩ = .ok ⟨[], some .folder⟩ := by decide

theorem outcome_linkTree : (Project.sources linkTree ⟨1, []⟩).outcome =
    .ok [("A.sol", ⟨[66, 10], []⟩), ("lib.sol/B.sol", ⟨[66, 10], []⟩)] := by
  have hblank : fileText linkTree (Path.under ⟨1, []⟩ ["E.sol"]) = .ok (some []) := by
    have hfile : linkTree.isFile (Path.under ⟨1, []⟩ ["E.sol"]) = .ok true := by decide
    have hread : linkTree.readText (Path.under ⟨1, []⟩ ["E.sol"]) = .ok [] := by decide +kernel
    rw [fileText, hfile, readText, hread]
    rfl
  have hlast : (sourcesAt linkTree ⟨1, []⟩ [["lib.sol", "B.sol"]]).outcome =
      .ok [("lib.sol/B.sol", ⟨[66, 10], []⟩)] := sourcesAt_of_text (by decide) (by decide +kernel) rfl
  rw [sources_of_places spot_linkTree [["A.sol"], ["E.sol"], ["lib.sol"], ["lib.sol", "B.sol"]] (by decide)
    (by decide)]
  refine sourcesAt_of_text (by decide) (by decide +kernel) ?_
  rw [outcome_sourcesAt_cons, hblank, sourcesAt_of_no_file (by decide), hlast]
  rfl

/-- The file is a source twice, at its place and where the link stands, with its line end turned into a line feed;
the folder and the empty file are none. -/
theorem linkTree_sources_exact : linkTree.WellFormed ∧ linkTree.Separated ∧ linkTree.NullFree ∧
    linkTree.spot true ⟨1, []⟩ = .ok ⟨[], some .folder⟩ ∧
    Complete linkTree ⟨1, []⟩ [] [("A.sol", ⟨[66, 10], []⟩), ("lib.sol/B.sol", ⟨[66, 10], []⟩)] := by
  have hnames : linkTree.Separated := by decide
  have hnull : linkTree.NullFree := by decide
  obtain ⟨hcases, -⟩ := sources_exact_or_first_unreadable wellFormed_linkTree hnames hnull spot_linkTree
  refine ⟨wellFormed_linkTree, hnames, hnull, spot_linkTree, ?_⟩
  rw [outcome_linkTree] at hcases
  rcases hcases with ⟨sources, hsources, hcomplete⟩ | ⟨place, reason, hfails, -⟩ | ⟨place, fault, hfails, -⟩
  · rwa [Except.ok.inj hsources]
  · exact nomatch hfails
  · exact nomatch hfails

/-! ### A link whose target no file can have -/

/-- A link, named as a source, to a name that is longer than a name may be. -/
def longLinkTree : Files := { entries := [([Text.ofString "A.sol"], .link (List.replicate 256 120))] }

/-- The sources are not gathered, and no file is reported: nothing foresees that the path cannot be asked. -/
theorem longLink_not_reported : longLinkTree.WellFormed ∧ longLinkTree.Separated ∧ longLinkTree.NullFree ∧
    longLinkTree.spot true ⟨1, []⟩ = .ok ⟨[], some .folder⟩ ∧
    (∀ sources, (Project.sources longLinkTree ⟨1, []⟩).outcome ≠ .ok sources) ∧
    ∀ fault, (Project.sources longLinkTree ⟨1, []⟩).outcome ≠ .error (.sourceUnreadable fault) := by
  have hspot : longLinkTree.spot true ⟨1, []⟩ = .ok ⟨[], some .folder⟩ := by decide +kernel
  have hfiles : longLinkTree.WellFormed :=
    Files.WellFormed.empty.put (l := ["A.sol"]) (by decide) rfl (by decide) (by decide) _
  have hasked : longLinkTree.isFile (Path.under ⟨1, []⟩ ["A.sol"]) =
      .error (Files.fault .nameTooLong (Path.under ⟨1, []⟩ ["A.sol"])) := by decide +kernel
  have hfound : (longLinkTree.below []).filter (Files.nameEndsWith sourceSuffix) = [[Text.ofString "A.sol"]] := by
    decide
  have houtcome : (Project.sources longLinkTree ⟨1, []⟩).outcome =
      .error (.unforeseen (Files.fault .nameTooLong (Path.under ⟨1, []⟩ ["A.sol"])).defect) := by
    rw [sources_of_places hspot [["A.sol"]] hfound (by decide), outcome_sourcesAt_cons, fileText, hasked]
    rfl
  refine ⟨hfiles, by decide, by decide, hspot, fun sources h => ?_, fun fault h => ?_⟩
  · cases houtcome.symm.trans h
  · cases houtcome.symm.trans h

end Project

end SolidityBuild
