import SolidityBuild.Proofs.Build.Repetition
import SolidityBuild.Proofs.Cache.Folder
import SolidityBuild.Proofs.Files.Vacant
import Mathlib.Logic.Function.Basic

/-!
The store in memory and the one in a folder answer alike. Both are told by what was last written under each entry:
the store in memory holds its text, the folder holds a file with that text, and one file for every entry that was
written. One request after another keeps this up, so no sequence of requests tells the stores apart.
-/

set_option autoImplicit false

namespace SolidityBuild

/-! ## Requests to a store -/

/-- The entries of digests, which are spelled with hexadecimal digits. -/
def Cache.OfDigest (entry : Text) : Prop :=
  ∃ digest : Text, (digest.all fun c => c.hexValue?.isSome) = true ∧
    (entry = inputEntry digest ∨ entry = outputEntry digest)

/-- An entry of a digest. -/
abbrev CacheEntry := {entry : Text // Cache.OfDigest entry}

theorem Answer.parse_render (object : Answer) : Json.parse object.json.render = .ok object.json :=
  Json.parse_render object.wellFormed

/-- A request to a store; what is written are objects as they are read from texts. -/
inductive StoreRequest where
  | has (entry : CacheEntry)
  | read (entry : CacheEntry)
  | write (entry : CacheEntry) (object : Answer)

/-- What a store answers to a request. -/
inductive StoreAnswer where
  | found (there : Bool)
  | value (value : Json)
  | written

namespace StoreChoice

/-- Puts a request to a store. -/
def serve (choice : StoreChoice) : StoreRequest → Task Workshop StoreAnswer
  | .has entry => choice.has entry >>= fun there => pure (.found there)
  | .read entry => choice.read entry >>= fun value => pure (.value value)
  | .write entry object => choice.write entry (.document object.json) >>= fun _ => pure .written

/-- The workshop after a sequence of requests, whatever they come to. -/
def after (choice : StoreChoice) (w : Workshop) (requests : List StoreRequest) : Workshop :=
  requests.foldl (fun w request => ((choice.serve request).result w).1) w

/-- What a request comes to after others. -/
def answer (choice : StoreChoice) (w : Workshop) (before : List StoreRequest) (request : StoreRequest) :
    Except Failure StoreAnswer :=
  ((choice.serve request).result (choice.after w before)).2

end StoreChoice

/-- What was last written under each entry. -/
abbrev Holdings := CacheEntry → Option Answer

/-- What is held after a request. -/
def StoreRequest.note (held : Holdings) : StoreRequest → Holdings
  | .write entry object => Function.update held entry (some object)
  | .has _ | .read _ => held

/-- What was last written under each entry by a sequence of requests. -/
def lastWritten (requests : List StoreRequest) : Holdings := requests.foldl StoreRequest.note fun _ => none

/-- What a request should come to: an entry is there if something was written under it, what was last written is
read, and reading another entry fails as the store foresees. -/
inductive StoreRequest.Expected (held : Holdings) : StoreRequest → Except Failure StoreAnswer → Prop where
  | has (entry : CacheEntry) : Expected held (.has entry) (.ok (.found (held entry).isSome))
  | value {entry : CacheEntry} {object : Answer} (there : held entry = some object) :
      Expected held (.read entry) (.ok (.value object.json))
  | nothing {entry : CacheEntry} (missing : held entry = none) (fault : CacheFault) :
      Expected held (.read entry) (.error (.cache fault))
  | written (entry : CacheEntry) (object : Answer) : Expected held (.write entry object) (.ok .written)

/-- Two stores answer the same, or both refuse as foreseen. -/
inductive StoreAnswer.Agree : Except Failure StoreAnswer → Except Failure StoreAnswer → Prop where
  | same (answer : StoreAnswer) : Agree (.ok answer) (.ok answer)
  | refused (fault fault' : CacheFault) : Agree (.error (.cache fault)) (.error (.cache fault'))

/-- What is expected is the same everywhere. -/
theorem StoreRequest.Expected.agree {held : Holdings} {request : StoreRequest} {x y : Except Failure StoreAnswer}
    (hx : request.Expected held x) (hy : request.Expected held y) : StoreAnswer.Agree x y := by
  cases hx with
  | has entry =>
    cases hy with
    | has => exact .same _
  | value there =>
    cases hy with
    | value there' =>
      obtain rfl := Option.some.inj (there.symm.trans there')
      exact .same _
    | nothing missing => exact nomatch there.symm.trans missing
  | nothing missing fault =>
    cases hy with
    | value there => exact nomatch there.symm.trans missing
    | nothing _ fault' => exact .refused fault fault'
  | written entry object =>
    cases hy with
    | written => exact .same _

theorem lastWritten_concat (requests : List StoreRequest) (request : StoreRequest) :
    lastWritten (requests ++ [request]) = request.note (lastWritten requests) := List.foldl_append

theorem StoreChoice.after_concat (choice : StoreChoice) (w : Workshop) (requests : List StoreRequest)
    (request : StoreRequest) : choice.after w (requests ++ [request]) =
      ((choice.serve request).result (choice.after w requests)).1 := List.foldl_append

/-! ## Entries of digests -/

namespace Cache.OfDigest

variable {entry : Text}

theorem not_mem (h : OfDigest entry) {c : CodePoint} (hc : c.hexValue? = none)
    (hinput : c ∉ ("compile_config_" : Text)) (houtput : c ∉ ("compile_output_" : Text)) : c ∉ entry := by
  obtain ⟨digest, hdigest, hentry⟩ := h
  have hc' : c ∉ digest := by
    intro hmem
    have hsome := List.all_eq_true.mp hdigest c hmem
    rw [hc] at hsome
    exact nomatch hsome
  rcases hentry with rfl | rfl
  · exact List.not_mem_append hinput hc'
  · exact List.not_mem_append houtput hc'

theorem name (h : OfDigest entry) : Path.Name entry := h.not_mem (by decide) (by decide) (by decide)

theorem not_mem_zero (h : OfDigest entry) : 0 ∉ entry := h.not_mem (by decide) (by decide) (by decide)

/-- Hexadecimal digits are ASCII. -/
theorem scalar (h : OfDigest entry) : entry.Scalar := by
  obtain ⟨digest, hdigest, hentry⟩ := h
  have hdigest' : digest.Scalar := Text.scalar_of_ascii fun c hc => by
    have hsome := List.all_eq_true.mp hdigest c hc
    rw [CodePoint.hexValue?] at hsome
    split_ifs at hsome with hdigits hlower hupper
    · rw [CodePoint.isDigit, Bool.and_eq_true, decide_eq_true_eq, decide_eq_true_eq] at hdigits
      omega
    · rw [Bool.and_eq_true, decide_eq_true_eq, decide_eq_true_eq] at hlower
      omega
    · rw [Bool.and_eq_true, decide_eq_true_eq, decide_eq_true_eq] at hupper
      omega
    · cases hsome
  rcases hentry with rfl | rfl
  · exact Text.scalar_append.mpr ⟨Text.scalar_ofString _, hdigest'⟩
  · exact Text.scalar_append.mpr ⟨Text.scalar_ofString _, hdigest'⟩

/-- Entries are not named like unfinished files. -/
theorem finished (h : OfDigest entry) : ¬ FolderStore.unfinished <+: FolderStore.fileName entry := by
  obtain ⟨digest, -, rfl | rfl⟩ := h
  · rintro ⟨rest, hrest⟩
    exact absurd (List.cons.inj hrest).1 (by decide)
  · rintro ⟨rest, hrest⟩
    exact absurd (List.cons.inj hrest).1 (by decide)

end Cache.OfDigest

/-! ## The store in memory -/

namespace MemoryStore

/-- A store in memory that holds the texts of what was last written. -/
def Recalls (m : MemoryStore) (held : Holdings) : Prop :=
  ∀ entry : CacheEntry, Table.get? m entry.val = (held entry).map fun object => object.json.render

theorem Recalls.put {m : MemoryStore} {held : Holdings} (h : m.Recalls held) (entry : CacheEntry)
    (object : Answer) :
    Recalls (Table.put m entry.val object.json.render) (Function.update held entry (some object)) := by
  intro entry'
  by_cases hne : entry' = entry
  · rw [hne, Table.get?_put_self, Function.update_self]
    rfl
  · rw [Table.get?_put_of_ne fun heq => hne (Subtype.ext heq), Function.update_of_ne hne]
    exact h entry'

/-- **A request to the store in memory** comes to what is expected, and what is held is noted. -/
theorem Recalls.serve {w : Workshop} {held : Holdings} (h : w.memory.Recalls held) (request : StoreRequest) :
    request.Expected held ((StoreChoice.memory.serve request).result w).2 ∧
      Recalls ((StoreChoice.memory.serve request).result w).1.memory (request.note held) := by
  cases request with
  | has entry =>
    have hhas : w.memory.has entry.val = (held entry).isSome := by
      rw [has, Table.has, h entry, Option.isSome_map]
    refine ⟨?_, h⟩
    change StoreRequest.Expected _ _ (.ok (.found (w.memory.has entry.val)))
    rw [hhas]
    exact .has entry
  | read entry =>
    rw [StoreChoice.serve, Task.result_bind]
    change _ ∧ Recalls _ held
    have hread : (StoreChoice.memory.read entry.val).result w = (w, w.memory.read entry.val) := rfl
    rw [hread]
    cases hheld : held entry with
    | none =>
      have hmissing : w.memory.read entry.val = .error (.cache (.entryMissing entry.val)) := by
        rw [MemoryStore.read, h entry, hheld]
        rfl
      rw [hmissing]
      exact ⟨.nothing hheld _, h⟩
    | some object =>
      have hvalue : w.memory.read entry.val = .ok object.json := by
        rw [MemoryStore.read, h entry, hheld, Option.map_some]
        dsimp only
        rw [object.parse_render]
      rw [hvalue]
      exact ⟨.value hheld, h⟩
  | write entry object => exact ⟨.written entry object, h.put entry object⟩

end MemoryStore

/-! ## The store in a folder -/

namespace FolderStore

variable {store : FolderStore} {files files' : Files} {d : Location} {held : Holdings}

/-- The octets of the file of an object. -/
def octets (object : Answer) : Octets := object.json.render.flatMap Text.octetsOf

/-- A tree in which the path of every entry leads to the file of what was last written under it, or to nothing. -/
structure Tells (store : FolderStore) (files : Files) (held : Holdings) : Prop where
  there : ∀ entry object, held entry = some object →
    ∃ l, files.spot true (store.path entry.val) = .ok ⟨l, some (.file (octets object))⟩
  nothing : ∀ entry s, held entry = none → files.spot true (store.path entry.val) = .ok s → s.node = none

/-- A tree in which the folder of the store is at a location, with a file for each entry that was written. -/
structure Mirrors (store : FolderStore) (files : Files) (d : Location) (held : Holdings) : Prop where
  wellFormed : files.WellFormed
  folder : files.spot true store.folder = .ok ⟨d, some .folder⟩
  own : ∀ entry object, held entry = some object →
    files.spot true (store.path entry.val) = .ok ⟨d ++ [fileName entry.val], some (.file (octets object))⟩
  others : ∀ name, files.node? (d ++ [name]) ≠ none →
    ∃ entry : CacheEntry, held entry ≠ none ∧ name = fileName entry.val

/-- The path of an entry that is not in the folder leads to nothing. -/
theorem nothing_at_path (h : files.WellFormed) {entry : Text} (hname : Path.Name entry)
    (hfree : ∀ d, files.spot true store.folder = .ok ⟨d, some .folder⟩ →
      files.node? (d ++ [fileName entry]) = none) {s : Spot}
    (hspot : files.spot true (store.path entry) = .ok s) : s.node = none := by
  rw [path_eq store hname] at hspot
  exact h.nothing_at_child (isPart_fileName entry) (fileName_ne_dotDot entry) hfree hspot

namespace Mirrors

theorem node?_own (h : store.Mirrors files d held) {entry : CacheEntry} {object : Answer}
    (hheld : held entry = some object) : files.node? (d ++ [fileName entry.val]) = some (.file (octets object)) :=
  Files.node?_of_spot (h.own entry object hheld)

theorem node?_eq_none (h : store.Mirrors files d held) {entry : CacheEntry} (hheld : held entry = none) :
    files.node? (d ++ [fileName entry.val]) = none := by
  by_contra hnode
  obtain ⟨entry', hheld', hname⟩ := h.others _ hnode
  obtain rfl : entry = entry' := Subtype.ext (fileName_injective hname)
  exact hheld' hheld

theorem tells (h : store.Mirrors files d held) : store.Tells files held where
  there entry object hheld := ⟨_, h.own entry object hheld⟩
  nothing entry s hheld hspot := by
    refine nothing_at_path h.wellFormed entry.property.name (fun d' hd' => ?_) hspot
    obtain ⟨rfl, -⟩ := Spot.mk.inj (Except.ok.inj (h.folder.symm.trans hd'))
    exact h.node?_eq_none hheld

/-- A folder that is empty mirrors a store in which nothing was written. -/
theorem of_empty (h : files.WellFormed) (hfolder : files.spot true store.folder = .ok ⟨d, some .folder⟩)
    (hnames : files.names d = []) : store.Mirrors files d fun _ => none where
  wellFormed := h
  folder := hfolder
  own _ _ hheld := nomatch hheld
  others name hnode := absurd (Files.node?_of_names_eq_nil hnames name) hnode

/-- What is written is mirrored. -/
theorem stored (h : store.Mirrors files d held) {entry : CacheEntry} {object : Answer} {d' : Location}
    (hstored : Stored store entry.val (octets object) d' files files') :
    store.Mirrors files' d (Function.update held entry (some object)) := by
  obtain ⟨rfl, -⟩ := Spot.mk.inj (Except.ok.inj (h.folder.symm.trans hstored.folder))
  -- no link stood there
  have hkeeps : Files.Keeps files files' := by
    refine hstored.keeps fun target hlink => ?_
    cases hheld : held entry with
    | none => exact nomatch (h.node?_eq_none hheld).symm.trans hlink
    | some object' => exact nomatch (h.node?_own hheld).symm.trans hlink
  refine ⟨hstored.wellFormed, hkeeps.spot_folder h.folder, ?_, ?_⟩
  · intro entry' object' hheld
    by_cases hne : entry' = entry
    · subst hne
      rw [Function.update_self] at hheld
      obtain rfl := Option.some.inj hheld
      exact hstored.spot_own hkeeps true
    · rw [Function.update_of_ne hne] at hheld
      have hother : d ++ [fileName entry'.val] ≠ d ++ [fileName entry.val] := fun heq =>
        hne (Subtype.ext (fileName_injective (List.append_singleton_inj.mp heq).2))
      exact h.wellFormed.spot_still hkeeps (h.own entry' object' hheld)
        ((hstored.others _ hother).trans (h.node?_own hheld))
  · intro name hnode
    by_cases hname : name = fileName entry.val
    · refine ⟨entry, ?_, hname⟩
      rw [Function.update_self]
      exact Option.some_ne_none object
    · have hother : d ++ [name] ≠ d ++ [fileName entry.val] :=
        fun heq => hname (List.append_singleton_inj.mp heq).2
      rw [hstored.others _ hother] at hnode
      obtain ⟨entry', hheld, hname'⟩ := h.others name hnode
      refine ⟨entry', ?_, hname'⟩
      have hne : entry' ≠ entry := by
        rintro rfl
        exact hname hname'
      rwa [Function.update_of_ne hne]

end Mirrors

/-! ## Looking and reading -/

/-- **What the store says of an entry is told by the tree.** -/
theorem Tells.has (h : store.Tells files held) (entry : CacheEntry) {there : Bool}
    (hhas : store.has files entry.val = .ok there) : there = (held entry).isSome := by
  cases hheld : held entry with
  | some object =>
    obtain ⟨l, hspot⟩ := h.there entry object hheld
    rw [has_of_spot (nameFault?_of_scalar store entry.property.scalar) hspot] at hhas
    exact (Except.ok.inj hhas).symm
  | none =>
    cases there with
    | false => rfl
    | true =>
      obtain ⟨l, node, hspot, -⟩ := exists_spot_of_has hhas
      exact nomatch h.nothing entry _ hheld hspot

/-- The path of an entry is one, if that of the folder is. -/
theorem hasNull_path (hnull : Files.hasNull store.folder = false) (entry : CacheEntry) :
    Files.hasNull (store.path entry.val) = false := by
  have hfree : (0 : CodePoint) ∉ fileName entry.val :=
    List.not_mem_append entry.property.not_mem_zero (by decide)
  rw [path_eq store entry.property.name, Files.hasNull_child, hnull, Bool.false_or, ← Bool.not_eq_true,
    List.contains_iff_mem]
  exact hfree

theorem Tells.read (h : store.Tells files held) (hnull : Files.hasNull store.folder = false) (entry : CacheEntry) :
    StoreRequest.Expected held (.read entry) ((store.read files entry.val).map .value) := by
  cases hheld : held entry with
  | some object =>
    obtain ⟨l, hspot⟩ := h.there entry object hheld
    rw [(read_of_spot (nameFault?_of_scalar store entry.property.scalar) object.wellFormed hspot).2]
    exact .value hheld
  | none =>
    obtain ⟨f, hfault⟩ := Files.target_of_nothing (hasNull_path hnull entry) fun s => h.nothing entry s hheld
    rw [FolderStore.read, nameFault?_of_scalar store entry.property.scalar]
    dsimp only
    rw [Files.readText, Files.readOctets, hfault]
    exact .nothing hheld _

/-! ## The folder after requests -/

/-- A tree in which nothing was written, or the folder of the store mirrors what was. -/
inductive Standing (store : FolderStore) (start : Files) : Files → Holdings → Prop where
  | untouched : Standing store start start fun _ => none
  | mirrored {files : Files} {d : Location} {held : Holdings} (h : store.Mirrors files d held) :
      Standing store start files held

variable {start : Files}

theorem Standing.wellFormed (h : store.Standing start files held) (hstart : start.WellFormed) :
    files.WellFormed := by
  cases h with
  | untouched => exact hstart
  | mirrored h => exact h.wellFormed

theorem Standing.tells (h : store.Standing start files held) (hstart : start.WellFormed)
    (hvacant : start.Vacant store.folder) : store.Tells files held := by
  cases h with
  | mirrored h => exact h.tells
  | untouched =>
    refine ⟨fun _ _ hheld => (nomatch hheld), fun entry s _ hspot => ?_⟩
    refine nothing_at_path hstart entry.property.name (fun d hd => ?_) hspot
    have hensure := Files.ensurePath_of_folder (Files.isFolder_iff.mpr ⟨d, hd⟩)
    exact Files.node?_of_names_eq_nil (hvacant _ d hensure hd) _

/-- Once its folder is made it mirrors what was written. -/
theorem Standing.made (h : store.Standing start files held) (hvacant : start.Vacant store.folder) {made : Files}
    (hensure : files.ensurePath store.folder = (made, .ok ())) (hmade : made.WellFormed)
    (hfolder : made.spot true store.folder = .ok ⟨d, some .folder⟩) : store.Mirrors made d held := by
  cases h with
  | untouched => exact .of_empty hmade hfolder (hvacant made d hensure hfolder)
  | @mirrored _ d' _ h =>
    rw [Files.ensurePath_of_folder (Files.isFolder_iff.mpr ⟨d', h.folder⟩)] at hensure
    obtain rfl : files = made := congrArg Prod.fst hensure
    obtain ⟨rfl, -⟩ := Spot.mk.inj (Except.ok.inj (h.folder.symm.trans hfolder))
    exact h

/-- **A request to the store in a folder** comes to what is expected, if nothing but reading fails, and what is
held is noted. -/
theorem Standing.serve {w : Workshop} (h : store.Standing start w.files held) (hstart : start.WellFormed)
    (hvacant : start.Vacant store.folder) (hnull : Files.hasNull store.folder = false) (request : StoreRequest)
    (hok : ∀ failure, (((StoreChoice.folder store).serve request).result w).2 = .error failure →
      ∃ entry, request = .read entry) :
    request.Expected held (((StoreChoice.folder store).serve request).result w).2 ∧
      store.Standing start (((StoreChoice.folder store).serve request).result w).1.files (request.note held) := by
  have htells := h.tells hstart hvacant
  cases request with
  | has entry =>
    have hhas : ((StoreChoice.folder store).has entry.val).result w = (w, store.has w.files entry.val) := rfl
    rw [StoreChoice.serve, Task.result_bind, hhas] at hok ⊢
    cases hanswer : store.has w.files entry.val with
    | error failure =>
      rw [hanswer] at hok
      obtain ⟨entry', heq⟩ := hok failure rfl
      exact nomatch heq
    | ok there =>
      rw [htells.has entry hanswer]
      exact ⟨.has entry, h⟩
  | read entry =>
    have hread : ((StoreChoice.folder store).read entry.val).result w = (w, store.read w.files entry.val) := rfl
    rw [StoreChoice.serve, Task.result_bind, hread]
    have hexpected := htells.read hnull entry
    cases hanswer : store.read w.files entry.val with
    | error failure =>
      rw [hanswer] at hexpected
      exact ⟨hexpected, h⟩
    | ok value =>
      rw [hanswer] at hexpected
      exact ⟨hexpected, h⟩
  | write entry object =>
    have hwrite : ((StoreChoice.folder store).write entry.val (.document object.json)).result w =
        ({ w with files := (store.write w.files entry.val (.document object.json)).1 },
          (store.write w.files entry.val (.document object.json)).2) := rfl
    rw [StoreChoice.serve, Task.result_bind, hwrite] at hok ⊢
    rcases store.write_cases (h.wellFormed hstart) entry.property.name object.json with
      ⟨files', failure, hcase, -, -⟩ | ⟨files', made, d, hcase, hensure, hmade, -, hstored⟩
    -- only reading fails
    · rw [hcase] at hok
      obtain ⟨entry', heq⟩ := hok failure rfl
      exact nomatch heq
    · rw [hcase]
      exact ⟨.written entry object, .mirrored ((h.made hvacant hensure hmade hstored.folder).stored hstored)⟩

/-- A folder that holds one file for each entry that was written, with the text of what was last written under it,
and nothing else. -/
structure HoldsExactly (files : Files) (d : Location) (held : Holdings) : Prop where
  distinct : (files.names d).Nodup
  written : ∀ name, name ∈ files.names d ↔ ∃ entry : CacheEntry, held entry ≠ none ∧ name = fileName entry.val
  texts : ∀ entry object, held entry = some object →
    files.node? (d ++ [fileName entry.val]) = some (.file (octets object))
  finished : ∀ name ∈ files.names d, ¬ unfinished <+: name

theorem Mirrors.holdsExactly (h : store.Mirrors files d held) : HoldsExactly files d held := by
  have hwritten : ∀ name, name ∈ files.names d ↔
      ∃ entry : CacheEntry, held entry ≠ none ∧ name = fileName entry.val := by
    intro name
    rw [Files.mem_names_iff]
    constructor
    · exact h.others name
    · rintro ⟨entry, hheld, rfl⟩
      obtain ⟨object, hobject⟩ := Option.ne_none_iff_exists'.mp hheld
      rw [h.node?_own hobject]
      exact Option.some_ne_none _
  refine ⟨h.wellFormed.nodup_names d, hwritten, fun entry object => h.node?_own, fun name hname => ?_⟩
  obtain ⟨entry, -, rfl⟩ := (hwritten name).mp hname
  exact entry.property.finished

theorem Standing.holdsExactly (h : store.Standing start files held) (hstart : start.WellFormed)
    (hvacant : start.Vacant store.folder) (hfolder : files.spot true store.folder = .ok ⟨d, some .folder⟩) :
    HoldsExactly files d held :=
  (h.made hvacant (Files.ensurePath_of_folder (Files.isFolder_iff.mpr ⟨d, hfolder⟩)) (h.wellFormed hstart)
    hfolder).holdsExactly

end FolderStore

/-! ## One store for the other -/

namespace Workshop

variable {w : Workshop} {store : FolderStore} {requests : List StoreRequest}

/-- In the folder nothing but reading fails: every entry may be looked for, and every one is written. -/
def OnlyReadingFails (w : Workshop) (choice : StoreChoice) (requests : List StoreRequest) : Prop :=
  ∀ before request failure, before ++ [request] <+: requests → choice.answer w before request = .error failure →
    ∃ entry, request = .read entry

/-- The induction is on the last request, which finds a store in memory that recalls what was written. -/
theorem recalls_after (w : Workshop) (requests : List StoreRequest) :
    (StoreChoice.memory.after w.emptied requests).memory.Recalls (lastWritten requests) := by
  induction requests using List.reverseRecOn with
  | nil => exact fun _ => rfl
  | append_singleton requests request ih =>
    rw [lastWritten_concat, StoreChoice.after_concat]
    exact (ih.serve request).2

/-- The induction is on the last request, which finds a folder that mirrors what was written, if there is one. -/
theorem standing_after (hfiles : w.files.WellFormed) (hvacant : w.files.Vacant store.folder)
    (hnull : Files.hasNull store.folder = false) (hok : w.OnlyReadingFails (.folder store) requests) :
    store.Standing w.files ((StoreChoice.folder store).after w requests).files (lastWritten requests) := by
  induction requests using List.reverseRecOn with
  | nil => exact .untouched
  | append_singleton requests request ih =>
    have hbefore : w.OnlyReadingFails (.folder store) requests := fun before request' failure hbegins =>
      hok before request' failure (hbegins.trans (List.prefix_append requests [request]))
    rw [lastWritten_concat, StoreChoice.after_concat]
    exact ((ih hbefore).serve hfiles hvacant hnull request fun failure =>
      hok requests request failure (List.prefix_refl _)).2

/-- **The store in memory and one in a folder are interchangeable.** From an empty store in memory, and a folder
that is empty or will be when it is made, every request of a sequence comes to the same in both, or is refused as
foreseen in both: an entry is there exactly if something was written under it, and then what was last written is
read, else reading fails. And at any time the folder, once it is there, holds one file for each entry that was
written, and nothing else. -/
theorem stores_interchangeable (hfiles : w.files.WellFormed) (hvacant : w.files.Vacant store.folder)
    (hnull : Files.hasNull store.folder = false) (hok : w.OnlyReadingFails (.folder store) requests) :
    (∀ before request, before ++ [request] <+: requests →
      request.Expected (lastWritten before) (StoreChoice.memory.answer w.emptied before request) ∧
        request.Expected (lastWritten before) ((StoreChoice.folder store).answer w before request) ∧
        StoreAnswer.Agree (StoreChoice.memory.answer w.emptied before request)
          ((StoreChoice.folder store).answer w before request)) ∧
      ∀ before, before <+: requests → ∀ d,
        ((StoreChoice.folder store).after w before).files.spot true store.folder = .ok ⟨d, some .folder⟩ →
          FolderStore.HoldsExactly ((StoreChoice.folder store).after w before).files d (lastWritten before) := by
  have hstanding : ∀ before, before <+: requests →
      store.Standing w.files ((StoreChoice.folder store).after w before).files (lastWritten before) :=
    fun before hbegins => standing_after hfiles hvacant hnull fun before' request failure hbegins' =>
      hok before' request failure (hbegins'.trans hbegins)
  constructor
  · intro before request hbegins
    have hmemory := ((recalls_after w before).serve request).1
    have hfolder := ((hstanding before ((List.prefix_append before [request]).trans hbegins)).serve hfiles hvacant
      hnull request fun failure => hok before request failure hbegins).1
    exact ⟨hmemory, hfolder, hmemory.agree hfolder⟩
  · intro before hbegins d hd
    exact (hstanding before hbegins).holdsExactly hfiles hvacant hd

theorem onlyReadingFails_concat {choice : StoreChoice} {request : StoreRequest}
    (h : w.OnlyReadingFails choice requests)
    (hok : ∀ failure, choice.answer w requests request = .error failure → ∃ entry, request = .read entry) :
    w.OnlyReadingFails choice (requests ++ [request]) := by
  intro before request' failure hbegins
  rcases List.prefix_concat_iff.mp hbegins with heq | hbefore
  · obtain ⟨rfl, rfl⟩ := List.append_singleton_inj.mp heq
    exact hok failure
  · exact h before request' failure hbefore

/-! ## A folder that is made by the first writing -/

/-- A store in a folder that is not there. -/
def absentFolder : FolderStore := ⟨⟨0, [".tmp"]⟩⟩

/-- An entry for an answer. -/
def codeEntry : CacheEntry := ⟨Cache.outputEntry "c0de", "c0de", by decide, .inr rfl⟩

theorem onlyReadingFails_codeEntry : bareWorkshop.OnlyReadingFails (.folder absentFolder)
    [.has codeEntry, .write codeEntry emptyAnswer, .read codeEntry] := by
  have hnone : bareWorkshop.OnlyReadingFails (.folder absentFolder) [] := by
    intro before request failure hbegins
    exact absurd (List.prefix_nil.mp hbegins) (List.concat_ne_nil request before)
  have hhas : bareWorkshop.OnlyReadingFails (.folder absentFolder) [.has codeEntry] := by
    refine onlyReadingFails_concat hnone fun failure hfailure => ?_
    have hok : ((StoreChoice.folder absentFolder).answer bareWorkshop [] (.has codeEntry)).isOk = true := by
      decide +kernel
    rw [hfailure] at hok
    exact nomatch hok
  have hwritten : bareWorkshop.OnlyReadingFails (.folder absentFolder)
      [.has codeEntry, .write codeEntry emptyAnswer] := by
    refine onlyReadingFails_concat hhas fun failure hfailure => ?_
    have hok : ((StoreChoice.folder absentFolder).answer bareWorkshop [.has codeEntry]
        (.write codeEntry emptyAnswer)).isOk = true := by
      decide +kernel
    rw [hfailure] at hok
    exact nomatch hok
  exact onlyReadingFails_concat hwritten fun _ _ => ⟨codeEntry, rfl⟩

/-- An entry is looked for, written and read. -/
theorem stores_interchangeable_of_absentFolder : bareWorkshop.files.WellFormed ∧
    bareWorkshop.files.Vacant absentFolder.folder ∧ Files.hasNull absentFolder.folder = false ∧
    bareWorkshop.OnlyReadingFails (.folder absentFolder)
      [.has codeEntry, .write codeEntry emptyAnswer, .read codeEntry] ∧
    StoreAnswer.Agree
      (StoreChoice.memory.answer bareWorkshop.emptied [.has codeEntry, .write codeEntry emptyAnswer]
        (.read codeEntry))
      ((StoreChoice.folder absentFolder).answer bareWorkshop [.has codeEntry, .write codeEntry emptyAnswer]
        (.read codeEntry)) := by
  have hfiles : bareWorkshop.files.WellFormed := .empty
  have hvacant : bareWorkshop.files.Vacant absentFolder.folder :=
    hfiles.vacant_of_missing (by decide +kernel) (by decide)
  have hall := stores_interchangeable hfiles hvacant (by decide) onlyReadingFails_codeEntry
  exact ⟨hfiles, hvacant, by decide, onlyReadingFails_codeEntry, (hall.1 _ _ (List.prefix_refl _)).2.2⟩

end Workshop

end SolidityBuild
