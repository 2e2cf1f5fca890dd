import SolidityBuild.Compilation.Merged
import SolidityBuild.Proofs.Json.KeyOrder

/-!
Merging contents into sources. What stands for a path afterwards depends on what stood for it before and
on the entry for the path alone; so the order of the entries decides the order of the new paths and nothing
else.
-/

set_option autoImplicit false

namespace SolidityBuild

open Json

namespace MergedReport

/-- The content that an entry has to give. -/
def contentOf? (entry : Json) : Option Json :=
  match entry.get? "content" with
  | none => none
  | some .null => none
  | some content => some content

/-- A source with the content of an entry, where there is one. -/
def withEntry (source : Option MergedSource) (entry : Option Json) : Option MergedSource :=
  match entry.bind contentOf? with
  | none => source
  | some content => some { source.getD {} with content }

/-- The table of sources after one entry. -/
def putEntry (sources : Table MergedSource) (path : Text) (entry : Json) : Table MergedSource :=
  match contentOf? entry with
  | none => sources
  | some content => putContent sources path content

theorem putContents_cons (sources : Table MergedSource) (path : Text) (entry : Json) (rest : Table Json) :
    putContents sources ((path, entry) :: rest) = putContents (putEntry sources path entry) rest := by
  rw [putContents, List.foldl_cons, putEntry, contentOf?]
  dsimp only
  cases entry.get? "content" with
  | none => rfl
  | some content => cases content <;> rfl

variable {sources : Table MergedSource}

theorem get?_putEntry_self (sources : Table MergedSource) (path : Text) (entry : Json) :
    (putEntry sources path entry).get? path = withEntry (sources.get? path) (some entry) := by
  unfold putEntry withEntry
  rw [Option.bind_some]
  cases contentOf? entry with
  | none => rfl
  | some content => exact Table.get?_put_self sources path _

theorem get?_putEntry_of_ne {path path' : Text} (h : path' ≠ path) (entry : Json) :
    (putEntry sources path entry).get? path' = sources.get? path' := by
  unfold putEntry
  cases contentOf? entry with
  | none => rfl
  | some content => exact Table.get?_put_of_ne h sources _

/-- **What stands for a path after merging.** The induction is on the entries, of which at most one is for
the path. -/
theorem get?_putContents {entries : Table Json} (hentries : entries.keys.Nodup) (path : Text) :
    (putContents sources entries).get? path = withEntry (sources.get? path) (entries.get? path) := by
  induction entries generalizing sources with
  | nil => rfl
  | cons e rest ih =>
    obtain ⟨path', entry⟩ := e
    rw [Table.keys, List.map_cons, List.nodup_cons] at hentries
    rw [putContents_cons, ih hentries.2]
    by_cases h : path = path'
    · subst h
      -- no later entry is for this path
      have hrest : Table.get? rest path = none := Table.get?_eq_none_iff.mpr hentries.1
      rw [hrest, get?_putEntry_self, Table.get?_cons_self]
      rfl
    · rw [get?_putEntry_of_ne h, Table.get?_cons_of_ne h]

/-- Merging keeps the paths in their places; those that get a content and were not there follow, in the order of
the entries. -/
theorem changedAt_putContents {entries : Table Json} (hentries : entries.keys.Nodup) :
    sources.ChangedAt (putContents sources entries)
      (Table.keys (entries.filter fun e => (contentOf? e.2).isSome)) := by
  induction entries generalizing sources with
  | nil => exact .refl sources
  | cons e rest ih =>
    obtain ⟨path, entry⟩ := e
    rw [Table.keys, List.map_cons, List.nodup_cons] at hentries
    rw [putContents_cons, putEntry, List.filter_cons]
    dsimp only
    cases contentOf? entry with
    | none => exact ih hentries.2
    | some content =>
      refine (Table.changedAt_put sources path _).trans (ih hentries.2) fun k hk hpath => hentries.1 ?_
      obtain rfl := List.mem_singleton.mp hpath
      exact (List.filter_sublist.map Prod.fst).subset hk

theorem nodup_keys_putContents (hsources : sources.keys.Nodup) (entries : Table Json) :
    (putContents sources entries).keys.Nodup := by
  induction entries generalizing sources with
  | nil => exact hsources
  | cons e rest ih =>
    obtain ⟨path, entry⟩ := e
    rw [putContents_cons]
    apply ih
    unfold putEntry
    cases contentOf? entry with
    | none => exact hsources
    | some content => exact Table.nodup_keys_put hsources path _

/-- Entries that give the same contents merge into permutations of the same sources. -/
theorem putContents_perm (hsources : sources.keys.Nodup) {entries entries' : Table Json}
    (hentries : entries.keys.Nodup) (hentries' : entries'.keys.Nodup)
    (h : ∀ path, (entries.get? path).bind contentOf? = (entries'.get? path).bind contentOf?) :
    (putContents sources entries).Perm (putContents sources entries') := by
  apply Table.perm_of_get?_eq (nodup_keys_putContents hsources entries)
    (nodup_keys_putContents hsources entries')
  intro path
  rw [get?_putContents hentries, get?_putContents hentries']
  unfold withEntry
  rw [h path]

/-! ## Contents -/

/-- Every source has a text for its content, or nothing. -/
def Textual (sources : Table MergedSource) : Prop :=
  ∀ e ∈ sources, e.2.content = .null ∨ ∃ t, e.2.content = .text t

theorem textual_ofReport (r : CompileReport) : Textual (r.sources.mapValues .ofReport) := by
  intro e he
  obtain ⟨⟨path, source⟩, -, rfl⟩ := List.mem_map.mp he
  dsimp only [MergedSource.ofReport]
  cases source.source with
  | none => exact .inl rfl
  | some t => exact .inr ⟨t, rfl⟩

/-- Merging texts keeps the contents texts. -/
theorem textual_putContents (h : Textual sources) {entries : Table Json}
    (hentries : ∀ e ∈ entries, ∃ t, e.2.get? "content" = some (.text t)) :
    Textual (putContents sources entries) := by
  induction entries generalizing sources with
  | nil => exact h
  | cons e rest ih =>
    obtain ⟨path, entry⟩ := e
    rw [putContents_cons]
    apply ih _ fun e he => hentries e (List.mem_cons_of_mem _ he)
    obtain ⟨t, ht⟩ := hentries (path, entry) List.mem_cons_self
    rw [putEntry, contentOf?, show entry.get? "content" = _ from ht]
    intro e he
    rcases Table.mem_put he with rfl | hold
    · exact .inr ⟨t, rfl⟩
    · exact h e hold

/-- A document with the given sources, all of them with texts for their contents. -/
structure Sources (request entries : Table Json) : Prop where
  found : request.get? "sources" = some (.object entries)
  texts : ∀ e ∈ entries, ∃ t, e.2.get? "content" = some (.text t)

/-- Entries with texts for their contents give the same contents as others that are equal up to the order
of keys. -/
theorem contentOf?_eq {p : Text → Prop} {entries entries' : Table Json}
    (h : Alike p (.object entries) (.object entries'))
    (hentries : ∀ e ∈ entries, ∃ t, e.2.get? "content" = some (.text t)) (path : Text) :
    (entries.get? path).bind contentOf? = (entries'.get? path).bind contentOf? := by
  cases hget : Table.get? entries path with
  | none => rw [h.get?_eq_none hget]
  | some entry =>
    obtain ⟨entry', hget', hee⟩ := h.exists_get? hget
    obtain ⟨t, ht⟩ := hentries (path, entry) (Table.mem_of_get? hget)
    cases entry with
    | object fields =>
      obtain ⟨fields', rfl⟩ := hee.reordered.exists_object
      have hfield : (object fields).get? "content" = some (.text t) := ht
      have hfield' : (object fields').get? "content" = some (.text t) := hee.get?_text hfield
      rw [hget', Option.bind_some, Option.bind_some]
      unfold contentOf?
      rw [hfield, hfield']
    | _ => exact nomatch ht

/-- Where all contents are texts, every entry gives one. -/
theorem Sources.filter_eq {request entries : Table Json} (h : Sources request entries) :
    (entries.filter fun e => (contentOf? e.2).isSome) = entries := by
  refine List.filter_eq_self.mpr fun e he => ?_
  obtain ⟨t, ht⟩ := h.texts e he
  rw [contentOf?, ht]
  rfl

theorem merge_eq (r : CompileReport) {request entries : Table Json} (h : Sources request entries) :
    merge r request = .ok ⟨r, putContents (r.sources.mapValues .ofReport) entries⟩ := by
  rw [merge, requestSources, field, h.found]
  rfl

/-- Merged reports of which only the order of the sources may differ. -/
structure Same (m m' : MergedReport) : Prop where
  report : m.report = m'.report
  keys : m.sources.keys.Nodup
  perm : m.sources.Perm m'.sources
  textual : Textual m.sources
  textual' : Textual m'.sources

/-- **Merging does not see the order of keys**, except for the order of new paths. -/
theorem merge_same {p : Text → Prop} {r : CompileReport} {d d' entries entries' : Table Json}
    (hr : r.sources.keys.Nodup) (hd : Alike p (.object d) (.object d')) (h : Sources d entries)
    (h' : Sources d' entries') : ∃ m m', merge r d = .ok m ∧ merge r d' = .ok m' ∧ Same m m' := by
  have hentries : Alike p (.object entries) (.object entries') := by
    obtain ⟨y, hy, hsources⟩ := hd.exists_get? h.found
    rw [h'.found] at hy
    exact Option.some.inj hy ▸ hsources
  have hkeys : (r.sources.mapValues MergedSource.ofReport).keys.Nodup := by rwa [Table.keys_mapValues]
  exact ⟨_, _, merge_eq r h, merge_eq r h', rfl, nodup_keys_putContents hkeys entries,
    putContents_perm hkeys hentries.left.nodup_keys hentries.right.nodup_keys (contentOf?_eq hentries h.texts),
    textual_putContents (textual_ofReport r) h.texts, textual_putContents (textual_ofReport r) h'.texts⟩

end MergedReport

end SolidityBuild
