import SolidityBuild.Artifact.Artifacts
import SolidityBuild.Proofs.Json.WellFormed
import SolidityBuild.Proofs.Schema.Decoder

/-!
Decoded reports, seen from their documents. A report has the sources of its document, under distinct paths; its
diagnostics are the entries that the document lists, in their order; and it has the contracts of the document
under the same paths and names.
-/

set_option autoImplicit false

namespace SolidityBuild

open Schema Json

/-! ## What a document reports -/

namespace Json

/-- The items of the list under a key; no list has none. -/
def itemsAt (document : Json) (key : Text) : List Json := ((document.get? key).bind items?).getD []

/-- The entries of the object under a key; no object has none. -/
def entriesAt (document : Json) (key : Text) : Table Json := ((document.get? key).bind entries?).getD []

/-- The whole number that a value is read as. -/
def integer? (j : Json) : Option Int :=
  match Decoder.integer j with
  | .value n => some n
  | .faulty _ => none

/-- The text under a key. -/
def textAt? (document : Json) (key : Text) : Option Text := (document.get? key).bind text?

/-- The entries of a report document that say of themselves that they are errors, in order. -/
def errorEntries (document : Json) : List Json :=
  (document.itemsAt "errors").filter fun entry => entry.textAt? "severity" = some "error"

/-- The text of a diagnostic that is shown to a reader: the formatted one, which has two keys, unless it is empty
or not there; else the plain one. -/
def shownText (entry : Json) : Text :=
  match ((entry.get? "formattedMessage").or (entry.get? "formatted_message")).bind text? with
  | some (c :: t) => c :: t
  | _ => (entry.textAt? "message").getD []

/-- The paths of a report document under which a contract of the given name is reported, in order. -/
def definingPaths (document : Json) (name : Text) : List Text :=
  ((document.entriesAt "contracts").filter fun e => (e.2.get? name).isSome).map Prod.fst

end Json

/-! ## Diagnostics -/

theorem Diagnostic.ofEntry {entry : Json} {d : Diagnostic} (h : Diagnostic.decoder entry = .value d) :
    entry.textAt? "severity" = some d.severity ∧ entry.shownText = d.display := by
  obtain ⟨t, rfl, hread⟩ := model_eq_value h
  obtain ⟨g, formatted, hg, hformatted, rfl⟩ := Decoded.seq_eq_value hread
  obtain ⟨g', message, hg', hmessage, rfl⟩ := Decoded.seq_eq_value hg
  obtain ⟨severity, hseverity, rfl⟩ := Decoded.map_eq_value hg'
  have hget : ∀ key, (Json.object t).get? key = Table.get? t key := fun _ => rfl
  have hseverityText : (Json.object t).textAt? "severity" = some severity := by
    obtain ⟨x, hx, htext⟩ := Field.required_eq_value hseverity
    obtain rfl := Decoder.text_eq_value htext
    rw [textAt?, hget, hx]
    rfl
  have hmessageText : ((Json.object t).textAt? "message").getD [] = message := by
    rw [textAt?, hget]
    rcases Field.withDefault_eq_value hmessage with ⟨hnone, rfl⟩ | ⟨x, hx, htext⟩
    · rw [hnone]
      rfl
    · obtain rfl := Decoder.text_eq_value htext
      rw [hx]
      rfl
  have hformattedText : ((Table.get? t "formattedMessage").or (Table.get? t "formatted_message")).bind text? =
      formatted := by
    rcases Field.read_or_eq_value hformatted with ⟨hnone, hdefault⟩ | ⟨x, hx, htext⟩
    · rw [hnone]
      exact Decoded.value.inj hdefault
    · rw [hx]
      rcases Decoder.nullable_eq_value htext with ⟨rfl, rfl⟩ | ⟨b, hb, rfl⟩
      · rfl
      · obtain rfl := Decoder.text_eq_value hb
        rfl
  refine ⟨hseverityText, ?_⟩
  rw [shownText, hget, hget, hformattedText, hmessageText]
  rfl

/-! ## Fields -/

theorem get?_object (t : Table Json) (key : Text) : (Json.object t).get? key = Table.get? t key := rfl

/-- A field with a list is read, item by item, from the list under its name. -/
theorem forall₂_itemsAt {α : Type} {name : Text} {t : Table Json} {d : Decoder α} {as : List α}
    (h : Field.withDefault ⟨name, none⟩ t [] (Decoder.list d) = .value as) :
    List.Forall₂ (fun x a => d x = .value a) (itemsAt (.object t) name) as := by
  rw [itemsAt, get?_object]
  rcases Field.withDefault_eq_value h with ⟨hnone, rfl⟩ | ⟨x, hx, hlist⟩
  · rw [hnone]
    exact .nil
  · obtain ⟨items, rfl, hitems⟩ := Decoder.list_eq_value hlist
    rw [hx]
    exact hitems

/-- A field with a table is read, entry by entry, from the object under its name. -/
theorem forall₂_entriesAt {α : Type} {name : Text} {t : Table Json} {d : Decoder α} {as : Table α}
    (h : Field.withDefault ⟨name, none⟩ t [] (Decoder.table d) = .value as) :
    List.Forall₂ (fun e f => e.1 = f.1 ∧ d e.2 = .value f.2) (entriesAt (.object t) name) as := by
  rw [entriesAt, get?_object]
  rcases Field.withDefault_eq_value h with ⟨hnone, rfl⟩ | ⟨x, hx, htable⟩
  · rw [hnone]
    exact .nil
  · obtain ⟨entries, rfl, hentries⟩ := Decoder.table_eq_value htable
    rw [hx]
    exact hentries

theorem Json.WellFormed.entriesAt {p : Text → Prop} {t : Table Json} (h : WellFormed p (.object t)) (key : Text) :
    WellFormed p (.object ((Json.object t).entriesAt key)) := by
  rw [Json.entriesAt, get?_object]
  cases hget : Table.get? t key with
  | none => exact .empty
  | some x =>
    cases x with
    | object entries => exact h.of_get? hget
    | _ => exact .empty

/-! ## Sources -/

/-- The number, the text and the tree of a source are those of its entry; nothing and null are none. -/
theorem SourceReport.ofEntry {entry : Json} {s : SourceReport} (h : SourceReport.decoder entry = .value s) :
    s.id = (entry.get? "id").bind integer? ∧ s.source = entry.textAt? "source" ∧
      s.astJson = (entry.get? "ast").getD .null := by
  obtain ⟨t, rfl, hread⟩ := model_eq_value h
  obtain ⟨g, source, hg, hsource, rfl⟩ := Decoded.seq_eq_value hread
  obtain ⟨g', ast, hg', hast, rfl⟩ := Decoded.seq_eq_value hg
  obtain ⟨id, hid, rfl⟩ := Decoded.map_eq_value hg'
  rw [textAt?, get?_object, get?_object, get?_object]
  refine ⟨?_, ?_, ?_⟩
  · rcases Field.withDefault_eq_value hid with ⟨hnone, rfl⟩ | ⟨x, hx, hnumber⟩
    · rw [hnone]
      rfl
    · rw [hx]
      rcases Decoder.nullable_eq_value hnumber with ⟨rfl, rfl⟩ | ⟨n, hgiven, rfl⟩
      · rfl
      · rw [Option.bind_some, integer?, hgiven]
  · rcases Field.withDefault_eq_value hsource with ⟨hnone, rfl⟩ | ⟨x, hx, htext⟩
    · rw [hnone]
      rfl
    · rw [hx]
      rcases Decoder.nullable_eq_value htext with ⟨rfl, rfl⟩ | ⟨text, hgiven, rfl⟩
      · rfl
      · rw [Decoder.text_eq_value hgiven]
        rfl
  · rcases Field.withDefault_eq_value hast with ⟨hnone, rfl⟩ | ⟨x, hx, htree⟩
    · rw [hnone]
      rfl
    · rw [hx]
      rcases Decoder.nullable_eq_value htree with ⟨rfl, rfl⟩ | ⟨tree, hmapping, rfl⟩
      · rfl
      · rw [Decoder.mapping_eq_value hmapping]
        rfl

/-! ## Reports -/

/-- Items that correspond one by one, of which the same are kept and the same is told. -/
theorem map_filter_eq_of_forall₂ {α β γ : Type} {R : α → β → Prop} {p : α → Bool} {q : β → Bool} {f : α → γ}
    {g : β → γ} {xs : List α} {ys : List β} (h : List.Forall₂ R xs ys) (hkept : ∀ x y, R x y → p x = q y)
    (htold : ∀ x y, R x y → f x = g y) : (xs.filter p).map f = (ys.filter q).map g := by
  induction h with
  | nil => rfl
  | @cons x y _ _ hxy _ ih =>
    rw [List.filter_cons, List.filter_cons, hkept x y hxy]
    split
    · rw [List.map_cons, List.map_cons, htold x y hxy, ih]
    · exact ih

namespace CompileReport

variable {j : Json} {r : CompileReport}

/-- What the parts of a report are read from. -/
theorem parts_of_ofJson (h : CompileReport.ofJson j = .ok r) :
    ∃ t, j = .object t ∧
      List.Forall₂ (fun x d => Diagnostic.decoder x = .value d) (j.itemsAt "errors") r.diagnostics ∧
      List.Forall₂ (fun e f => e.1 = f.1 ∧ Decoder.table ContractReport.decoder e.2 = .value f.2)
        (j.entriesAt "contracts") r.contracts ∧
      List.Forall₂ (fun e f => e.1 = f.1 ∧ SourceReport.decoder e.2 = .value f.2)
        (j.entriesAt "sources") r.sources := by
  obtain ⟨t, rfl, hread⟩ := model_eq_value (Decoded.toExcept_eq_ok h)
  obtain ⟨g, sources, hg, hsources, rfl⟩ := Decoded.seq_eq_value hread
  obtain ⟨g', contracts, hg', hcontracts, rfl⟩ := Decoded.seq_eq_value hg
  obtain ⟨diagnostics, hdiagnostics, rfl⟩ := Decoded.map_eq_value hg'
  exact ⟨t, rfl, forall₂_itemsAt hdiagnostics, forall₂_entriesAt hcontracts, forall₂_entriesAt hsources⟩

/-- The sources of a report have the paths of its document. -/
theorem keys_sources (h : CompileReport.ofJson j = .ok r) : r.sources.keys = (j.entriesAt "sources").keys := by
  obtain ⟨-, -, -, -, hsources⟩ := parts_of_ofJson h
  exact ((Table.forall₂_entries_iff (R := fun x s => SourceReport.decoder x = .value s)).mp hsources).1.symm

/-- What a report has for a path is read from what its document has for it. -/
theorem rel_sources (h : CompileReport.ofJson j = .ok r) (path : Text) :
    Option.Rel (fun x s => SourceReport.decoder x = .value s) ((j.entriesAt "sources").get? path)
      (r.sources.get? path) := by
  obtain ⟨-, -, -, -, hsources⟩ := parts_of_ofJson h
  exact Table.rel_get?_of_forall₂ hsources path

theorem nodup_keys_sources {p : Text → Prop} (hj : WellFormed p j) (h : CompileReport.ofJson j = .ok r) :
    r.sources.keys.Nodup := by
  have hkeys := keys_sources h
  obtain ⟨t, rfl, -⟩ := parts_of_ofJson h
  exact hkeys ▸ (hj.entriesAt "sources").nodup_keys

/-- **The fatal diagnostics of a report** are the error entries of its document, shown as they are there. -/
theorem display_fatal (h : CompileReport.ofJson j = .ok r) :
    r.fatal.map Diagnostic.display = j.errorEntries.map shownText := by
  obtain ⟨t, -, hdiagnostics, -, -⟩ := parts_of_ofJson h
  refine (map_filter_eq_of_forall₂ hdiagnostics (fun x d hd => ?_) fun x d hd => ?_).symm
  · rw [(Diagnostic.ofEntry hd).1, Diagnostic.isFatal, Diagnostic.fatalSeverity]
    exact decide_eq_decide.mpr Option.some_inj
  · exact (Diagnostic.ofEntry hd).2

theorem map_fst_definitions (r : CompileReport) (name : Text) : (r.definitions name).map Prod.fst =
    (r.contracts.filter fun e => Table.has e.2 name).map Prod.fst := by
  rw [definitions, List.map_filterMap, ← List.filterMap_eq_map, List.filterMap_filter]
  refine List.filterMap_congr fun e _ => ?_
  obtain ⟨path, contracts⟩ := e
  dsimp only [Table.has]
  rcases Option.eq_none_or_eq_some (Table.get? contracts name) with hnone | ⟨contract, hsome⟩
  · simp [hnone]
  · simp [hsome]

/-- **The paths that define a contract** are those under which the document reports one of that name. -/
theorem map_definitions (h : CompileReport.ofJson j = .ok r) (name : Text) :
    (r.definitions name).map Prod.fst = j.definingPaths name := by
  obtain ⟨t, -, -, hcontracts, -⟩ := parts_of_ofJson h
  rw [map_fst_definitions, definingPaths]
  refine (map_filter_eq_of_forall₂ hcontracts (fun e f hef => ?_) fun e f hef => hef.1).symm
  obtain ⟨row, hrow, hcells⟩ := Decoder.table_eq_value hef.2
  obtain ⟨hkeys, -⟩ := (Table.forall₂_entries_iff (R := fun x a => ContractReport.decoder x = .value a)).mp hcells
  rw [hrow, get?_object, Bool.eq_iff_iff, Table.has_iff, ← hkeys]
  exact Table.has_iff

end CompileReport

end SolidityBuild
