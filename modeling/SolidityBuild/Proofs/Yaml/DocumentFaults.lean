import SolidityBuild.Proofs.Yaml.Faults

/-!
Faults of YAML documents. Whoever reads the tokens meets the fault with which they break off, or finds that they are no
document; whoever takes the values of its scalars meets those that spell none. There is no other fault.
-/

set_option autoImplicit false

namespace SolidityBuild

namespace Yaml

/-! ## Reading tokens -/

/-- A reader whose tokens are sound. -/
def Reader.Intact (r : Reader) : Prop := ∀ t ∈ r.tokens, t.Sound

/-- A step of reading that keeps the tokens sound, or fails with a fault that arises in one of these ways. -/
def Reads {α : Type} (m : Read α) : Prop := ∀ r : Reader, r.Intact → Ends (fun read => read.2.Intact) (m.run r)

namespace Reads

variable {α β : Type} {m m' : Read α}

theorem pure (a : α) : Reads (Pure.pure a : Read α) := fun _ h => h

theorem fail (how : Malformation) : Reads (Reader.fail how : Read α) := fun _ _ => Fault.Arises.malformed how

theorem bind {f : α → Read β} (hm : Reads m) (hf : ∀ a, Reads (f a)) : Reads (m >>= f) := by
  intro r hr
  rw [StateT.run_bind]
  exact (hm r hr).bind fun read hread => hf read.1 read.2 hread

theorem ite {p : Prop} [Decidable p] (hm : Reads m) (hm' : Reads m') : Reads (if p then m else m') := by
  split
  · exact hm
  · exact hm'

theorem map {f : α → β} (hm : Reads m) : Reads (f <$> m) := by
  rw [map_eq_pure_bind]
  exact hm.bind fun a => pure (f a)

theorem get : Reads (MonadState.get : Read Reader) := fun _ h => h

theorem change {f : Reader → Reader} (hf : ∀ r, (f r).tokens ⊆ r.tokens) : Reads (modify f : Read Unit) :=
  fun r h t ht => h t (hf r ht)

end Reads

namespace Reader

theorem reads_peek : Reads peek := by
  intro r hr
  obtain ⟨tokens, nodes, anchors, handles⟩ := r
  -- a token that says why the text breaks off is where its fault is met
  cases tokens with
  | nil => exact hr
  | cons t rest =>
    cases t with
    | broken fault => exact hr (.broken fault) List.mem_cons_self fault rfl
    | _ => exact hr

theorem reads_skip : Reads skip := .change fun r => (List.tail_sublist r.tokens).subset

theorem reads_accept (t : Token) : Reads (accept t) :=
  reads_peek.bind fun _ => .ite (reads_skip.bind fun _ => .pure _) (.pure _)

theorem reads_readSeparator (first : Bool) : Reads (readSeparator first) := .ite (.pure _) (reads_accept _)

theorem reads_isNext (ts : List Token) : Reads (isNext ts) := reads_peek.bind fun _ => .pure _

theorem reads_newNode (node : Node) : Reads (newNode node) := fun _ hr => hr

theorem reads_setContent (n : Nat) (content : Content) : Reads (setContent n content) :=
  .change fun _ => List.Subset.refl _

theorem reads_emptyNode : Reads emptyNode := reads_newNode _

theorem reads_setAnchor (anchor : Option Text) (n : Nat) : Reads (setAnchor anchor n) := by
  cases anchor with
  | none => exact .pure _
  | some name => exact .change fun _ => List.Subset.refl _

theorem reads_readAnchor : Reads readAnchor := by
  refine reads_peek.bind fun t => ?_
  cases t with
  | anchor name => exact reads_skip.bind fun _ => .pure _
  | _ => exact .pure _

theorem reads_readTag : Reads readTag := by
  refine reads_peek.bind fun t => ?_
  cases t with
  | tag handle suffix => exact reads_skip.bind fun _ => .pure _
  | _ => exact .pure _

theorem reads_fullTag (handle : Option Text) (suffix : Text) : Reads (fullTag handle suffix) := by
  cases handle with
  | none => exact .pure _
  | some handle =>
    refine Reads.get.bind fun r => ?_
    cases Table.get? r.handles handle with
    | none => exact .fail _
    | some lead => exact .pure _

theorem reads_written (written : Option (Option Text × Text)) (anchor : Option Text) : Reads (match written with
    | none => pure ⟨anchor, none⟩
    | some (handle, suffix) => do
      let tag ← fullTag handle suffix
      pure ⟨anchor, some tag⟩ : Read Properties) := by
  cases written with
  | none => exact .pure _
  | some found => exact (reads_fullTag _ _).bind fun _ => .pure _

theorem reads_readProperties : Reads readProperties := by
  refine reads_readAnchor.bind fun first => reads_readTag.bind fun written => ?_
  have hanchored := reads_written written
  dsimp only
  split
  · exact reads_readAnchor.bind hanchored
  · exact (Reads.pure first).bind hanchored

theorem reads_checkAnchor (anchor : Option Text) : Reads (checkAnchor anchor) := by
  cases anchor with
  | none => exact .pure _
  | some name => exact Reads.get.bind fun _ => .ite (.fail _) (.pure _)

theorem reads_scalarNode (p : Properties) (plain : Bool) (text : Text) : Reads (scalarNode p plain text) :=
  (reads_checkAnchor _).bind fun _ => (reads_newNode _).bind fun _ => (reads_setAnchor _ _).bind fun _ => .pure _

theorem reads_collectionNode (p : Properties) (tag : Text) {content : Read Content} (h : Reads content) :
    Reads (collectionNode p tag content) :=
  (reads_checkAnchor _).bind fun _ => (reads_newNode _).bind fun _ => (reads_setAnchor _ _).bind fun _ =>
    h.bind fun _ => (reads_setContent _ _).bind fun _ => .pure _

/-! ### Nodes -/

/-- What is said of all functions that read nodes, for one amount of fuel. -/
structure ReadsNodes (fuel : Nat) : Prop where
  node : ∀ place, Reads (readNode place fuel)
  nodeUnless : ∀ ends place, Reads (readNodeUnless ends place fuel)
  items : Reads (readItems fuel)
  looseItems : Reads (readLooseItems fuel)
  pairs : Reads (readPairs fuel)
  flowItems : ∀ first, Reads (readFlowItems first fuel)
  flowPairs : ∀ first, Reads (readFlowPairs first fuel)

section Nodes

variable {fuel : Nat} (h : ReadsNodes fuel)

include h

theorem reads_readNode (place : Place) : Reads (readNode place (fuel + 1)) := by
  rw [readNode]
  refine reads_peek.bind fun t => ?_
  split
  · next name =>
    refine reads_skip.bind fun _ => Reads.get.bind fun r => ?_
    cases Table.get? r.anchors name with
    | none => exact .fail _
    | some n => exact .pure _
  · refine reads_readProperties.bind fun p => reads_peek.bind fun t => ?_
    split
    · exact reads_skip.bind fun _ => reads_scalarNode _ _ _
    · exact reads_skip.bind fun _ => reads_collectionNode _ _ ((h.flowItems _).bind fun _ => .pure _)
    · exact reads_skip.bind fun _ => reads_collectionNode _ _ ((h.flowPairs _).bind fun _ => .pure _)
    · refine .ite ?_ (.ite ?_ (.ite ?_ (.ite ?_ (.fail _))))
      · exact reads_collectionNode _ _ (h.looseItems.bind fun _ => .pure _)
      · exact reads_skip.bind fun _ => reads_collectionNode _ _ (h.items.bind fun _ => .pure _)
      · exact reads_skip.bind fun _ => reads_collectionNode _ _ (h.pairs.bind fun _ => .pure _)
      · exact (reads_checkAnchor _).bind fun _ => (reads_newNode _).bind fun _ =>
          (reads_setAnchor _ _).bind fun _ => .pure _

theorem reads_readNodeUnless (ends : List Token) (place : Place) : Reads (readNodeUnless ends place (fuel + 1)) := by
  rw [readNodeUnless]
  exact (reads_isNext _).bind fun _ => .ite reads_emptyNode (h.node _)

theorem reads_readItems : Reads (readItems (fuel + 1)) := by
  rw [readItems]
  refine (reads_accept _).bind fun _ => .ite ?_ ((reads_accept _).bind fun _ => .ite (.pure _) (.fail _))
  exact (h.nodeUnless _ _).bind fun _ => h.items.bind fun _ => .pure _

theorem reads_readLooseItems : Reads (readLooseItems (fuel + 1)) := by
  rw [readLooseItems]
  refine (reads_accept _).bind fun _ => .ite ?_ (.pure _)
  exact (h.nodeUnless _ _).bind fun _ => h.looseItems.bind fun _ => .pure _

theorem reads_readPairs : Reads (readPairs (fuel + 1)) := by
  rw [readPairs]
  refine (reads_accept _).bind fun _ => .ite ?_ ((reads_accept _).bind fun _ => .ite (.pure _) (.fail _))
  refine (h.nodeUnless _ _).bind fun key => (reads_accept _).bind fun _ => ?_
  have hrest : ∀ value, Reads (do
      let rest ← readPairs fuel
      pure ((key, value) :: rest)) := fun value => h.pairs.bind fun _ => .pure _
  exact .ite ((h.nodeUnless _ _).bind hrest) (reads_emptyNode.bind hrest)

theorem reads_readFlowItems (first : Bool) : Reads (readFlowItems first (fuel + 1)) := by
  rw [readFlowItems]
  refine (reads_accept _).bind fun _ => .ite (.pure _) ((reads_readSeparator _).bind fun _ => .ite (.fail _) ?_)
  refine (reads_accept _).bind fun _ => .ite ?_ ?_
  · refine (reads_newNode _).bind fun n => (h.nodeUnless _ _).bind fun key => (reads_accept _).bind fun _ => ?_
    have hrest : ∀ value, Reads (do
        setContent n (.mapping [(key, value)])
        let rest ← readFlowItems false fuel
        pure (n :: rest)) :=
      fun value => (reads_setContent _ _).bind fun _ => (h.flowItems _).bind fun _ => .pure _
    exact .ite ((h.nodeUnless _ _).bind hrest) (reads_emptyNode.bind hrest)
  · refine (reads_accept _).bind fun _ => .ite (.pure _) ?_
    exact (h.node _).bind fun _ => (h.flowItems _).bind fun _ => .pure _

theorem reads_readFlowPairs (first : Bool) : Reads (readFlowPairs first (fuel + 1)) := by
  rw [readFlowPairs]
  refine (reads_accept _).bind fun _ => .ite (.pure _) ((reads_readSeparator _).bind fun _ => .ite (.fail _) ?_)
  refine (reads_accept _).bind fun _ => .ite ?_ ?_
  · refine (h.nodeUnless _ _).bind fun key => (reads_accept _).bind fun _ => ?_
    have hrest : ∀ value, Reads (do
        let rest ← readFlowPairs false fuel
        pure ((key, value) :: rest)) := fun value => (h.flowPairs _).bind fun _ => .pure _
    exact .ite ((h.nodeUnless _ _).bind hrest) (reads_emptyNode.bind hrest)
  · refine (reads_accept _).bind fun _ => .ite (.pure _) ?_
    exact (h.node _).bind fun _ => reads_emptyNode.bind fun _ => (h.flowPairs _).bind fun _ => .pure _

end Nodes

/-- The induction is on the fuel, of which every call inside has one unit less. -/
theorem readsNodes (fuel : Nat) : ReadsNodes fuel := by
  induction fuel with
  | zero =>
    exact ⟨fun _ => .fail _, fun _ _ => .fail _, .fail _, .fail _, .fail _, fun _ => .fail _, fun _ => .fail _⟩
  | succ fuel ih =>
    exact ⟨reads_readNode ih, reads_readNodeUnless ih, reads_readItems ih, reads_readLooseItems ih,
      reads_readPairs ih, reads_readFlowItems ih, reads_readFlowPairs ih⟩

/-! ### Documents -/

theorem reads_readDirectives (fuel : Nat) (versioned : Bool) (handles : Table Text) :
    Reads (readDirectives fuel versioned handles) := by
  induction fuel generalizing versioned handles with
  | zero => exact .fail _
  | succ fuel ih =>
    rw [readDirectives]
    refine reads_peek.bind fun t => ?_
    cases t with
    | directive d =>
      refine reads_skip.bind fun _ => ?_
      cases d with
      | version major => exact .ite (.fail _) (ih _ _)
      | tag handle lead => exact .ite (.fail _) (ih _ _)
      | other => exact ih _ _
    | _ => exact .pure _

theorem reads_skipEnds (fuel : Nat) : Reads (skipEnds fuel) := by
  induction fuel with
  | zero => exact .pure _
  | succ fuel ih => exact (reads_accept _).bind fun _ => .ite ih (.pure _)

theorem reads_fuel : Reads fuel := fun _ hr => hr

theorem reads_readStart : Reads readStart := by
  refine reads_fuel.bind fun fuel => (reads_skipEnds _).bind fun _ => (reads_isNext _).bind fun _ =>
    .ite (.pure _) ?_
  refine (reads_readDirectives _ _ _).bind fun handles => (reads_accept _).bind fun _ => .ite ?_ (.fail _)
  exact fun _ hr => hr

/-- However a document begins, no other one may follow it. -/
theorem reads_end (root : Option Nat) : Reads (match root with
    | none => pure none
    | some root => do
      let _ ← accept .documentEnd
      if ← readStart then fail .severalDocuments else pure (some root)) := by
  cases root with
  | none => exact .pure _
  | some root => exact (reads_accept _).bind fun _ => reads_readStart.bind fun _ => .ite (.fail _) (.pure _)

theorem reads_readDocument : Reads readDocument := by
  refine reads_fuel.bind fun fuel => reads_peek.bind fun t => ?_
  have hnothing := (Reads.pure none).bind reads_end
  have hempty := (reads_emptyNode.map (f := some)).bind reads_end
  have hnode := (((readsNodes fuel).node .block).map (f := some)).bind reads_end
  dsimp only
  split
  case h_1 => exact hnothing
  case h_2 | h_3 =>
    refine reads_readStart.bind fun _ => .ite (reads_peek.bind fun t => ?_) hnothing
    split
    case h_5 => exact hnode
    all_goals exact hempty
  case h_4 => exact Reads.bind (fun _ hr => hr) fun _ => hnode

end Reader

theorem ends_ofText (text : Text) : Accounted (Graph.ofText text) := by
  refine .ite ?_ (.malformed _)
  exact (Reader.reads_readDocument ⟨tokens text, #[], [], []⟩ (sound_of_mem_tokens text)).map fun _ _ => trivial

/-! ## Values -/

namespace Graph

variable (g : Graph)

/-- Where a scalar is read as a value, it may spell none. -/
theorem accounted_readScalar (tag text : Text) : Accounted (readScalar tag text) := by
  cases hread : readScalar tag text with
  | error fault => exact .error (.scalar hread)
  | ok value => exact trivial

theorem accounted_valueBy (tag : Text) (n : Nat) : Accounted (g.valueBy tag n) := by
  rw [valueBy]
  split
  · exact .pure trivial
  · split
    · exact accounted_readScalar _ _
    · split <;> exact .malformed _

theorem accounted_value (n : Nat) : Accounted (g.value n) := g.accounted_valueBy _ n

theorem accounted_key (n : Nat) : Accounted (g.key n) := by
  refine (g.accounted_valueBy _ _).bind fun value _ => ?_
  cases value with
  | collection => exact .malformed _
  | _ => exact .pure trivial

/-- The induction is on the fuel, for both functions at once. -/
theorem accounted_merged (fuel : Nat) :
    (∀ pending n, Accounted (g.mergedEntries pending fuel n)) ∧
      ∀ pending n, Accounted (g.mergeSource pending fuel n) := by
  induction fuel with
  | zero => exact ⟨fun _ _ => .pure trivial, fun _ _ => .pure trivial⟩
  | succ fuel ih =>
    constructor
    · intro pending n
      rw [mergedEntries]
      split
      · refine .ite (.pure trivial) ?_
        exact (Ends.mapM (fun e => ih.2 _ _) _).bind fun _ _ => .pure trivial
      · exact .malformed _
    · intro pending n
      rw [mergeSource]
      split
      · exact ih.1 _ _
      · exact (Ends.mapM (fun e => ih.1 _ _) _).bind fun _ _ => .pure trivial
      · exact .malformed _

theorem accounted_entries (n : Nat) : Accounted (g.entries n) := by
  rw [entries]
  split
  · exact (g.accounted_merged _).1 _ _
  · exact .malformed _

theorem accounted_singleEntry (n : Nat) : Accounted (g.singleEntry n) := by
  rw [singleEntry]
  split
  · exact .pure trivial
  · exact .malformed _

theorem accounted_checkCollection (kind : CollectionKind) (n : Nat) : Accounted (g.checkCollection kind n) := by
  unfold checkCollection
  split
  · exact (Ends.mapM g.accounted_value _).bind fun _ _ => .pure trivial
  · exact .malformed _
  · refine .bind (Ends.mapM (fun item => ?_) _) fun _ _ => .pure trivial
    refine (g.accounted_singleEntry item).bind fun e _ => ?_
    exact (g.accounted_value _).bind fun _ _ => (g.accounted_value _).bind fun _ _ => .pure trivial
  · exact .malformed _
  · refine (g.accounted_entries n).bind fun entries _ => .bind (Ends.mapM (fun e => ?_) _) fun _ _ => .pure trivial
    exact (g.accounted_key _).bind fun _ _ => (g.accounted_value _).bind fun _ _ => .pure trivial

theorem accounted_checkLevels (fuel : Nat) (seen : List Nat) (level : List (Nat × CollectionKind)) :
    Accounted (g.checkLevels fuel seen level) := by
  induction fuel generalizing seen level with
  | zero => exact .pure trivial
  | succ fuel ih =>
    cases level with
    | nil => exact .pure trivial
    | cons first level =>
      unfold checkLevels
      exact .bind (Ends.mapM (fun (n, kind) => g.accounted_checkCollection kind n) _) fun _ _ => ih _ _

end Graph

theorem Document.accounted_ofNode (g : Graph) (root : Nat) : Accounted (ofNode g root) := by
  refine (g.accounted_value root).bind fun value _ => ?_
  split
  · exact .pure trivial
  · refine (g.accounted_checkLevels _ _ _).bind fun _ _ => ?_
    split
    · refine (g.accounted_entries root).bind fun entries _ => .map (Ends.mapM (fun e => ?_) _) fun _ _ => trivial
      exact (g.accounted_key _).bind fun _ _ => (g.accounted_value _).bind fun _ _ => .pure trivial
    · exact .pure trivial
  · exact .pure trivial

/-- **Every fault of a document arises in one of these ways**: the text is malformed, an escape is beyond the last code
point, a version has too many digits, or a scalar spells no value of the kind that its tag asks for. -/
theorem Document.arises_of_ofText {text : Text} {fault : Fault} (h : ofText text = .error fault) : fault.Arises := by
  have haccounted : Accounted (ofText text) := by
    refine (ends_ofText text).bind fun read _ => ?_
    split
    · exact .pure trivial
    · exact accounted_ofNode _ _
  rw [h] at haccounted
  exact haccounted

end Yaml

end SolidityBuild
