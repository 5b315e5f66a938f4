import ApiSurface.Emit.Statement
import ApiSurface.Emit.Stub
import ApiSurface.Proofs.Emit.Arguments
import ApiSurface.Proofs.Emit.Nested
import ApiSurface.Proofs.Overlay.Writable
import ApiSurface.Proofs.Surface.Plain

/-!
# What stops a document

Writing a document looks things up that the analysis has put down: the declaration
with a number, the member at a node, the signature and the API item of a declaration,
and for an ancillary one the primary.  Trees of any shape may be
walked; what carries the walk is that the span it stands at is `Within` the
declaration it is in, so that the next declaration below is one of its members.

Whatever stops the writing is no such lookup.  On a plain surface it is a defect,
since every piece that is written is a text.  One walk shows both.
-/

namespace ApiSurface

def Fault.isLookup : Fault → Bool
  | .defect (.unknownDeclaration _) => true
  | .defect (.memberNotFound _ _) => true
  | .defect (.noSignature _) => true
  | .defect .noPrimary => true
  | .defect (.noApiItem _) => true
  | _ => false

/-- The result has a property.  If there is none, no lookup is to blame, and where everything
is plain a defect is. -/
def Settles {α : Type} (plain : Prop) (result : Except Fault α) (post : α → Prop) : Prop :=
  match result with
  | .ok value => post value
  | .error fault => fault.isLookup = false ∧ (plain → ∃ cause, fault = .defect cause)

namespace Settles

variable {α β : Type} {plain : Prop} {result : Except Fault α} {post : α → Prop}

theorem ok {value : α} (h : post value) : Settles plain (.ok value) post := h

theorem pure {value : α} (h : post value) : Settles plain (Pure.pure value) post := h

theorem of_ok {value : α} (h : result = .ok value) (hpost : post value) :
    Settles plain result post := h ▸ hpost

theorem error {fault : Fault} (h : fault.isLookup = false)
    (hplain : plain → ∃ cause, fault = .defect cause) :
    Settles plain (.error fault) post := ⟨h, hplain⟩

theorem defect {cause : Defect} (h : (Fault.defect cause).isLookup = false) :
    Settles plain (.error (.defect cause)) post := ⟨h, fun _ => ⟨cause, rfl⟩⟩

theorem bind {next : α → Except Fault β} {final : β → Prop} (h : Settles plain result post)
    (hnext : ∀ value, post value → Settles plain (next value) final) :
    Settles plain (result >>= next) final := by
  cases result with
  | ok value => exact hnext value h
  | error fault => exact h

theorem map {change : α → β} (h : Settles plain result post) :
    Settles plain (result.map change) fun _ => True := by
  cases result with
  | ok value => trivial
  | error fault => exact h

theorem forM {check : α → Except Fault Unit} {values : List α}
    (h : ∀ value ∈ values, Settles plain (check value) fun _ => True) :
    Settles plain (values.forM check) fun _ => True := by
  induction values with
  | nil => exact pure trivial
  | cons value rest ih =>
      exact (h value (by simp)).bind fun _ _ => ih fun other hother => h other (by simp [hother])

theorem isLookup (h : Settles plain result post) {fault : Fault}
    (hfault : result = .error fault) : fault.isLookup = false := by
  rw [hfault] at h
  exact h.1

theorem cause (h : Settles plain result post) (hplain : plain) {fault : Fault}
    (hfault : result = .error fault) : ∃ cause, fault = .defect cause := by
  rw [hfault] at h
  exact h.2 hplain

theorem of_plain (h : Settles False result post)
    (hplain : plain → ∃ value, result = .ok value) : Settles plain result fun _ => True := by
  cases hresult : result with
  | ok value => trivial
  | error fault =>
      refine ⟨h.isLookup hresult, fun hp => ?_⟩
      obtain ⟨value, hvalue⟩ := hplain hp
      cases hresult.symm.trans hvalue

end Settles

theorem Datum.key_settles (datum : Datum) : Settles False datum.key fun _ => True := by
  unfold Datum.key
  split
  · exact .ok trivial
  · exact .error rfl False.elim

theorem Datum.asText_settles (operation : String) (datum : Datum) :
    Settles False (datum.asText operation) fun _ => True := by
  unfold Datum.asText
  split
  · exact .ok trivial
  · exact .error rfl False.elim

theorem Import.topName_settles (source : Import) :
    Settles False source.topName fun _ => True :=
  (Datum.asText_settles _ _).bind fun _ _ => .pure trivial

private theorem Import.localName_settles (source : Import) :
    Settles False source.localName fun _ => True := by
  unfold localName
  split
  · split
    · exact source.topName_settles.map
    · exact (Datum.asText_settles _ _).map
  · exact .ok trivial

/-! ## What the analysis has put down -/

namespace Surface

/-- The declarations make up a forest, numbers tell them apart, and each has an item. -/
structure Indexed (surface : Surface) : Prop where
  sound : surface.Sound
  forest : surface.inventory.Forest surface.graph

variable {surface : Surface}

theorem analyze_indexed {graph : ModuleGraph} {router : Router}
    (h : analyze graph router = .ok surface) : surface.Indexed := by
  obtain ⟨entities, itemized, remarked, hsteps⟩ := analyze_steps h
  refine ⟨hsteps.sound, ?_⟩
  rw [hsteps.graph_eq]
  exact Inventory.ofGraph_forest hsteps.declared

theorem Plain.indexed (h : surface.Plain) : surface.Indexed := ⟨h.sound, h.forest⟩

private theorem Plain.resolve?_text (h : surface.Plain) {node : Node} {key : Datum}
    (hkey : surface.graph.resolve? node = some key) : ∃ text, key = .text text := by
  obtain ⟨hlookup, -⟩ := Option.filter_eq_some_iff.mp hkey
  exact h.bindings (node.id, key) (Entries.mem_of_lookup hlookup)

variable {declaration : Declaration}

theorem Indexed.exists_signature (h : surface.Indexed)
    (hdeclaration : declaration ∈ surface.inventory.allDeclarations) :
    ∃ signature, surface.signature (.int declaration.id) = .ok signature := by
  obtain ⟨item, hitem⟩ := h.sound.known declaration hdeclaration
  simp only [Surface.item, itemFor, bind_eq_ok] at hitem
  obtain ⟨signature, hsignature, -⟩ := hitem
  exact ⟨signature, hsignature⟩

variable {plain : Prop}

theorem Indexed.declaration_settles (h : surface.Indexed)
    (hdeclaration : declaration ∈ surface.inventory.allDeclarations) :
    Settles plain (surface.declaration (.int declaration.id)) (· = declaration) :=
  .of_ok (h.sound.declaration_eq hdeclaration) rfl

theorem Indexed.item_settles (h : surface.Indexed)
    (hdeclaration : declaration ∈ surface.inventory.allDeclarations) :
    Settles plain (surface.item declaration.id) fun _ => True := by
  obtain ⟨item, hitem⟩ := h.sound.known declaration hdeclaration
  exact .of_ok hitem trivial

theorem Indexed.signature_settles (h : surface.Indexed)
    (hdeclaration : declaration ∈ surface.inventory.allDeclarations) :
    Settles plain (surface.signature (.int declaration.id)) fun _ => True := by
  obtain ⟨signature, hsignature⟩ := h.exists_signature hdeclaration
  exact .of_ok hsignature trivial

theorem Indexed.reviewMessages_settles (h : surface.Indexed)
    (hdeclaration : declaration ∈ surface.inventory.allDeclarations) :
    Settles plain (surface.reviewMessages (.int declaration.id)) fun messages =>
      messages ⊆ surface.router.messages := by
  refine (h.signature_settles hdeclaration).bind fun signature _ => ?_
  split
  · exact .pure (by simp)
  · refine .pure fun message hmessage => ?_
    obtain ⟨_, -, hmessage⟩ := List.mem_flatMap.mp hmessage
    exact (List.mem_filter.mp hmessage).1

variable (hplain : plain → surface.Plain)
include hplain

/-! Names are looked up too, but what is missing there is an entity. -/

theorem entityForNode_settles (node : Node) :
    Settles plain (surface.entityForNode node) fun found =>
      ∀ entity ∈ found, entity ∈ surface.entities := by
  unfold entityForNode
  split
  · exact .ok (by simp)
  · rename_i key hkey
    have hlookup : Settles plain (surface.inventory.lookup key) fun _ => True := by
      refine ((Datum.key_settles key).of_plain fun hp => ?_).bind fun name _ => ?_
      · obtain ⟨text, rfl⟩ := (hplain hp).resolve?_text hkey
        exact ⟨_, rfl⟩
      · split
        · exact .pure trivial
        · exact .pure trivial
        · exact .defect rfl
    exact hlookup.bind fun subject _ =>
      .pure fun entity hentity => List.mem_of_find?_eq_some hentity

theorem writtenName_settles {entity : Entity} (hentity : entity ∈ surface.entities) :
    Settles plain (writtenName entity) fun name => plain → ∃ text, name = .text text := by
  unfold writtenName
  split
  · rename_i hpresent
    refine .pure fun hp => ?_
    have hname := (hplain hp).names entity hentity
    unfold Entity.hasTextName at hname
    split at hname
    · exact ⟨_, ‹_›⟩
    · simp [hpresent] at hname
  · have hlocal : Settles False entity.localName fun _ => True := by
      unfold Entity.localName Subject.localName
      split
      · exact .ok trivial
      · exact Import.localName_settles _
    refine (hlocal.of_plain fun hp => ?_).bind fun _ _ => .defect rfl
    obtain ⟨text, htext⟩ := (hplain hp).localNames entity hentity
    exact ⟨_, htext⟩

end Surface

/-! ## Walking down -/

namespace Emit

open SymbolTable

/-- The span stands in a declaration of the package: the nearest nodes below it that
declare something are those of some members. -/
structure Within (inventory : Inventory) (declaration : Declaration) (span : Span) : Prop where
  known : declaration ∈ inventory.allDeclarations
  divided : ∃ source, span.OfNode source
  members : ∃ file ancestors owner number inner,
    Members inventory.symbols file ancestors owner number span.node.children inner ∧
      inner ⊆ declaration.members

variable {graph : ModuleGraph} {inventory : Inventory} {declaration : Declaration}
  {span child : Span}

theorem within_ofNode {source : Text} (hforest : inventory.Forest graph)
    (hdeclaration : declaration ∈ inventory.allDeclarations)
    (hspan : Span.ofNode source declaration.node = .ok span) :
    Within inventory declaration span := by
  obtain ⟨hdivided, hnode⟩ := Span.ofNode_spec hspan
  obtain ⟨-, file, ancestors, owner, number, hmembers⟩ := hforest.nested hdeclaration
  rw [← hnode] at hmembers
  exact ⟨hdeclaration, ⟨source, hdivided⟩, file, ancestors, owner, number, _, hmembers,
    List.Subset.refl _⟩

theorem Within.through (h : Within inventory declaration span) (hchild : child ∈ span.children)
    (htransparent : child.kind.isDeclaration = false) : Within inventory declaration child := by
  obtain ⟨source, hdivided⟩ := h.divided
  obtain ⟨file, ancestors, owner, number, inner, hmembers, hsubset⟩ := h.members
  obtain ⟨hnodes, hspans⟩ := hdivided.children
  have hnode : child.node ∈ span.node.children := hnodes ▸ List.mem_map_of_mem hchild
  refine ⟨h.known, ⟨source, hspans child hchild⟩, ?_⟩
  rcases hmembers.of_mem hnode with ⟨hdeclares, -⟩ | ⟨-, above, below, hbelow, hinner⟩
  · exact absurd htransparent (by simpa [Span.kind] using hdeclares)
  · exact ⟨file, above, owner, number, below, hbelow, List.Subset.trans hinner hsubset⟩

theorem Within.member (hforest : inventory.Forest graph) (h : Within inventory declaration span)
    (hchild : child ∈ span.children) (hdeclares : child.kind.isDeclaration = true) :
    ∃ member, Surface.member declaration child.node = .ok member ∧
      Within inventory member child := by
  obtain ⟨source, hdivided⟩ := h.divided
  obtain ⟨file, ancestors, owner, number, inner, hmembers, hsubset⟩ := h.members
  obtain ⟨hnodes, hspans⟩ := hdivided.children
  have hnode : child.node ∈ span.node.children := hnodes ▸ List.mem_map_of_mem hchild
  rcases hmembers.of_mem hnode with ⟨-, member, hmember, hsame⟩ | ⟨htransparent, -⟩
  · have hmember := hsubset hmember
    have hknown := Declaration.mem_walkAll_member h.known hmember
    have hfound := hforest.member_found h.known hmember
    obtain ⟨-, file, ancestors, owner, number, hnested⟩ := hforest.nested hknown
    rw [hsame] at hfound hnested
    exact ⟨member, hfound, hknown, ⟨source, hspans child hchild⟩, file, ancestors, owner,
      number, _, hnested, List.Subset.refl _⟩
  · exact absurd hdeclares (by simpa [Span.kind] using htransparent)

/-! ## Parts of declarations -/

/-- Changes are made, and where everything is plain their pieces are texts. -/
abbrev Writes (plain : Prop) (result : Except Fault Changes) : Prop :=
  Settles plain result fun changes => plain → changes.Textual

theorem textual_writeModifiers (modifiers : Text) (trail : Trail) (span : Span) :
    (writeModifiers modifiers trail span).Textual := by
  unfold writeModifiers Changes.Textual
  split
  · split <;> simp [Change.textual_prepend]
  · simp [Change.textual_prepend]

theorem textual_stubChild (modifiers : Text) (path : Path) (afterName : Bool) (child : Span) :
    (stubChild modifiers path afterName child).Textual := by
  unfold stubChild
  refine Changes.Textual.append ?_ ?_
  · split
    · simp [Changes.Textual, Change.textual_skip]
    · split <;> simp [Changes.Textual, Change.textual_prepend]
  · split <;> simp [Changes.Textual, Change.textual_omitSeparator, Change.textual_setTail]

theorem textual_stub (modifiers : Text) (path : Path) (span : Span) :
    (stub modifiers path span).Textual := by
  unfold stub
  generalize 0 = index
  generalize false = afterName
  induction span.children generalizing index afterName with
  | nil => exact Changes.textual_nil
  | cons child rest ih => exact (textual_stubChild _ _ _ _).append (ih _ _)

private theorem textual_replaceWhole (path : Path) (text : Text) :
    (replaceWhole path text).Textual := by
  simp [replaceWhole, Changes.Textual, Change.textual_skip, Change.textual_setLead]

variable {plain : Prop}

theorem variableList_settles (site : Site) :
    Settles plain (variableList site) fun _ => True := by
  unfold variableList
  split
  · exact .defect rfl
  · exact .ok trivial

theorem gather_writes {each : Nat → Option Span → Option Span → Span → Except Fault Changes}
    {spans : List Span}
    (h : ∀ child ∈ spans, ∀ index previous next, Writes plain (each index previous next child))
    (start : Nat) (previous : Option Span) : Writes plain (gather each start previous spans) := by
  induction spans generalizing start previous with
  | nil => exact .ok fun _ => Changes.textual_nil
  | cons child rest ih =>
      refine (h child (by simp) ..).bind fun changes hchanges => ?_
      refine (ih (fun other hother => h other (by simp [hother])) ..).bind fun others hothers => ?_
      exact .pure fun hp => (hchanges hp).append (hothers hp)

private theorem argumentBounds_settles (source : Text) (span : Span) :
    Settles plain (argumentBounds source span) fun _ => True := by
  unfold argumentBounds
  dsimp only
  split
  · split
    · split
      · exact .ok trivial
      · exact .defect rfl
    · exact .defect rfl
  · exact .ok trivial

end Emit

/-! A fault in putting pieces together speaks of their shapes. -/

theorem Given.joinFault?_isLookup {given : Given} {fault : Fault}
    (h : given.joinFault? = some fault) : fault.isLookup = false := by
  unfold joinFault? at h
  split at h
  · cases h
    rfl
  · split at h
    · cases h
      rfl
    · cases h

private theorem Span.joinFaultAmong?_isLookup {spans : List Span} {fault : Fault}
    (h : ∀ span ∈ spans, ∀ edits, span.joinFault? edits = some fault → fault.isLookup = false)
    (edits : Edits) (index : Nat) (hfault : joinFaultAmong? edits index spans = some fault) :
    fault.isLookup = false := by
  induction spans generalizing index with
  | nil => cases hfault
  | cons span rest ih =>
      rw [joinFaultAmong?] at hfault
      rcases Option.or_eq_some_iff.mp hfault with hfirst | ⟨-, hrest⟩
      · exact h span (by simp) _ hfirst
      · exact ih (fun other hother => h other (by simp [hother])) _ hrest

theorem Span.joinFault?_isLookup {span : Span} {fault : Fault} (edits : Edits)
    (h : span.joinFault? edits = some fault) : fault.isLookup = false := by
  induction span using Span.inductionOnChildren generalizing edits with
  | step span ih =>
      obtain ⟨node, lead, tail, separator, children⟩ := span
      rw [joinFault?] at h
      rcases Option.or_eq_some_iff.mp h with hgiven | ⟨-, hbelow⟩
      · exact Given.joinFault?_isLookup hgiven
      · split at hbelow
        · cases hbelow
        · exact joinFaultAmong?_isLookup ih edits 0 hbelow

namespace Emit

variable {plain : Prop}

theorem checkPieces_settles (span : Span) (changes : Changes) :
    Settles False (checkPieces span changes) fun _ => True := by
  unfold checkPieces
  split
  · exact .error (Span.joinFault?_isLookup _ ‹_›) False.elim
  · exact .ok trivial

section Arguments

variable {edits : Edits} (h : plain → ∀ path, (edits path).Joinable)
include h

theorem trimmedTexts_settles (path : Path) (index : Nat) (spans : List Span) :
    Settles plain (trimmedTexts edits path index spans) fun _ => True := by
  induction spans generalizing index with
  | nil => exact .ok trivial
  | cons span rest ih =>
      have htext : Settles plain (trimmedText (edits.within (path ++ [index])) span)
          fun _ => True := by
        unfold trimmedText
        split
        · rename_i fault hfault
          refine .error (Span.joinFault?_isLookup _ hfault) fun hp => ?_
          cases (Span.joinFault?_eq_none (fun inner => h hp _) span).symm.trans hfault
        · exact .ok trivial
      unfold trimmedTexts
      split
      · exact (ih (index + 1)).bind fun _ _ => .pure trivial
      · exact htext.bind fun _ _ => (ih (index + 1)).bind fun _ _ => .pure trivial

private theorem argumentTexts_settles (path : Path) (bounds : Nat × Nat) (index : Nat)
    (spans : List Span) :
    Settles plain (argumentTexts edits path bounds index spans) fun _ => True := by
  induction spans generalizing index with
  | nil => exact .ok trivial
  | cons span rest ih =>
      have hrest := ih (index + 1)
      unfold argumentTexts
      split
      · split
        · exact (trimmedTexts_settles h ..).bind fun _ _ => hrest.bind fun _ _ => .pure trivial
        · exact (trimmedTexts_settles h ..).bind fun _ _ => hrest.bind fun _ _ => .pure trivial
      · exact hrest.bind fun _ _ => .pure trivial

end Arguments

theorem argumentsText_settles {changes : Changes} (h : plain → changes.Textual) (path : Path)
    (span : Span) (bounds : Option (Nat × Nat)) :
    Settles plain (argumentsText changes path span bounds) fun _ => True := by
  cases bounds with
  | none => exact .ok trivial
  | some bounds =>
      exact (argumentTexts_settles (fun hp => (h hp).joinable) ..).bind fun _ _ => .pure trivial

theorem importStatement_settles {source : Import} (name : Datum)
    (h : plain → ∃ text, source.localName = .ok text) :
    Settles plain (importStatement source name) fun _ => True := by
  have hclause : Settles plain (importClause source name) fun _ => True := by
    unfold importClause
    dsimp only
    split
    · exact .ok trivial
    · exact .ok trivial
    · exact .ok trivial
    · exact .ok trivial
    · rename_i hkind
      split
      · exact .ok trivial
      · rename_i hpresent
        refine (source.topName_settles.of_plain fun hp => ?_).bind fun _ _ => .pure trivial
        obtain ⟨text, htext⟩ := h hp
        rw [Import.localName, hkind] at htext
        dsimp only at htext
        rw [if_pos (by simpa using hpresent)] at htext
        cases hname : source.topName with
        | ok top => exact ⟨top, rfl⟩
        | error fault =>
            rw [hname] at htext
            cases htext
  exact hclause.bind fun _ _ => .pure trivial

variable {surface : Surface} (hplain : plain → surface.Plain)
include hplain

theorem renameIdentifier_writes (path : Path) (node : Node) :
    Writes plain (renameIdentifier surface path node) := by
  unfold renameIdentifier
  refine (Surface.entityForNode_settles hplain node).bind fun found hfound => ?_
  split
  · exact .pure fun _ => Changes.textual_nil
  · refine (Surface.writtenName_settles hplain (hfound _ rfl)).bind fun name hname =>
      .pure fun hp => ?_
    obtain ⟨text, rfl⟩ := hname hp
    simp [Changes.Textual, Change.giveLead, Change.textual_setLead]

theorem importType_writes (source : Text) (path : Path) (span : Span)
    {revised : Option (Nat × Nat) → Except Fault Changes}
    (hrevised : ∀ bounds, Writes plain (revised bounds)) :
    Writes plain (do
      match ← surface.entityForNode span.node with
      | none => pure []
      | some imported =>
          let name ← Surface.writtenName imported
          let bounds ← argumentBounds source span
          let changes ← revised bounds
          let arguments ← argumentsText changes path span bounds
          pure (changes ++ replaceWhole path
            (importTypeText source imported name span.node arguments))) := by
  refine (Surface.entityForNode_settles hplain span.node).bind fun found hfound => ?_
  split
  · exact .pure fun _ => Changes.textual_nil
  · refine (Surface.writtenName_settles hplain (hfound _ rfl)).bind fun name _ => ?_
    refine (argumentBounds_settles source span).bind fun bounds _ => ?_
    refine (hrevised bounds).bind fun changes hchanges => ?_
    refine (argumentsText_settles hchanges path span bounds).bind fun arguments _ => ?_
    exact .pure fun hp => (hchanges hp).append (textual_replaceWhole path _)

end Emit

/-! ## Placement -/

variable {plain : Prop}

mutual

theorem Node.checkPlacement_settles :
    (node : Node) → Settles plain node.checkPlacement fun _ => True
  | .mk kind start stop _ _ children => checkChildren_settles kind start stop none children

theorem Node.checkChildren_settles (kind : NodeKind) (start stop : Int)
    (previous : Option Node) : (children : List Node) →
    Settles plain (checkChildren kind start stop previous children) fun _ => True
  | [] => .ok trivial
  | child :: rest => by
      have hrest := checkChildren_settles kind start stop (some child) rest
      unfold checkChildren
      refine (checkPlacement_settles child).bind fun _ _ => ?_
      dsimp only
      split
      · exact .defect rfl
      · split
        · split
          · exact .defect rfl
          · exact hrest
        · exact hrest

end

theorem Span.ofNode_settles (source : Text) (node : Node) :
    Settles plain (ofNode source node) fun span => ofNode source node = .ok span := by
  have hplaced : Settles plain node.checkPlacement fun _ => True :=
    node.checkPlacement_settles
  unfold ofNode
  cases hchecked : node.checkPlacement with
  | ok placed => exact .pure rfl
  | error fault => exact ⟨hplaced.isLookup hchecked, fun hp => hplaced.cause hp hchecked⟩

end ApiSurface
