import ApiSurface.Proofs.Rollup.Identifiers
import ApiSurface.Proofs.Surface.Reachable

/-!
# Names that a rollup declares

A declaration that is written with its body is given the name of its entity, which is
also the name in the export statements of the entity and in every reference to it.  A
declaration without a body keeps the name that it has in its source.
-/

namespace ApiSurface

theorem Datum.text_equals {datum : Datum} {text : String} :
    (Datum.text text).equals datum = true ↔ datum = .text text := by
  cases datum with
  | text other => simpa [equals] using eq_comm
  | _ => simp [equals, amount?]

/-! ## Pieces that can be joined -/

namespace Span

variable {edits : Edits} {span child : Span} {index start : Nat}

theorem joinFault?_eq (edits : Edits) (span : Span) :
    span.joinFault? edits = (edits []).given.joinFault?.or
      (if (edits []).omitChildren then none else joinFaultAmong? edits 0 span.children) := by
  cases span
  rfl

theorem joinFault?_of_among {spans : List Span}
    (h : joinFaultAmong? edits start spans = none) (hchild : spans[index]? = some child) :
    child.joinFault? (edits.below (start + index)) = none := by
  induction spans generalizing start index with
  | nil => simp at hchild
  | cons first rest ih =>
      rw [joinFaultAmong?, Option.or_eq_none_iff] at h
      cases index with
      | zero =>
          obtain rfl : first = child := by simpa using hchild
          exact h.1
      | succ index =>
          have hrest := ih h.2 (by simpa using hchild)
          rwa [Nat.add_right_comm] at hrest

private theorem joinFault?_given_child (h : span.joinFault? edits = none)
    (hshown : (edits []).omitChildren = false) (hchild : span.children[index]? = some child) :
    (edits [index]).given.joinFault? = none := by
  rw [joinFault?_eq, hshown, Option.or_eq_none_iff, if_neg Bool.false_ne_true] at h
  have hinner := joinFault?_of_among h.2 hchild
  rw [joinFault?_eq, Option.or_eq_none_iff, Nat.zero_add] at hinner
  exact hinner.1

end Span

private theorem Change.text_of_giveLead {value : Datum} (hvalue : value.present = true)
    (hjoined : (giveLead value {}).given.joinFault? = none) :
    ∃ text, value = .text text := by
  cases value with
  | text text => exact ⟨text, rfl⟩
  | null => cases hvalue
  | _ => simp [giveLead, Given.joinFault?, Datum.isNull] at hjoined

namespace Emit

variable {modifiers : Text} {path : Path} {spans : List Span} {index start : Nat}

/-! ## Stubs -/

theorem address_stubChild {afterName : Bool} {span : Span} {change : Path × Change}
    (h : change ∈ stubChild modifiers path afterName span) : change.1 = path := by
  unfold stubChild at h
  rcases List.mem_append.mp h with h | h
  all_goals
    split_ifs at h <;> simp only [List.mem_cons, List.not_mem_nil, or_false] at h
  · rw [h]
  · rw [h]
  · rcases h with h | h <;> rw [h]

theorem edits_stubChildren (h : (spans.map Span.kind).idxOf? .identifier = some index) :
    Changes.edits (stubChildren modifiers path start false spans) (path ++ [start + index]) =
      { tail := some stubBody, omitSeparator := true } := by
  induction spans generalizing start index with
  | nil => simp at h
  | cons first rest ih =>
      rw [List.map_cons, List.idxOf?_cons] at h
      by_cases hkind : first.kind = .identifier
      · obtain rfl : 0 = index := by simpa [hkind] using h
        have hlater : ∀ change ∈ stubChildren modifiers path (start + 1)
            (false || first.kind = .identifier) rest, change.1 ≠ path ++ [start] := by
          intro change hchange haddress
          obtain ⟨_, position, hposition, hother⟩ := Rollup.mem_stubChildren hchange
          obtain rfl : position = start := by simpa [hother] using haddress
          omega
        have hhere : stubChild modifiers (path ++ [start]) false first =
            [(path ++ [start], Change.omitSeparator),
              (path ++ [start], Change.setTail stubBody)] := by
          simp [stubChild, hkind, NodeKind.isDeclarationKeyword]
        rw [Nat.add_zero, stubChildren, hhere, ← List.nil_append [_, _],
          Changes.edits_of_apart (fun _ hnone => by cases hnone) hlater]
        simp [Changes.edits, Edits.apply, Edits.none, Change.omitSeparator, Change.setTail]
      · obtain ⟨next, hnext, rfl⟩ : ∃ next,
            (rest.map Span.kind).idxOf? .identifier = some next ∧ next + 1 = index := by
          simpa [hkind] using h
        have hapart : ∀ change ∈ stubChild modifiers (path ++ [start]) false first,
            change.1 ≠ path ++ [start + (next + 1)] := by
          intro change hchange haddress
          rw [address_stubChild hchange] at haddress
          simp at haddress
        have hrest := @ih next (start + 1) hnext
        rw [stubChildren, ← List.append_nil (stubChildren _ _ _ _ _), ← List.append_assoc,
          Changes.edits_of_apart hapart (fun _ hnone => by cases hnone)]
        simpa [hkind, Nat.add_assoc, Nat.add_comm 1] using hrest

end Emit

namespace Rollup

open Emit

variable {context : Context} {entity : Entity} {outer : Declaration} {root name : Span}
  {index : Nat} {changes : Changes} {source : Text}

/-! ## Names of entities -/

def NameAt (root : Span) (index : Nat) (name : Span) : Prop :=
  (root.children.map Span.kind).idxOf? .identifier = some index ∧
    root.children[index]? = some name

theorem NameAt.kind (h : NameAt root index name) : name.kind = .identifier := by
  obtain ⟨hfirst, hname⟩ := h
  obtain ⟨hlength, hkind, _⟩ := List.idxOf?_eq_some_iff.mp hfirst
  rw [List.getElem_map] at hkind
  rwa [(List.getElem?_eq_some_iff.mp hname).2] at hkind

def BoundTo (surface : Surface) (node : Node) (entity : Entity) : Prop :=
  ∃ key subject, surface.graph.resolve? node = some key ∧
    surface.inventory.lookup key = .ok subject ∧ subject.id = entity.subject.id

theorem BoundTo.entityForNode {graph : ModuleGraph} {router : Router} {surface : Surface}
    {node : Node} (hanalyze : Surface.analyze graph router = .ok surface)
    (hentity : entity ∈ surface.entities) (h : BoundTo surface node entity) :
    surface.entityForNode node = .ok (some entity) := by
  obtain ⟨key, subject, hresolve, hlookup, hid⟩ := h
  have hfound : surface.entity? subject.id = some entity := by
    rw [hid]
    exact find?_key (Surface.entities_nodup hanalyze) hentity
  simp [Surface.entityForNode, hresolve, hlookup, hfound, bind, Except.bind, pure, Except.pure]

/-! ## Export statements -/

inductive ExportLine (name : String) (exportName : Datum) : Text → Prop
  | default (isDefault : exportName = .text "default") :
      ExportLine name exportName (Text.line ("export default ".toList ++ name.toList ++ [';']))
  | same (isName : exportName = .text name) :
      ExportLine name exportName
        (Text.line ("export \x7b ".toList ++ name.toList ++ " \x7d".toList))
  | renamed (isOther : exportName ≠ .text name) :
      ExportLine name exportName
        (Text.line ("export \x7b ".toList ++ name.toList ++ " as ".toList ++
          exportName.characters ++ " \x7d".toList))

private theorem exportStatement_line {name : String} (hname : entity.name = .text name)
    (exportName : Datum) : ExportLine name exportName (exportStatement entity exportName) := by
  unfold exportStatement
  split_ifs with hdefault hsame
  · have hline := @ExportLine.default name exportName (Datum.equals_text.mp hdefault)
    simpa [Entity.nameText, hname, Datum.plain, toString] using hline
  · obtain rfl : exportName = .text name := Datum.text_equals.mp (hname ▸ hsame)
    simpa [braced, Datum.plain] using @ExportLine.same name _ rfl
  · have hother : exportName ≠ .text name := fun hequal =>
      hsame (hname ▸ Datum.text_equals.mpr hequal)
    simpa [Entity.nameText, hname, braced, Datum.plain, Datum.characters, toString] using
      ExportLine.renamed hother

/-- Everything that exports an entity uses its name: the declaration itself, or one
statement for each of its export names. -/
structure ExportsName (entity : Entity) (name : String) : Prop where
  inline : entity.exportsInline = true →
    exportStatements entity = [] ∧ entity.exportNames.map Label.datum = [.text name]
  stated : entity.exportsInline = false → ∃ lines, exportStatements entity = lines.flatten ∧
    List.Forall₂ (fun label line => ExportLine name label.datum line) entity.exportNames lines

private theorem exportsName {name : String} (hname : entity.name = .text name) :
    ExportsName entity name := by
  constructor
  · intro hinline
    refine ⟨by simp [exportStatements, hinline], ?_⟩
    have hsingle : entity.singleExportName = .text name := by
      apply Datum.text_equals.mp
      simp only [Entity.exportsInline, hname, Bool.and_eq_true] at hinline
      simpa [Datum.isNull] using hinline.2
    unfold Entity.singleExportName at hsingle
    split at hsingle
    · rename_i label hlabel
      rw [hlabel, List.map_singleton, hsingle]
    · cases hsingle
  · intro hstated
    refine ⟨entity.exportNames.map fun label => exportStatement entity label.datum, ?_, ?_⟩
    · simp [exportStatements, hstated, List.flatMap]
    · rw [List.forall₂_map_right_iff, List.forall₂_same]
      exact fun label _ => exportStatement_line hname label.datum

/-! ## Declared names -/

theorem opened_of_declares (h : root.kind.isDeclaration = true) :
    Opened root ∧ isDropped root.kind = false ∧ root.kind ≠ .variableStatement ∧
      root.kind ≠ .commaToken := by
  have hall : ∀ kind ∈ NodeKind.declarationKinds, (kind ≠ .docComment ∧ kind ≠ .importType) ∧
      isDropped kind = false ∧ kind ≠ .variableStatement ∧ kind ≠ .commaToken := by
    decide
  exact hall root.kind (by simpa [NodeKind.isDeclaration] using h)

theorem NameAt.stays (h : NameAt root index name) (hdeclares : root.kind.isDeclaration = true)
    {address : Path} (haddress : address <+: [index]) :
    ¬ GoesWithMember context outer root address := by
  obtain ⟨_, _, hstatement, hcomma⟩ := opened_of_declares hdeclares
  intro hgoes
  obtain ⟨span, hspan, hkind⟩ := hgoes.kind
  simp only [List.prefix_cons_iff, List.prefix_nil] at haddress
  rcases haddress with rfl | ⟨_, rfl, rfl⟩
  · obtain rfl : root = span := by simpa [Span.descendant?] using hspan
    exact hkind.elim hstatement hcomma
  · obtain rfl : name = span := by simpa [Span.descendant?, h.2] using hspan
    simp [h.kind] at hkind

theorem NameAt.visits (h : NameAt root index name) (hdeclares : root.kind.isDeclaration = true) :
    Visits context outer root [index] outer name := by
  obtain ⟨hopened, _, _, _⟩ := opened_of_declares hdeclares
  exact .step (.through hopened h.2 (by rw [h.kind]; rfl)) .here

theorem NameAt.prints (h : NameAt root index name) (hdeclares : root.kind.isDeclaration = true)
    (hrevise : revise context entity outer {} root = .ok changes)
    (hsource : name.OfNode source) (hleaf : name.node.children = []) {bound : Entity}
    (hbound : context.surface.entityForNode name.node = .ok (some bound)) :
    Prints changes.edits root [index] name bound.name.characters name.separator := by
  obtain ⟨hopened, hwritten, _, _⟩ := opened_of_declares hdeclares
  have hroute : Route context.surface root [index] true false :=
    .opened hopened hwritten h.2 .here
  have hway : Way outer root [index] [] name := .through h.2 (by rw [h.kind]; rfl) .here
  have hprinted := hroute.prints hrevise .here hway (by simp)
    (fun address haddress => h.stays hdeclares haddress) h.kind hsource hleaf (by simp)
  have htext : identifierText context.surface source true name.node =
      bound.name.characters := by
    simp [identifierText, hbound]
  rw [htext] at hprinted
  exact hprinted

private theorem NameAt.exists_text (h : NameAt root index name)
    (hdeclares : root.kind.isDeclaration = true)
    (hrevise : revise context entity outer {} root = .ok changes)
    (hsource : name.OfNode source) (hleaf : name.node.children = []) {bound : Entity}
    (hbound : context.surface.entityForNode name.node = .ok (some bound))
    (hchecked : bound.hasTextName = true ∨ root.joinFault? changes.edits = none) :
    ∃ text, bound.name = .text text := by
  have hedits := edits_identifier hrevise (h.visits hdeclares) h.kind (hsource.leaf hleaf).1
  rw [hbound] at hedits
  obtain ⟨hpresent, hedit⟩ : bound.name.present = true ∧
      changes.edits [index] = Change.giveLead bound.name {} := by
    simpa using hedits
  rcases hchecked with htext | hjoined
  · unfold Entity.hasTextName at htext
    split at htext
    · exact ⟨_, ‹_›⟩
    · simp [hpresent] at htext
  · obtain ⟨hopened, hwritten, _, _⟩ := opened_of_declares hdeclares
    have hshown := shown_of_opened hrevise .here hopened hwritten
      (h.stays hdeclares List.nil_prefix)
    have hgiven := Span.joinFault?_given_child hjoined hshown h.2
    rw [hedit] at hgiven
    exact Change.text_of_giveLead hpresent hgiven

private theorem NameAt.prints_stub (h : NameAt root index name) (modifiers : Text)
    (hsource : name.OfNode source) (hleaf : name.node.children = []) :
    Prints (Changes.edits (stub modifiers [] root)) root [index] name
      (name.node.text source) stubBody := by
  obtain ⟨hchildren, hlead, htail⟩ := hsource.leaf hleaf
  have hroot : Changes.edits (stub modifiers [] root) [] = {} := by
    apply Changes.edits_of_keeps (fun edit => edit = {}) rfl
    intro change hchange haddress
    obtain ⟨_, position, _, hbelow⟩ := mem_stubChildren hchange
    simp [hbelow] at haddress
  have hname : Changes.edits (stub modifiers [] root) [index] =
      { tail := some stubBody, omitSeparator := true } := by
    have hhere := @edits_stubChildren modifiers [] root.children index 0 h.1
    rwa [Nat.zero_add] at hhere
  have hdrawn : name.render ((Changes.edits (stub modifiers [] root)).below index) =
      name.node.text source ++ stubBody := by
    rw [Span.render_leaf hchildren, Span.ending, Edits.below, hname, hlead]
    simp
  have hinside : Prints ((Changes.edits (stub modifiers [] root)).below index) name [] name
      (name.node.text source) stubBody := ⟨hdrawn, [], _, .starts hdrawn⟩
  exact hinside.child (by rw [hroot]) (by rw [hroot]) h.2

/-! ## The whole rollup -/

theorem text_checked {raw : Text} (h : text context = .ok raw) :
    checkNames context = .ok () := by
  simp only [text, bind_eq_ok] at h
  obtain ⟨_, _, _, _, _, _, ⟨⟩, hchecked, _⟩ := h
  exact hchecked

/-- The pieces of a kept declaration can be joined, unless all names are texts. -/
theorem joined_of_checkNames (h : checkNames context = .ok ())
    (hentity : entity ∈ context.surface.entities)
    (houter : outer ∈ context.surface.declarationsOfEntity entity)
    (hkept : context.plan.isKept outer.id = true)
    (hchanges : declarationChanges context entity outer = .ok (root, changes)) :
    entity.hasTextName = true ∨ root.joinFault? changes.edits = none := by
  unfold checkNames at h
  split at h
  · rename_i htexts
    exact .inl (List.all_eq_true.mp htexts entity hentity)
  · have hpieces := forM_eq_ok (forM_eq_ok h hentity)
      (List.mem_filter.mpr ⟨houter, hkept⟩)
    rw [hchanges] at hpieces
    change checkPieces root changes = .ok () at hpieces
    unfold checkPieces at hpieces
    split at hpieces
    · cases hpieces
    · exact .inr ‹_›

/-- The exports of an entity and the references to it are written with a name. -/
structure WrittenAs (surface : Surface) (entity : Entity) (name : String) : Prop where
  isName : entity.name = .text name
  exported : ExportsName entity name
  referred : ∀ source node, BoundTo surface node entity →
    identifierText surface source true node = name.toList

theorem writtenAs {graph : ModuleGraph} {router : Router} {surface : Surface}
    (hanalyze : Surface.analyze graph router = .ok surface) {entity : Entity}
    (hentity : entity ∈ surface.entities) {name : String} (hname : entity.name = .text name) :
    WrittenAs surface entity name := by
  refine ⟨hname, exportsName hname, fun source node hbound => ?_⟩
  simp [identifierText, hbound.entityForNode hanalyze hentity, hname, Datum.characters,
    Datum.plain]

end Rollup

open Emit Rollup

/-- A kept declaration that has a body is written with the name of its entity, if its own
name is bound to the entity; the same name stands in the export statements and in the
references.  A declaration without a body keeps the name that it has in its source. -/
theorem rollup_declares_names {graph : ModuleGraph} {router : Router} {surface : Surface}
    {plan : TrimPlan} {omitComments : Bool} {newline : Newline} {document : Text}
    (hanalyze : Surface.analyze graph router = .ok surface)
    (hrollup : surface.rollup plan omitComments newline = .ok document) :
    ∃ raw kind, newline.ending? = some kind ∧
      document = Text.convertNewlines kind raw ∧
      Composed ⟨surface, plan, omitComments⟩ raw ∧
      ∀ entity ∈ surface.entities, ∀ outer ∈ surface.declarationsOfEntity entity,
        plan.isKept outer.id = true →
          ∃ root changes,
            declarationChanges ⟨surface, plan, omitComments⟩ entity outer =
              .ok (root, changes) ∧
            Text.line (root.render changes.edits) <:+: raw ∧
            root.node = outer.node ∧
            ∀ index name, NameAt root index name → name.node.children = [] →
              BoundTo surface name.node entity →
              (surface.isStub outer = false → ∃ text, WrittenAs surface entity text ∧
                Prints changes.edits root [index] name text.toList name.separator) ∧
              (surface.isStub outer = true →
                (∀ text, entity.name = .text text → WrittenAs surface entity text) ∧
                Prints changes.edits root [index] name
                  (name.node.text outer.site.file.text) stubBody) := by
  obtain ⟨raw, kind, hkind, rfl, hraw, hcomposed⟩ := rollup_composed hanalyze hrollup
  refine ⟨raw, kind, hkind, rfl, hcomposed, ?_⟩
  intro entity hentity outer houter hkept
  obtain ⟨root, changes, hchanges, hinside⟩ := hcomposed.written hentity houter hkept
  obtain ⟨hroot, hstub, hrevise⟩ := declarationChanges_eq_ok hchanges
  obtain ⟨hspan, hnode⟩ := Span.ofNode_spec hroot
  refine ⟨root, changes, hchanges, hinside, hnode, ?_⟩
  intro index name hname hleaf hbound
  have hsource := hspan.children.2 name (List.mem_of_getElem? hname.2)
  constructor
  · intro hwhole
    obtain ⟨_, _, _, hsteps⟩ := Surface.analyze_steps hanalyze
    have hdeclares : root.kind.isDeclaration = true := by
      rw [Span.kind, hnode]
      exact ((Inventory.ofGraph_forest hsteps.declared).nested
        (Surface.mem_allDeclarations_of_entity houter)).1
    have hfound := hbound.entityForNode hanalyze hentity
    have hchecked := joined_of_checkNames (text_checked hraw) hentity houter hkept hchanges
    obtain ⟨text, htext⟩ :=
      hname.exists_text hdeclares (hrevise hwhole) hsource hleaf hfound hchecked
    refine ⟨text, writtenAs hanalyze hentity htext, ?_⟩
    have hprinted := hname.prints hdeclares (hrevise hwhole) hsource hleaf hfound
    rwa [htext] at hprinted
  · intro hbodiless
    rw [hstub hbodiless]
    exact ⟨fun _ => writtenAs hanalyze hentity, hname.prints_stub _ hsource hleaf⟩

def approvedFile : SourceFile where
  path := .text "index.d.ts"
  text := "interface X interface Y x:X".toList
  root := .mk .sourceFile 0 27 0 .null
    [.mk .interfaceDeclaration 0 11 1 .null
      [.mk .interfaceKeyword 0 9 2 .null [], .mk .identifier 10 11 3 .null []],
    .mk .interfaceDeclaration 12 27 4 .null
      [.mk .interfaceKeyword 12 21 5 .null [], .mk .identifier 22 23 6 .null [],
      .mk .propertySignature 24 27 7 .null
        [.mk .identifier 24 25 8 .null [],
        .mk .typeReference 26 27 9 .null [.mk .identifier 26 27 10 .null []]]]]

/-- The first interface is exported under another name; it may be written without its
body. -/
def approvedPackage (preapproved : Bool) : ModuleGraph where
  packageName := .text "approved"
  files := [approvedFile]
  symbols := (approvedFile.root.children.zip ["X", "Y"]).map fun entry =>
    { key := .text entry.2
      localName := .text entry.2
      declarations := [⟨approvedFile, [approvedFile.root], entry.1⟩] }
  bindings := [(3, .text "X"), (10, .text "X")]
  exports := [(.text "A", .text "X"), (.text "Y", .text "Y")]
  docFlags := [(1, { releaseTag := .internal, isPreapproved := .bool preapproved }),
    (4, { releaseTag := .internal })]

/-- The declaration, the export and the reference are all written with the new name. -/
theorem rollup_declares_names_exported :
    ∃ surface plan document entity outer root changes name,
    Surface.analyze (approvedPackage false) {} = .ok surface ∧
    TrimPlan.make surface .internal = .ok plan ∧
    surface.rollup plan true ⟨.text "lf", .lf⟩ = .ok document ∧
    document = ("\nexport declare interface A\n\nexport declare interface Y x:A\n\n" ++
      "export \x7b \x7d\n").toList ∧
    entity ∈ surface.entities ∧ outer ∈ surface.declarationsOfEntity entity ∧
    declarationChanges ⟨surface, plan, true⟩ entity outer = .ok (root, changes) ∧
    name.node.text approvedFile.text = ['X'] ∧ WrittenAs surface entity "A" ∧
    Prints changes.edits root [1] name ['A'] name.separator := by
  have hrun : (do
      let surface ← Surface.analyze (approvedPackage false) {}
      let plan ← TrimPlan.make surface .internal
      let document ← surface.rollup plan true ⟨.text "lf", .lf⟩
      let entity ← pick surface.entities 0
      let outer ← pick (surface.declarationsOfEntity entity) 0
      let made ← declarationChanges ⟨surface, plan, true⟩ entity outer
      let name ← pick made.1.children 1
      let key ← pick (surface.graph.resolve? name.node).toList 0
      let subject ← surface.inventory.lookup key
      pure (document, plan.isKept outer.id, surface.isStub outer, entity.name,
        made.1.children.map Span.kind, name.node.children.length,
        name.node.text approvedFile.text, decide (subject.id = entity.subject.id))) =
        .ok (("\nexport declare interface A\n\nexport declare interface Y x:A\n\n" ++
            "export \x7b \x7d\n").toList, true, false, .text "A",
          [.interfaceKeyword, .identifier], 0, ['X'], true) := by
    cbv
  simp only [bind_eq_ok, pure_eq_ok, pick_eq_ok, Prod.mk.injEq, decide_eq_true_eq] at hrun
  obtain ⟨surface, hanalyze, plan, hplan, document, hrollup, entity, hentity, outer, houter,
    ⟨root, changes⟩, hchanges, name, hname, key, hkey, subject, hsubject, hdocument, hkept,
    hwhole, hcalled, hkinds, hleaf, hown, hsame⟩ := hrun
  have hentity := List.mem_of_getElem? hentity
  have houter := List.mem_of_getElem? houter
  have hkey : surface.graph.resolve? name.node = some key := by
    simpa using List.mem_of_getElem? hkey
  obtain ⟨raw, kind, _, _, _, hdeclared⟩ := rollup_declares_names hanalyze hrollup
  obtain ⟨_, _, hchanges', _, _, hdeclared⟩ := hdeclared entity hentity outer houter hkept
  obtain ⟨rfl, rfl⟩ := Prod.mk.inj (Except.ok.inj (hchanges.symm.trans hchanges'))
  have hat : NameAt root 1 name := ⟨by rw [hkinds]; rfl, hname⟩
  have hdeclared := hdeclared 1 name hat (List.length_eq_zero_iff.mp hleaf)
    ⟨key, subject, hkey, hsubject, hsame⟩
  obtain ⟨text, hwritten, hprinted⟩ := hdeclared.1 hwhole
  obtain rfl : text = "A" := by simpa [hcalled] using hwritten.isName.symm
  exact ⟨surface, plan, document, entity, outer, root, changes, name, hanalyze, hplan, hrollup,
    hdocument, hentity, houter, hchanges, hown, hwritten, hprinted⟩

/-- Without its body, the interface is declared under the name of its source, although it
is exported and referred to under another one. -/
theorem rollup_declares_source_name :
    ∃ surface plan document entity outer root changes name,
    Surface.analyze (approvedPackage true) {} = .ok surface ∧
    TrimPlan.make surface .internal = .ok plan ∧
    surface.rollup plan true ⟨.text "lf", .lf⟩ = .ok document ∧
    document = ("\nexport declare interface X \x7b /* (preapproved) */ \x7d\n\n" ++
      "export declare interface Y x:A\n\nexport \x7b \x7d\n").toList ∧
    entity ∈ surface.entities ∧ outer ∈ surface.declarationsOfEntity entity ∧
    plan.isKept outer.id = true ∧ surface.isStub outer = true ∧
    declarationChanges ⟨surface, plan, true⟩ entity outer = .ok (root, changes) ∧
    NameAt root 1 name ∧ BoundTo surface name.node entity ∧ entity.name = .text "A" ∧
    name.render (changes.edits.within [1]) = "X \x7b /* (preapproved) */ \x7d".toList := by
  have hrun : (do
      let surface ← Surface.analyze (approvedPackage true) {}
      let plan ← TrimPlan.make surface .internal
      let document ← surface.rollup plan true ⟨.text "lf", .lf⟩
      let entity ← pick surface.entities 0
      let outer ← pick (surface.declarationsOfEntity entity) 0
      let made ← declarationChanges ⟨surface, plan, true⟩ entity outer
      let name ← pick made.1.children 1
      let key ← pick (surface.graph.resolve? name.node).toList 0
      let subject ← surface.inventory.lookup key
      pure (document, plan.isKept outer.id, surface.isStub outer, entity.name,
        made.1.children.map Span.kind, name.render (made.2.edits.within [1]),
        decide (subject.id = entity.subject.id))) =
        .ok (("\nexport declare interface X \x7b /* (preapproved) */ \x7d\n\n" ++
            "export declare interface Y x:A\n\nexport \x7b \x7d\n").toList,
          true, true, .text "A", [.interfaceKeyword, .identifier],
          "X \x7b /* (preapproved) */ \x7d".toList, true) := by
    cbv
  simp only [bind_eq_ok, pure_eq_ok, pick_eq_ok, Prod.mk.injEq, decide_eq_true_eq] at hrun
  obtain ⟨surface, hanalyze, plan, hplan, document, hrollup, entity, hentity, outer, houter,
    ⟨root, changes⟩, hchanges, name, hname, key, hkey, subject, hsubject, hdocument, hkept,
    hbodiless, hcalled, hkinds, hdrawn, hsame⟩ := hrun
  have hkey : surface.graph.resolve? name.node = some key := by
    simpa using List.mem_of_getElem? hkey
  have hat : NameAt root 1 name := ⟨by rw [hkinds]; rfl, hname⟩
  exact ⟨surface, plan, document, entity, outer, root, changes, name, hanalyze, hplan, hrollup,
    hdocument, List.mem_of_getElem? hentity, List.mem_of_getElem? houter, hkept, hbodiless,
    hchanges, hat, ⟨key, subject, hkey, hsubject, hsame⟩, hcalled, hdrawn⟩

end ApiSurface
