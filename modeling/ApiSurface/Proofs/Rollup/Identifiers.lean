import ApiSurface.Proofs.Emit.Nested
import ApiSurface.Proofs.Emit.Printed
import ApiSurface.Proofs.Rollup.Document

/-!
# Identifiers in a rollup

An identifier that is bound to an entity is written with the name of the entity, and
every other identifier with its own text, at any depth and also in the arguments of
bound import types.  The walk does not go into import types that are bound to nothing,
so that the identifiers in them keep their own texts whatever they are bound to.
-/

namespace ApiSurface

namespace Change

variable {value : Datum} {edit : Edit}

private theorem lead_giveLead (hvalue : value.present = true) :
    (giveLead value edit).lead = some value.characters := by
  cases value with
  | null => cases hvalue
  | _ => rfl

private theorem ending_giveLead : (giveLead value edit).tail = edit.tail ∧
    (giveLead value edit).omitSeparator = edit.omitSeparator := by
  cases value <;> exact ⟨rfl, rfl⟩

end Change

namespace Rollup

open Emit

/-! ## What is written for an identifier -/

/-- The text of an identifier: the name of its entity, if it has one and names are
written at all, and otherwise its own text. -/
def identifierText (surface : Surface) (source : Text) (renamed : Bool) (node : Node) : Text :=
  match renamed, surface.entityForNode node with
  | true, .ok (some entity) => entity.name.characters
  | _, _ => node.text source

/-- A way on which identifiers are written.  It leads through spans that are written
with their children, and through the arguments of bound import types, which are written
without the blanks around them.  Names are written unless it leads through an import type
that is bound to nothing. -/
inductive Route (surface : Surface) : Span → Path → (renamed trimmed : Bool) → Prop
  | here {span : Span} : Route surface span [] true false
  | opened {span child : Span} {index : Nat} {rest : Path} {renamed trimmed : Bool}
      (opened : Opened span) (written : isDropped span.kind = false)
      (stands : span.children[index]? = some child)
      (below : Route surface child rest renamed trimmed) :
      Route surface span (index :: rest) renamed trimmed
  | argument {span : Span} {argument : Path × Span} {rest : Path} {renamed trimmed : Bool}
      (kind : span.kind = .importType)
      (bound : ∃ imported, surface.entityForNode span.node = .ok (some imported))
      (listed : argument ∈ argumentsOf span)
      (below : Route surface argument.2 rest renamed trimmed) :
      Route surface span (argument.1 ++ rest) renamed true
  | unbound {span : Span} {index : Nat} {rest : Path} (kind : span.kind = .importType)
      (nothing : surface.entityForNode span.node = .ok none) :
      Route surface span (index :: rest) false false

/-- The span at an address goes with a member that is not kept: it is the variable
statement around it, or the comma after what is taken out. -/
def GoesWithMember (context : Context) (declaration : Declaration) (root : Span)
    (address : Path) : Prop :=
  GoesWithVariable context declaration root address ∨
    ∃ path child comma, Meets context declaration root path child ∧
      (taken (trailTo root path) child).next = some comma ∧ comma.kind = .commaToken ∧
      sibling (taken (trailTo root path) child).path Nat.succ = address

/-- A text with a given rest is all that is drawn at an address, and it has its place in
the text of the root. -/
structure Prints (edits : Edits) (root : Span) (path : Path) (target : Span)
    (text rest : Text) : Prop where
  whole : target.render (edits.within path) = text ++ rest
  placed : ∃ before after, Printed edits root path before text after

theorem Prints.child {edits : Edits} {span child target : Span} {index : Nat} {path : Path}
    {text rest : Text} (h : Prints (edits.below index) child path target text rest)
    (shown : (edits []).omitChildren = false) (inOrder : (edits []).sortChildren = false)
    (stands : span.children[index]? = some child) :
    Prints edits span (index :: path) target text rest := by
  obtain ⟨whole, before, after, inside⟩ := h
  exact ⟨whole, _, _, .child shown inOrder stands inside⟩

theorem Prints.argument {edits : Edits} {span target : Span} {argument : Path × Span}
    {path : Path} {head text rest : Text}
    (h : Prints (edits.within argument.1) argument.2 path target text rest)
    (kind : span.kind = .importType)
    (written : span.render edits = head ++ ['<'] ++ Text.join [',', ' ']
      ((argumentsOf span).map (argumentText edits)) ++ ['>'])
    (listed : argument ∈ argumentsOf span) (tight : Text.Tight text) :
    Prints edits span (argument.1 ++ path) target text rest := by
  obtain ⟨whole, before, after, inside⟩ := h
  obtain ⟨earlier, later, hlisted⟩ := List.append_of_mem listed
  rw [Edits.within_within] at whole
  exact ⟨whole, _, _, .argument kind written hlisted tight inside⟩

variable {context : Context} {entity : Entity} {outer declaration : Declaration}
  {root span target child : Span} {path front rest : Path} {chain : List Declaration}
  {changes : Changes} {source : Text}

theorem GoesWithMember.kind (h : GoesWithMember context outer root path) :
    ∃ span, root.descendant? path = some span ∧
      (span.kind = .variableStatement ∨ span.kind = .commaToken) := by
  rcases h with hgoes | ⟨_, child, comma, hmeets, hcomma, hkind, rfl⟩
  · obtain ⟨span, hspan, hkind⟩ := hgoes.statement
    exact ⟨span, hspan, .inl hkind⟩
  · obtain ⟨parent, position, haddress, hfound, _⟩ := taken_comma hmeets.descendant? hcomma
    exact ⟨comma, haddress ▸ hfound, .inr hkind⟩

/-! ## Visited spans -/

theorem kind_of_omitted (h : revise context entity outer {} root = .ok changes)
    (hvisits : Visits context outer root path declaration span)
    (hstays : ¬ GoesWithMember context outer root path)
    (homitted : (changes.edits path).omitChildren = true) :
    span.kind = .docComment ∨ span.kind = .importType ∨ isDropped span.kind = true := by
  obtain ⟨place, inner, visited, hplace, hleaves⟩ := exists_leavesOut h homitted
  cases hleaves with
  | self kind =>
      obtain ⟨_, rfl⟩ := hvisits.unique hplace
      exact kind
  | @member index _ _ opened stands declares found unkept =>
      have hmeets := Meets.mk hplace opened stands declares found unkept
      rcases hmeets.taken_cases with hself | hgoes
      · rw [hself] at hvisits
        simp [(hvisits.member_kept hplace opened stands declares found).1] at unkept
      · exact absurd (.inl hgoes) hstays
  | comma opened stands declares found unkept follows kind =>
      have hmeets := Meets.mk hplace opened stands declares found unkept
      exact absurd (.inr ⟨_, _, _, hmeets, follows, kind, rfl⟩) hstays
  | inStub opened stands declares found bodiless =>
      simp [(hvisits.member_kept hplace opened stands declares found).2] at bodiless

theorem shown_of_opened (h : revise context entity outer {} root = .ok changes)
    (hvisits : Visits context outer root path declaration span) (opened : Opened span)
    (written : isDropped span.kind = false)
    (hstays : ¬ GoesWithMember context outer root path) :
    (changes.edits path).omitChildren = false := by
  apply Bool.eq_false_iff.mpr
  intro homitted
  rcases kind_of_omitted h hvisits hstays homitted with hcomment | himport | hdropped
  · exact opened.1 hcomment
  · exact opened.2 himport
  · simp [written] at hdropped

theorem edits_identifier (h : revise context entity outer {} root = .ok changes)
    (hvisits : Visits context outer root path declaration target)
    (hkind : target.kind = .identifier) (hchildren : target.children = []) :
    (context.surface.entityForNode target.node = .ok none ∧ changes.edits path = {}) ∨
      ∃ bound, context.surface.entityForNode target.node = .ok (some bound) ∧
        bound.name.present = true ∧ changes.edits path = Change.giveLead bound.name {} := by
  obtain ⟨part, hpart, hedits⟩ := edits_of_secluded h hvisits (by rw [hkind]; rfl)
  have hhere := hedits []
  rw [List.append_nil] at hhere
  rw [hhere]
  cases revise_revised hpart with
  | comment kind => simp [hkind] at kind
  | unbound kind _ => simp [hkind] at kind
  | bound kind => simp [hkind] at kind
  | @opened own inner _ _ atSpan below =>
      rw [hchildren] at below
      cases below
      have hrename : renameIdentifier context.surface (trailTo root path).path target.node =
          .ok own := by
        rwa [hkind] at atSpan
      rw [path_trailTo hvisits.descendant?] at hrename
      rcases renameIdentifier_eq_ok hrename with ⟨hnone, rfl⟩ | ⟨bound, hbound, hpresent, rfl⟩
      · exact .inl ⟨hnone, rfl⟩
      · refine .inr ⟨bound, hbound, hpresent, ?_⟩
        simp [Changes.edits, Edits.apply, Edits.none]

private theorem identifier_drawn (h : revise context entity outer {} root = .ok changes)
    (hvisits : Visits context outer root path declaration target)
    (hkind : target.kind = .identifier) (hsource : target.OfNode source)
    (hleaf : target.node.children = []) :
    target.render (changes.edits.within path) =
      identifierText context.surface source true target.node ++ target.separator := by
  obtain ⟨hchildren, hlead, htail⟩ := hsource.leaf hleaf
  rw [Span.render_leaf hchildren, Span.ending, Edits.within, List.append_nil, hlead, htail]
  rcases edits_identifier h hvisits hkind hchildren with
    ⟨hnone, hedit⟩ | ⟨bound, hbound, hpresent, hedit⟩
  · simp [identifierText, hnone, hedit]
  · obtain ⟨hgiven, hseparator⟩ := @Change.ending_giveLead bound.name {}
    simp [identifierText, hbound, hedit, Change.lead_giveLead hpresent, hgiven, hseparator]

/-! ## Along a route -/

theorem exists_step {index : Nat} (hway : Way declaration span (index :: rest) chain target)
    (hgoes : Opened span ∨ TakesArgument context.surface span index)
    (hwhole : ∀ member ∈ chain,
      context.plan.isKept member.id = true ∧ context.surface.isStub member = false) :
    ∃ child next later, Step context declaration span index child next ∧
      Way next child rest later target ∧ ∀ member ∈ later,
        context.plan.isKept member.id = true ∧ context.surface.isStub member = false := by
  cases hway with
  | through stands transparent below =>
      refine ⟨_, declaration, chain, ?_, below, hwhole⟩
      rcases hgoes with opened | takes
      · exact .through opened stands transparent
      · exact .argument takes stands transparent
  | @member _ member _ _ _ _ _ later stands declares found below =>
      obtain ⟨⟨hkept, hbody⟩, hlater⟩ := List.forall_mem_cons.mp hwhole
      refine ⟨_, member, later, ?_, below, hlater⟩
      rcases hgoes with opened | takes
      · exact .member opened stands declares found hkept hbody
      · exact .declared takes stands declares found

theorem visits_argument {argument : Path × Span}
    (hvisits : Visits context outer root front declaration span)
    (hkind : span.kind = .importType)
    (hbound : ∃ imported, context.surface.entityForNode span.node = .ok (some imported))
    (hlisted : argument ∈ argumentsOf span)
    (hway : Way declaration span (argument.1 ++ rest) chain target)
    (hwhole : ∀ member ∈ chain,
      context.plan.isKept member.id = true ∧ context.surface.isStub member = false) :
    ∃ next later, Visits context outer root (front ++ argument.1) next argument.2 ∧
      Way next argument.2 rest later target ∧ ∀ member ∈ later,
        context.plan.isKept member.id = true ∧ context.surface.isStub member = false := by
  obtain ⟨address, item⟩ := argument
  obtain ⟨index, child, hbetween, stands, hmem⟩ := mem_argumentsOf.mp hlisted
  have htakes : Opened span ∨ TakesArgument context.surface span index :=
    .inr ⟨hkind, hbound, hbetween⟩
  split at hmem
  · rename_i hlist
    -- The argument is an item of a list, below which the walk goes on.
    obtain ⟨position, hitem, _, rfl⟩ := mem_items.mp hmem
    rw [Nat.zero_add] at hway ⊢
    obtain ⟨found, next, later, hstep, hbelow, hlater⟩ := exists_step hway htakes hwhole
    obtain rfl := Option.some.inj (stands.symm.trans hstep.stands)
    have hopened : Opened child := by simp [Opened, hlist]
    obtain ⟨found, last, others, hnext, hrest, hothers⟩ :=
      exists_step hbelow (.inl hopened) hlater
    obtain rfl := Option.some.inj (hitem.symm.trans hnext.stands)
    exact ⟨last, others, hvisits.append (.step hstep (.step hnext .here)), hrest, hothers⟩
  · obtain ⟨position, hitem, _, rfl⟩ := mem_items.mp hmem
    obtain ⟨rfl, rfl⟩ : position = 0 ∧ child = item := by
      cases position with
      | zero => exact ⟨rfl, by simpa using hitem⟩
      | succ position => simp at hitem
    obtain ⟨found, next, later, hstep, hbelow, hlater⟩ := exists_step hway htakes hwhole
    obtain rfl := Option.some.inj (stands.symm.trans hstep.stands)
    exact ⟨next, later, hvisits.concat hstep, hbelow, hlater⟩

theorem edits_of_unbound (h : revise context entity outer {} root = .ok changes)
    (hvisits : Visits context outer root path declaration span)
    (hkind : span.kind = .importType)
    (hnothing : context.surface.entityForNode span.node = .ok none) (rest : Path) :
    changes.edits (path ++ rest) = {} := by
  obtain ⟨part, hpart, hedits⟩ := edits_of_secluded h hvisits (by rw [hkind]; rfl)
  rw [hedits]
  cases revise_revised hpart with
  | comment kind => simp [hkind] at kind
  | unbound => rfl
  | bound _ found => simp [hnothing] at found
  | opened _ noImport => exact absurd hkind noImport

theorem Route.prints {renamed trimmed : Bool}
    (hroute : Route context.surface span path renamed trimmed)
    (h : revise context entity outer {} root = .ok changes)
    (hvisits : Visits context outer root front declaration span)
    (hway : Way declaration span path chain target)
    (hwhole : ∀ member ∈ chain,
      context.plan.isKept member.id = true ∧ context.surface.isStub member = false)
    (hstays : ∀ address, address <+: front ++ path →
      ¬ GoesWithMember context outer root address)
    (hkind : target.kind = .identifier) (hsource : target.OfNode source)
    (hleaf : target.node.children = [])
    (htight : trimmed = true →
      Text.Tight (identifierText context.surface source renamed target.node)) :
    Prints (changes.edits.within front) span path target
      (identifierText context.surface source renamed target.node) target.separator := by
  induction hroute generalizing front declaration chain with
  | here =>
      cases hway
      have hdrawn := identifier_drawn h hvisits hkind hsource hleaf
      exact ⟨hdrawn, [], _, .starts hdrawn⟩
  | @opened span child index rest _ _ opened written stands below ih =>
      obtain ⟨found, next, later, hstep, hbelow, hlater⟩ :=
        exists_step hway (.inl opened) hwhole
      obtain rfl := Option.some.inj (stands.symm.trans hstep.stands)
      have hinside := ih (hvisits.concat hstep) hbelow hlater (by simpa using hstays) htight
      rw [← Edits.below_within] at hinside
      apply hinside.child _ _ stands
      · rw [Edits.within, List.append_nil]
        exact shown_of_opened h hvisits opened written (hstays front (List.prefix_append _ _))
      · rw [Edits.within, List.append_nil]
        exact edits_unsorted h front
  | @argument span argument rest _ _ kind bound listed below ih =>
      obtain ⟨next, later, hnext, hbelow, hlater⟩ :=
        visits_argument hvisits kind bound listed hway hwhole
      have hinside := ih hnext hbelow hlater (by simpa using hstays) fun _ => htight rfl
      rw [← Edits.within_within] at hinside
      obtain ⟨head, hdrawn⟩ := importType_drawn h hvisits kind bound listed
      exact hinside.argument kind hdrawn listed (htight rfl)
  | @unbound _ index rest kind nothing =>
      have hnone : ∀ address, changes.edits.within front address = {} :=
        edits_of_unbound h hvisits kind nothing
      obtain ⟨hchildren, hlead, htail⟩ := hsource.leaf hleaf
      have hdrawn : target.render ((changes.edits.within front).within (index :: rest)) =
          identifierText context.surface source false target.node ++ target.separator := by
        rw [Span.render_leaf hchildren, Span.ending, Edits.within, hnone]
        simp [identifierText, hlead, htail]
      exact ⟨hdrawn, exists_printed_of_untouched hnone hway.descendant? hdrawn⟩

end Rollup

open Emit Rollup

/-- In the text of every kept declaration that has a body, every identifier without
children is printed at its place: with the name of its entity if it is bound to one, and
otherwise with its own text.  The members around it have to be kept with their bodies,
and nothing around it goes with a member that is not kept.  In an import type that is
bound to nothing, identifiers keep their own texts. -/
theorem rollup_prints_identifiers {graph : ModuleGraph} {router : Router} {surface : Surface}
    {plan : TrimPlan} {omitComments : Bool} {newline : Newline} {document : Text}
    (hanalyze : Surface.analyze graph router = .ok surface)
    (hrollup : surface.rollup plan omitComments newline = .ok document) :
    ∃ raw kind, newline.ending? = some kind ∧
      document = Text.convertNewlines kind raw ∧
      ∀ entity ∈ surface.entities, ∀ outer ∈ surface.declarationsOfEntity entity,
        plan.isKept outer.id = true → surface.isStub outer = false →
          ∃ root changes,
            declarationChanges ⟨surface, plan, omitComments⟩ entity outer =
              .ok (root, changes) ∧
            Text.line (root.render changes.edits) <:+: raw ∧
            (∀ node ∈ outer.node.walk, ∃ path target,
              root.descendant? path = some target ∧ target.node = node) ∧
            ∀ path target, root.descendant? path = some target →
              target.kind = .identifier → target.node.children = [] →
              ∃ chain, Way outer root path chain target ∧
                ∀ renamed trimmed, Route surface root path renamed trimmed →
                  (∀ member ∈ chain, plan.isKept member.id = true ∧
                    surface.isStub member = false) →
                  (∀ address, address <+: path →
                    ¬ GoesWithMember ⟨surface, plan, omitComments⟩ outer root address) →
                  (trimmed = true → Text.Tight
                    (identifierText surface outer.site.file.text renamed target.node)) →
                  Prints changes.edits root path target
                    (identifierText surface outer.site.file.text renamed target.node)
                    target.separator := by
  obtain ⟨raw, kind, hkind, rfl, -, hcomposed⟩ := rollup_composed hanalyze hrollup
  refine ⟨raw, kind, hkind, rfl, ?_⟩
  intro entity hentity outer houter hkept hwhole
  obtain ⟨root, changes, hchanges, hinside⟩ := hcomposed.written hentity houter hkept
  obtain ⟨hroot, -, hrevise⟩ := declarationChanges_eq_ok hchanges
  obtain ⟨hspan, hnode⟩ := Span.ofNode_spec hroot
  refine ⟨root, changes, hchanges, hinside, hnode ▸ hspan.exists_address, ?_⟩
  intro path target hpath hidentifier hleaf
  obtain ⟨_, _, _, hsteps⟩ := Surface.analyze_steps hanalyze
  obtain ⟨chain, hway⟩ := exists_way_to (Inventory.ofGraph_forest hsteps.declared)
    (Surface.mem_allDeclarations_of_entity houter) hspan hnode hpath
  refine ⟨chain, hway, fun renamed trimmed hroute hmembers hstays htight => ?_⟩
  exact hroute.prints (hrevise hwhole) .here hway hmembers hstays hidentifier
    (hspan.descendant hpath) hleaf htight

/-- An interface with a property, whose type is an import type with an argument, and
the interface that the argument refers to. -/
def argumentFile : SourceFile where
  path := .text "index.d.ts"
  text := "interface A x:import(m).Q<B> interface B".toList
  root := .mk .sourceFile 0 40 0 .null
    [.mk .interfaceDeclaration 0 28 1 .null
      [.mk .interfaceKeyword 0 9 2 .null [], .mk .identifier 10 11 3 .null [],
      .mk .propertySignature 12 28 4 .null
        [.mk .identifier 12 13 5 .null [],
        .mk .importType 14 28 6 .null
          [.mk .identifier 24 25 7 .null [], .mk .lessThanToken 25 26 8 .null [],
          .mk .syntaxList 26 27 9 .null
            [.mk .typeReference 26 27 10 .null [.mk .identifier 26 27 11 .null []]],
          .mk .greaterThanToken 27 28 12 .null []]]],
    .mk .interfaceDeclaration 29 40 13 .null
      [.mk .interfaceKeyword 29 38 14 .null [], .mk .identifier 39 40 15 .null []]]

/-- The second interface is exported under another name; the import type may be bound. -/
def argumentPackage (bound : Bool) : ModuleGraph where
  packageName := .text "argument"
  files := [argumentFile]
  symbols := (argumentFile.root.children.zip ["A", "B"]).map fun entry =>
    { key := .text entry.2
      localName := .text entry.2
      declarations := [⟨argumentFile, [argumentFile.root], entry.1⟩] }
  imports := [{ key := .text "I", source :=
    { kind := .importType, modulePath := .text "m", exportName := .text "Q" } }]
  bindings := [(11, .text "B"), (15, .text "B")] ++ if bound then [(6, .text "I")] else []
  exports := [(.text "A", .text "A"), (.text "C", .text "B")]
  docFlags := [(1, { releaseTag := .public }), (13, { releaseTag := .public })]

theorem rollup_prints_identifiers_argument :
    ∃ surface plan document entity outer root changes target,
    Surface.analyze (argumentPackage true) {} = .ok surface ∧
    TrimPlan.make surface .public = .ok plan ∧
    surface.rollup plan true ⟨.text "lf", .lf⟩ = .ok document ∧
    document = ("import \x7b Q \x7d from 'm';\n\nexport declare interface A x:Q<C>\n\n" ++
      "export declare interface C\n\nexport \x7b \x7d\n").toList ∧
    entity ∈ surface.entities ∧ outer ∈ surface.declarationsOfEntity entity ∧
    declarationChanges ⟨surface, plan, true⟩ entity outer = .ok (root, changes) ∧
    root.descendant? [2, 1, 2, 0, 0] = some target ∧
    target.node.text argumentFile.text = ['B'] ∧
    Prints changes.edits root [2, 1, 2, 0, 0] target ['C'] target.separator := by
  have hrun : (do
      let surface ← Surface.analyze (argumentPackage true) {}
      let plan ← TrimPlan.make surface .public
      let document ← surface.rollup plan true ⟨.text "lf", .lf⟩
      let entity ← pick surface.entities 0
      let outer ← pick (surface.declarationsOfEntity entity) 0
      let made ← declarationChanges ⟨surface, plan, true⟩ entity outer
      let property ← pick made.1.children 2
      let importType ← pick property.children 1
      let list ← pick importType.children 2
      let item ← pick list.children 0
      let target ← pick item.children 0
      let owner ← Surface.member outer property.node
      let imported ← surface.entityForNode importType.node
      pure (document, [made.1, property, importType, list, item, target].map Span.kind,
        importType.children.map Span.kind,
        [outer, owner].map fun declaration : Declaration =>
          (plan.isKept declaration.id, surface.isStub declaration),
        imported.isSome, target.node.children.length, target.node.text argumentFile.text,
        identifierText surface outer.site.file.text true target.node)) =
        .ok (("import \x7b Q \x7d from 'm';\n\nexport declare interface A x:Q<C>\n\n" ++
            "export declare interface C\n\nexport \x7b \x7d\n").toList,
          [.interfaceDeclaration, .propertySignature, .importType, .syntaxList,
            .typeReference, .identifier],
          [.identifier, .lessThanToken, .syntaxList, .greaterThanToken],
          [(true, false), (true, false)], true, 0, ['B'], ['C']) := by
    cbv
  simp only [bind_eq_ok, pure_eq_ok, pick_eq_ok, Prod.mk.injEq, List.map_cons, List.map_nil,
    List.cons.injEq, and_true] at hrun
  obtain ⟨surface, hanalyze, plan, hplan, document, hrollup, entity, hentity, outer, houter,
    ⟨root, changes⟩, hchanges, property, hproperty, importType, himportType, list, hlist, item,
    hitem, target, htarget, owner, howner, imported, himported, hdocument,
    ⟨hrootKind, hpropertyKind, himportKind, hlistKind, hitemKind, htargetKind⟩, hkinds,
    ⟨⟨houterKept, houterWhole⟩, hownerKept, hownerWhole⟩, hbound, hleaf, hown, htext⟩ := hrun
  have hentity := List.mem_of_getElem? hentity
  have houter := List.mem_of_getElem? houter
  have hleaf := List.length_eq_zero_iff.mp hleaf
  obtain ⟨name, rfl⟩ := Option.isSome_iff_exists.mp hbound
  obtain ⟨raw, kind, _, _, hprinted⟩ := rollup_prints_identifiers hanalyze hrollup
  obtain ⟨_, _, hchanges', _, _, hprinted⟩ :=
    hprinted entity hentity outer houter houterKept houterWhole
  obtain ⟨rfl, rfl⟩ := Prod.mk.inj (Except.ok.inj (hchanges.symm.trans hchanges'))
  have hpath : root.descendant? [2, 1, 2, 0, 0] = some target := by
    simp [Span.descendant?, hproperty, himportType, hlist, hitem, htarget]
  obtain ⟨chain, hway, hprinted⟩ := hprinted _ target hpath htargetKind hleaf
  have hdirect : Way outer root [2, 1, 2, 0, 0] [owner] target := by
    apply Way.member hproperty (by rw [hpropertyKind]; rfl) howner
    apply Way.through himportType (by rw [himportKind]; rfl)
    apply Way.through hlist (by rw [hlistKind]; rfl)
    apply Way.through hitem (by rw [hitemKind]; rfl)
    exact .through htarget (by rw [htargetKind]; rfl) .here
  obtain ⟨rfl, _⟩ := hway.unique hdirect
  have hlisted : ([2, 0], item) ∈ argumentsOf importType := by
    refine mem_argumentsOf.mpr ⟨2, list, ⟨1, 3, ?_, ?_, by omega, by omega⟩, hlist, ?_⟩
    · rw [hkinds]
      rfl
    · rw [hkinds]
      rfl
    · rw [if_pos hlistKind]
      exact mem_items.mpr ⟨0, hitem, by simp [hitemKind], rfl⟩
  have hroute : Route surface root [2, 1, 2, 0, 0] true true := by
    apply Route.opened (by simp [Opened, hrootKind]) (by rw [hrootKind]; rfl) hproperty
    apply Route.opened (by simp [Opened, hpropertyKind]) (by rw [hpropertyKind]; rfl) himportType
    apply Route.argument himportKind ⟨name, himported⟩ hlisted
    exact .opened (by simp [Opened, hitemKind]) (by rw [hitemKind]; rfl) htarget .here
  have hstays : ∀ address, address <+: [2, 1, 2, 0, 0] →
      ¬ GoesWithMember ⟨surface, plan, true⟩ outer root address := by
    intro address haddress hgoes
    obtain ⟨span, hspan, hkind⟩ := hgoes.kind
    simp only [List.prefix_cons_iff, List.prefix_nil] at haddress
    rcases haddress with
      rfl | ⟨_, rfl, rfl | ⟨_, rfl, rfl | ⟨_, rfl, rfl | ⟨_, rfl, rfl | ⟨_, rfl, rfl⟩⟩⟩⟩⟩
    all_goals
      simp [Span.descendant?, hproperty, himportType, hlist, hitem, htarget] at hspan
      subst hspan
      simp [hrootKind, hpropertyKind, himportKind, hlistKind, hitemKind, htargetKind] at hkind
  have hprinted := hprinted true true hroute (by simp [hownerKept, hownerWhole]) hstays
    (fun _ => by rw [htext]; exact ⟨by simp, by decide⟩)
  rw [htext] at hprinted
  exact ⟨surface, plan, document, entity, outer, root, changes, target, hanalyze, hplan,
    hrollup, hdocument, hentity, houter, hchanges, hpath, hown, hprinted⟩

/-- An identifier that is bound to an interface keeps its own text in an import type that
is bound to nothing, although the interface is written with another name. -/
theorem rollup_keeps_unbound_argument :
    ∃ surface plan document entity other outer root changes target,
    Surface.analyze (argumentPackage false) {} = .ok surface ∧
    TrimPlan.make surface .public = .ok plan ∧
    surface.rollup plan true ⟨.text "lf", .lf⟩ = .ok document ∧
    document = ("\nexport declare interface A x:import(m).Q<B>\n\n" ++
      "export declare interface C\n\nexport \x7b \x7d\n").toList ∧
    entity ∈ surface.entities ∧ outer ∈ surface.declarationsOfEntity entity ∧
    declarationChanges ⟨surface, plan, true⟩ entity outer = .ok (root, changes) ∧
    plan.isKept outer.id = true ∧ surface.isStub outer = false ∧
    root.descendant? [2, 1, 2, 0, 0] = some target ∧ target.kind = .identifier ∧
    surface.entityForNode target.node = .ok (some other) ∧ other.name = .text "C" ∧
    target.render (changes.edits.within [2, 1, 2, 0, 0]) = ['B'] := by
  have hrun : (do
      let surface ← Surface.analyze (argumentPackage false) {}
      let plan ← TrimPlan.make surface .public
      let document ← surface.rollup plan true ⟨.text "lf", .lf⟩
      let entity ← pick surface.entities 0
      let outer ← pick (surface.declarationsOfEntity entity) 0
      let made ← declarationChanges ⟨surface, plan, true⟩ entity outer
      let target ← pick (made.1.descendant? [2, 1, 2, 0, 0]).toList 0
      let bound ← surface.entityForNode target.node
      let other ← pick bound.toList 0
      pure (document, plan.isKept outer.id, surface.isStub outer, target.kind, other.name,
        target.render (made.2.edits.within [2, 1, 2, 0, 0]))) =
        .ok (("\nexport declare interface A x:import(m).Q<B>\n\n" ++
            "export declare interface C\n\nexport \x7b \x7d\n").toList,
          true, false, .identifier, .text "C", ['B']) := by
    cbv
  simp only [bind_eq_ok, pure_eq_ok, pick_eq_ok, Prod.mk.injEq] at hrun
  obtain ⟨surface, hanalyze, plan, hplan, document, hrollup, entity, hentity, outer, houter,
    ⟨root, changes⟩, hchanges, target, htarget, bound, hbound, other, hother, hdocument, hkept,
    hwhole, hkind, hname, hdrawn⟩ := hrun
  have htarget : root.descendant? [2, 1, 2, 0, 0] = some target := by
    simpa using List.mem_of_getElem? htarget
  obtain rfl : bound = some other := by simpa using List.mem_of_getElem? hother
  exact ⟨surface, plan, document, entity, other, outer, root, changes, target, hanalyze, hplan,
    hrollup, hdocument, List.mem_of_getElem? hentity, List.mem_of_getElem? houter, hchanges,
    hkept, hwhole, htarget, hkind, hbound, hname, hdrawn⟩

end ApiSurface
