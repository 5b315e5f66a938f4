import ApiSurface.Proofs.Surface.Reachable
import ApiSurface.Proofs.Trim.Agreement

/-!
# What kept declarations refer to

References lead from a declaration to outermost symbols, and those to its own
outermost symbol are not followed.  A plan therefore never drops an outermost
symbol that something kept is bound to.  Members are cut off by their tags all
the same, so that a member that something kept is bound to stays only if the
declaration around it keeps it.
-/

namespace ApiSurface

/-! ## The symbols of a package -/

namespace SymbolTable

variable {entries : List SymbolEntry} {symbols : List Symbol}

theorem keys_nodup_concat {symbol : Symbol} (hnodup : (symbols.map Symbol.key).Nodup)
    (hfresh : ∀ other ∈ symbols, other.key ≠ symbol.key) :
    ((symbols ++ [symbol]).map Symbol.key).Nodup := by
  rw [List.map_append, List.nodup_append]
  refine ⟨hnodup, by simp, ?_⟩
  intro key hkey other hother
  obtain ⟨found, hfound, rfl⟩ := List.mem_map.mp hkey
  obtain rfl : other = symbol.key := by simpa using hother
  exact hfresh found hfound

theorem Entered.keys_nodup (h : Entered entries [] symbols) :
    (symbols.map Symbol.key).Nodup := by
  induction h with
  | nothing => simp
  | entry _ _ _ fresh ih => exact keys_nodup_concat ih fresh
  | member _ _ fresh ih => exact keys_nodup_concat ih fresh

theorem Entered.outermost_external (h : Entered entries [] symbols) :
    ∀ symbol ∈ symbols, ∃ outer ∈ symbols, outer.key = symbol.root.key ∧
      outer.external = symbol.external := by
  induction h with
  | nothing => simp
  | entry _ _ _ _ ih =>
      refine List.forall_mem_append.mpr ⟨fun symbol hsymbol => ?_, ?_⟩
      · obtain ⟨outer, houter, hrest⟩ := ih symbol hsymbol
        exact ⟨outer, List.mem_append_left _ houter, hrest⟩
      · simp only [List.mem_singleton, forall_eq]
        exact ⟨_, by simp, rfl, rfl⟩
  | member _ known _ ih =>
      refine List.forall_mem_append.mpr ⟨fun symbol hsymbol => ?_, ?_⟩
      · obtain ⟨outer, houter, hrest⟩ := ih symbol hsymbol
        exact ⟨outer, List.mem_append_left _ houter, hrest⟩
      · simp only [List.mem_singleton, forall_eq]
        obtain ⟨outer, houter, hrest⟩ := ih _ known
        exact ⟨outer, List.mem_append_left _ houter, hrest⟩

end SymbolTable

namespace Inventory

variable {graph : ModuleGraph} {inventory : Inventory} {references : References}

theorem symbol?_of_mem (hdeclared : ofGraph graph = .ok inventory) {symbol : Symbol}
    (hsymbol : symbol ∈ inventory.symbols) :
    inventory.symbol? symbol.key = some symbol := by
  exact find?_key ((ofGraph_forest hdeclared).entered.keys_nodup) hsymbol

private theorem target_symbol {bound : Datum} {key : Key} {symbol : Symbol}
    (hkey : bound.key? = some key) (hsymbol : inventory.symbol? key = some symbol) :
    inventory.target bound = .ok (.symbol symbol.root.key) := by
  have hsame : symbol.label.key = key := symbol?_key hsymbol
  have hname : bound.key = .ok key := by
    unfold Datum.key
    rw [hkey]
  simp only [target, lookup, hname, bind, Except.bind, hsymbol, pure, Except.pure,
    Symbol.subject, Subject.id, hsame, rootOf, Option.map_some, Option.getD_some]

/-- The outermost symbol of something bound is among the references, unless it is
the declaration's own. -/
theorem root_mem_references (hdeclared : ofGraph graph = .ok inventory)
    (hreferred : inventory.references graph = .ok references)
    {source : Declaration} (hsource : source ∈ inventory.allDeclarations)
    {node : Node} (hnode : node ∈ source.node.ownNodes) {bound : Datum}
    (hbound : graph.resolve? node = some bound) {key : Key} (hkey : bound.key? = some key)
    {symbol : Symbol} (hsymbol : inventory.symbol? key = some symbol)
    (hother : symbol.root.key ≠ source.symbol.root.key) :
    .symbol symbol.root.key ∈ references.of source.id := by
  have hcollected := references_of hdeclared hreferred hsource
  refine (mem_collectTargets hcollected _).mpr (.inr ⟨?_, node, hnode, bound, hbound,
    target_symbol hkey hsymbol⟩)
  simpa using hother

end Inventory

/-! ## Where kept declarations stand -/

namespace Surface

variable {graph : ModuleGraph} {router : Router} {surface : Surface}
  {threshold : ReleaseTag} {kept : Set Nat}

/-- The tag that members of a kept declaration have to reach: that of the tier, or
its own if the declaration itself does not reach that of the tier. -/
def cut (surface : Surface) (threshold : ReleaseTag) (declaration : Declaration) :
    ReleaseTag :=
  if (surface.tagOf declaration).below threshold then surface.tagOf declaration
  else threshold

private theorem Reached.exists_listed (h : Reached surface threshold kept) {id : Nat}
    (hid : id ∈ kept) :
    ∃ outer, surface.Listed outer ∧ outer.id ∈ kept ∧
      id ∈ surface.closureIds (surface.cut threshold outer) outer := by
  induction h with
  | start =>
      obtain ⟨outer, hlisted, hreaches, hmem⟩ := hid
      refine ⟨outer, hlisted, ⟨outer, hlisted, hreaches, mem_closureIds_self outer⟩, ?_⟩
      rwa [cut, ReleaseTag.below_eq_not_reaches, hreaches]
  | @rescue kept source target before _ _ _ refers isMissing ih =>
      rcases hid with hid | hid
      · obtain ⟨outer, hlisted, houter, hmem⟩ := ih hid
        exact ⟨outer, hlisted, .inl houter, hmem⟩
      · have hbelow := before.below_of_missing refers.2.2 isMissing
        refine ⟨target, refers.2.2, .inr (mem_closureIds_self target), ?_⟩
        rwa [cut, hbelow, if_pos rfl, ← ReleaseTag.least_eq_of_below hbelow]

theorem Reached.mem_iff (hsound : surface.Sound) (h : Reached surface threshold kept)
    {inner : Declaration} (hinner : inner ∈ surface.inventory.allDeclarations) :
    inner.id ∈ kept ↔ ∃ outer, surface.Listed outer ∧ outer.id ∈ kept ∧
      Closure surface (surface.cut threshold outer) outer inner := by
  constructor
  · intro hid
    obtain ⟨outer, hlisted, houter, hmem⟩ := h.exists_listed hid
    exact ⟨outer, hlisted, houter, closure_of_id_mem hsound hlisted.1 hinner hmem⟩
  · rintro ⟨outer, hlisted, houter, hclosure⟩
    have hmem : inner.id ∈ surface.closureIds (surface.cut threshold outer) outer :=
      ⟨inner, hclosure, rfl⟩
    cases hbelow : (surface.tagOf outer).below threshold with
    | true =>
        rw [cut, hbelow, if_pos rfl] at hmem
        exact h.closureIds_tag_subset hsound hlisted.1 houter hbelow hmem
    | false =>
        rw [cut, hbelow] at hmem
        have hreaches : (surface.tagOf outer).reaches threshold = true := by
          simpa [ReleaseTag.below_eq_not_reaches] using hbelow
        exact h.visibleIds_subset ⟨outer, hlisted, hreaches, hmem⟩

/-! ## References lead to entities -/

theorem entity?_iff_reached (h : analyze graph router = .ok surface) :
    ∃ exported, graph.exports.mapM (resolveExport surface.inventory) = .ok exported ∧
      ∀ id, (surface.entity? id).isSome = true ↔
        id ∈ reachedIds surface.inventory surface.references exported ∧
          (surface.inventory.subject? id).isSome = true := by
  obtain ⟨named, itemized, remarked, hsteps⟩ := analyze_steps h
  have hresolved := hsteps.resolved
  simp only [resolveEntities, bind_eq_ok] at hresolved
  obtain ⟨exported, hexports, -⟩ := hresolved
  refine ⟨exported, hexports, fun id => ?_⟩
  rw [entity?_isSome_iff, ← List.mem_map, (entities_ids h hexports).mem_iff,
    List.mem_filter]

private theorem entity?_of_reference (h : analyze graph router = .ok surface)
    {outer inner : Declaration} (hlisted : surface.Listed outer) (hinner : inner ∈ outer.walk)
    {key : Key} (hreference : .symbol key ∈ surface.references.of inner.id)
    (hknown : .symbol key ∈ surface.inventory.entityIds) :
    (surface.entity? (.symbol key)).isSome = true := by
  obtain ⟨exported, hexports, hentity⟩ := entity?_iff_reached h
  obtain ⟨subject, hsubject⟩ := Inventory.subject?_of_mem_entityIds hknown
  refine (hentity _).mpr ⟨?_, by simp [hsubject]⟩
  refine discover_closed ?_ ((hentity _).mp hlisted.2).1 ?_ hknown
  · intro id hid
    obtain ⟨_, _, _, _, hdenotes⟩ := resolveExports_denote hexports id hid
    exact hdenotes.mem_entityIds
  · refine List.mem_flatMap.mpr ⟨outer, ?_, ?_⟩
    · exact Inventory.mem_declarationsOf.mpr ⟨hlisted.1, rfl⟩
    · exact List.mem_flatMap.mpr ⟨inner, hinner, hreference⟩

/-- What is part of an entity and bound to something of another outermost symbol
refers to all declarations of that outermost symbol. -/
theorem refers_root (h : analyze graph router = .ok surface) {outer source : Declaration}
    (hlisted : surface.Listed outer) (hinside : source ∈ outer.walk)
    (hsource : source ∈ surface.inventory.allDeclarations)
    {node : Node} (hnode : node ∈ source.node.ownNodes) {bound : Datum}
    (hbound : graph.resolve? node = some bound) {key : Key} (hkey : bound.key? = some key)
    {symbol : Symbol} (hsymbol : surface.inventory.symbol? key = some symbol)
    (hlocal : symbol.external = false)
    (hother : symbol.root.key ≠ source.symbol.root.key) {target : Declaration}
    (htarget : target ∈ surface.inventory.declarationsOf symbol.root.key) :
    surface.Refers source target := by
  obtain ⟨named, itemized, remarked, hsteps⟩ := analyze_steps h
  have hdeclared := hsteps.declared
  obtain ⟨htarget, hroot⟩ := Inventory.mem_declarationsOf.mp htarget
  have hreference := Inventory.root_mem_references hdeclared hsteps.referred hsource hnode
    hbound hkey hsymbol hother
  obtain ⟨top, htop, htopKey, htopExternal⟩ :=
    (Inventory.ofGraph_forest hdeclared).entered.outermost_external symbol
      (List.mem_of_find?_eq_some hsymbol)
  have hknown : .symbol symbol.root.key ∈ surface.inventory.entityIds :=
    List.mem_append_left _ (List.mem_map.mpr ⟨top, htop, congrArg EntityId.symbol htopKey⟩)
  rw [← hroot] at hreference hknown htopKey
  refine ⟨hreference, ⟨top, ?_, htopExternal.trans hlocal⟩, htarget, ?_⟩
  · rw [← htopKey]
    exact Inventory.symbol?_of_mem hdeclared htop
  · exact entity?_of_reference h hlisted hinside hreference hknown

theorem Listed.outermost (h : analyze graph router = .ok surface) (hkeys : graph.PlainKeys)
    {outer : Declaration} (hlisted : surface.Listed outer) :
    ∀ inner ∈ outer.walk, inner.symbol.root.key = outer.symbol.key := by
  obtain ⟨named, itemized, remarked, hsteps⟩ := analyze_steps h
  have hforest := Inventory.ofGraph_forest hsteps.declared
  obtain ⟨exported, hexports, hentity⟩ := entity?_iff_reached h
  -- The key of an entity has no separator, since it denotes an outermost symbol.
  have hplain : ∀ text, Spelled outer.symbol text → '#' ∉ text.toList := by
    obtain ⟨name, hdenotes⟩ := reachedIds_denoted hsteps.declared hsteps.referred hexports
      hkeys _ ((hentity _).mp hlisted.2).1
    intro text htext
    cases hdenotes with
    | symbol hroot =>
        obtain ⟨symbol, hsymbol, hkey, halone⟩ := hroot.known
        obtain ⟨other, hother⟩ := hforest.entered.spelled hkeys symbol hsymbol
        rw [hother.key, htext.key] at hkey
        rw [← Key.text.inj hkey, hother.separated, halone]
        simp
  obtain ⟨top, htop, hinside⟩ := Declaration.mem_walkAll.mp hlisted.1
  obtain ⟨entry, -, label, -, hknown, site, -, hdeclares⟩ := hforest.exists_site htop
  have hsame : outer = top := by
    rcases (Inventory.walk_spelled hsteps.declared hkeys hknown hdeclares hinside).2 with
      hsame | ⟨text, htext, hseparated⟩
    · exact hsame
    · exact absurd hseparated (hplain text htext)
  subst hsame
  have hsymbol : outer.symbol = SymbolTable.outermost entry label := by
    cases hdeclares
    rfl
  intro inner hinner
  rw [(Inventory.walk_spelled hsteps.declared hkeys hknown hdeclares hinner).1, hsymbol]
  rfl

end Surface

/-! ## Plans -/

namespace TrimPlan

open Surface

variable {graph : ModuleGraph} {router : Router} {surface : Surface} {tier : Tier}
  {plan : TrimPlan}

private theorem isKept_iff {id : Nat} : plan.isKept id = true ↔ id ∈ plan.keptIds := by
  simp [isKept, keptIds]

/-- Of what a kept declaration is bound to, a plan keeps all declarations of the
outermost symbol, or, for the declaration's own outermost symbol, that around the
declaration.  A member is kept if it is not cut off in an entity that is kept. -/
theorem make_keeps_referred_roots (h : analyze graph router = .ok surface)
    (hplan : make surface tier = .ok plan) {source : Declaration}
    (hsource : source ∈ surface.inventory.allDeclarations)
    (hkept : plan.isKept source.id = true) (hbody : surface.isStub source = false)
    {node : Node} (hnode : node ∈ source.node.ownNodes) {bound : Datum}
    (hbound : graph.resolve? node = some bound) {key : Key} (hkey : bound.key? = some key)
    {symbol : Symbol} (hsymbol : surface.inventory.symbol? key = some symbol)
    (hlocal : symbol.external = false) :
    (symbol.root.key ≠ source.symbol.root.key →
      ∀ target ∈ surface.inventory.declarationsOf symbol.root.key,
        surface.Listed target ∧ plan.isKept target.id = true) ∧
    (graph.PlainKeys → symbol.root.key = source.symbol.root.key →
      ∃ outer ∈ surface.inventory.declarationsOf symbol.root.key,
        surface.Listed outer ∧ plan.isKept outer.id = true ∧ source ∈ outer.walk) ∧
    ∀ target ∈ surface.inventory.declarationsOf key, plan.isKept target.id = true ↔
      ∃ outer, surface.Listed outer ∧ plan.isKept outer.id = true ∧
        Closure surface (surface.cut tier.threshold outer) outer target := by
  obtain ⟨named, itemized, remarked, hsteps⟩ := analyze_steps h
  have hsound := hsteps.sound
  obtain ⟨-, hreached, hsettled, -⟩ := make_finishes hsound hplan
  simp only [isKept_iff] at hkept ⊢
  obtain ⟨outer, hlisted, houter, hclosure⟩ := (hreached.mem_iff hsound hsource).mp hkept
  refine ⟨fun hother target htarget => ?_, fun hkeys hown => ?_, fun target htarget => ?_⟩
  · have hrefers := refers_root h hlisted hclosure.mem_walk hsource hnode hbound hkey hsymbol
      hlocal hother htarget
    exact ⟨hrefers.2.2, hsettled source hsource hkept hbody target hrefers⟩
  · refine ⟨outer, Inventory.mem_declarationsOf.mpr ⟨hlisted.1, ?_⟩, hlisted, houter,
      hclosure.mem_walk⟩
    rw [hown, hlisted.outermost h hkeys source hclosure.mem_walk]
  · exact hreached.mem_iff hsound (Inventory.mem_declarationsOf.mp htarget).1

/-- A function, and an interface with two properties.  The function and the first
property mention the second property. -/
def fringeFile : SourceFile where
  path := .text "index.d.ts"
  text := "F y A x y y".toList
  root := .mk .sourceFile 0 11 0 .null
    [.mk .functionDeclaration 0 3 1 .null
      [.mk .identifier 0 1 2 .null [], .mk .identifier 2 3 3 .null []],
    .mk .interfaceDeclaration 4 11 4 .null
      [.mk .identifier 4 5 5 .null [],
      .mk .propertySignature 6 9 6 .null
        [.mk .identifier 6 7 7 .null [], .mk .identifier 8 9 8 .null []],
      .mk .propertySignature 10 11 9 .null [.mk .identifier 10 11 10 .null []]]]

/-- The function is public, the interface beta and its second property internal. -/
def fringePackage : ModuleGraph where
  packageName := .text "fringe"
  files := [fringeFile]
  symbols := symbolsOf fringeFile ["F", "A"]
  bindings := [(3, .text "A#y"), (8, .text "A#y")]
  exports := [(.text "F", .text "F"), (.text "A", .text "A")]
  docFlags := [(1, { releaseTag := .public }), (4, { releaseTag := .beta }),
    (9, { releaseTag := .internal })]

theorem make_keeps_referred_roots_fringe :
    ∃ (surface : Surface) (plan : TrimPlan) (source : Declaration),
      analyze fringePackage {} = .ok surface ∧
      make surface .public = .ok plan ∧ plan.isKept source.id = true ∧
      (∃ node ∈ source.node.ownNodes, fringePackage.resolve? node = some (.text "A#y")) ∧
      ∃ target ∈ surface.inventory.declarationsOf (.text "A"),
        surface.tagOf target = .beta ∧ plan.isKept target.id = true := by
  have hrun : (do
      let surface ← analyze fringePackage {}
      let plan ← make surface .public
      let member ← pick (surface.inventory.symbol? (.text "A#y")).toList 0
      let source ← pick surface.inventory.allDeclarations 0
      let node ← pick source.node.ownNodes 2
      let target ← pick (surface.inventory.declarationsOf (.text "A")) 0
      pure (plan.isKept source.id, surface.isStub source, fringePackage.resolve? node,
        member.external, member.root.key, source.symbol.root.key, surface.tagOf target)) =
        .ok (true, false, some (.text "A#y"), false, .text "A", .text "F", .beta) := by
    cbv
  simp only [bind_eq_ok, pure_eq_ok, pick_eq_ok, Prod.mk.injEq] at hrun
  obtain ⟨surface, hanalyze, plan, hplan, member, hmember, source, hsource, node, hnode,
    target, htarget, hkept, hbody, hbound, hlocal, hroot, hown, htag⟩ := hrun
  have hmember : surface.inventory.symbol? (.text "A#y") = some member := by
    simpa using List.mem_of_getElem? hmember
  have hnode := List.mem_of_getElem? hnode
  have htarget := List.mem_of_getElem? htarget
  obtain ⟨hroots, -⟩ := make_keeps_referred_roots hanalyze hplan
    (List.mem_of_getElem? hsource) hkept hbody hnode hbound rfl hmember hlocal
  rw [hroot, hown] at hroots
  exact ⟨surface, plan, source, hanalyze, hplan, hkept, ⟨node, hnode, hbound⟩, target,
    htarget, htag, (hroots (by decide) target htarget).2⟩

/-- The function and the first property are kept and mention the second property,
which is not kept. -/
theorem make_drops_referred_member :
    ∃ surface plan member, analyze fringePackage {} = .ok surface ∧
      make surface .public = .ok plan ∧
      surface.inventory.symbol? (.text "A#y") = some member ∧ member.external = false ∧
      surface.inventory.declarationsOf member.key ≠ [] ∧
      (∀ target ∈ surface.inventory.declarationsOf member.key,
        plan.isKept target.id = false) ∧
      ∀ name ∈ ["F", "x"], ∃ source ∈ surface.inventory.allDeclarations,
        source.symbol.name = .text name ∧ plan.isKept source.id = true ∧
        surface.isStub source = false ∧
        ∃ node ∈ source.node.ownNodes, fringePackage.resolve? node = some (.text "A#y") := by
  have hrun : (do
      let surface ← analyze fringePackage {}
      let plan ← make surface .public
      let member ← pick (surface.inventory.symbol? (.text "A#y")).toList 0
      let outer ← pick surface.inventory.allDeclarations 0
      let inner ← pick surface.inventory.allDeclarations 2
      let outerNode ← pick outer.node.ownNodes 2
      let innerNode ← pick inner.node.ownNodes 2
      pure (member.external,
        (surface.inventory.declarationsOf member.key).map fun target : Declaration =>
          plan.isKept target.id,
        [outer, inner].map fun source : Declaration =>
          (source.symbol.name, plan.isKept source.id, surface.isStub source),
        [outerNode, innerNode].map fringePackage.resolve?)) =
        .ok (false, [false], [(.text "F", true, false), (.text "x", true, false)],
          [some (.text "A#y"), some (.text "A#y")]) := by
    cbv
  simp only [bind_eq_ok, pure_eq_ok, pick_eq_ok, Prod.mk.injEq, List.map_cons, List.map_nil,
    List.cons.injEq, and_true] at hrun
  obtain ⟨surface, hanalyze, plan, hplan, member, hmember, outer, houter, inner, hinner,
    outerNode, houterNode, innerNode, hinnerNode, hlocal, htargets,
    ⟨⟨houterName, houterKept, houterWhole⟩, hinnerName, hinnerKept, hinnerWhole⟩,
    houterBound, hinnerBound⟩ := hrun
  have hmember : surface.inventory.symbol? (.text "A#y") = some member := by
    simpa using List.mem_of_getElem? hmember
  refine ⟨surface, plan, member, hanalyze, hplan, hmember, hlocal, ?_, ?_, ?_⟩
  · intro hnone
    simp [hnone] at htargets
  · intro target htarget
    have hmem := List.mem_map_of_mem (f := fun other : Declaration => plan.isKept other.id)
      htarget
    simpa [htargets] using hmem
  · intro name hname
    rcases List.mem_cons.mp hname with rfl | hname
    · exact ⟨outer, List.mem_of_getElem? houter, houterName, houterKept, houterWhole,
        outerNode, List.mem_of_getElem? houterNode, houterBound⟩
    · obtain rfl := List.mem_singleton.mp hname
      exact ⟨inner, List.mem_of_getElem? hinner, hinnerName, hinnerKept, hinnerWhole,
        innerNode, List.mem_of_getElem? hinnerNode, hinnerBound⟩

end TrimPlan

end ApiSurface
