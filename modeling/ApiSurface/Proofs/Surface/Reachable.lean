import ApiSurface.Proofs.Surface.Roots

/-!
# Reachable entities

The entities of a package are the least set that contains what is exported and,
with a symbol, everything that is mentioned anywhere below its declarations.
The analysis collects mentions for each declaration without its members; the
own nodes of a declaration and of its members make up the whole subtree, so that
nothing is missed.
-/

namespace ApiSurface

/-! ## Own nodes -/

theorem Node.ownNodes_eq (node : Node) :
    node.ownNodes = node :: ownNodesAll node.children := by
  cases node
  rfl

namespace SymbolTable

variable {symbols : List Symbol} {file : SourceFile} {ancestors nodes : List Node}
  {owner symbol : Symbol} {number : Nat} {declarations : List Declaration}

private theorem Members.walkAll_perm
    (h : Members symbols file ancestors owner number nodes declarations) :
    (Node.walkAll nodes).Perm (Node.ownNodesAll nodes ++
      (Declaration.walkAll declarations).flatMap fun member => member.node.ownNodes) := by
  induction h with
  | nil => exact .nil
  | declared declares _ _ _ _ _ ihbelow ihafter =>
      rw [Node.walkAll, Node.walk_eq, Node.ownNodesAll, if_pos declares, List.nil_append,
        Declaration.walkAll, Declaration.walk, List.flatMap_append, List.flatMap_cons,
        Declaration.node, Declaration.site, Node.ownNodes_eq]
      exact ((ihbelow.cons _).append ihafter).trans (List.perm_append_comm_assoc _ _ _)
  | through transparent _ _ ihbelow ihafter =>
      rw [Node.walkAll, Node.walk_eq, Node.ownNodesAll, if_neg (by simp [transparent]),
        Node.ownNodes_eq, Declaration.walkAll_append, List.flatMap_append]
      refine ((ihbelow.cons _).append ihafter).trans ?_
      rw [← List.cons_append, List.append_assoc, List.append_assoc]
      exact (List.perm_append_comm_assoc _ _ _).append_left _

theorem Declares.walk_perm {parent : Option Nat} {site : Site} {declaration : Declaration}
    (h : Declares symbols symbol parent site declaration) :
    site.node.walk.Perm (declaration.walk.flatMap fun member => member.node.ownNodes) := by
  obtain ⟨-, below⟩ := h
  rw [Node.walk_eq, Declaration.walk, List.flatMap_cons, Declaration.node,
    Declaration.site, Node.ownNodes_eq]
  exact below.walkAll_perm.cons _

theorem Declares.mem_walk_iff {parent : Option Nat} {site : Site}
    {declaration : Declaration}
    (h : Declares symbols symbol parent site declaration) (node : Node) :
    node ∈ site.node.walk ↔
      ∃ member ∈ declaration.walk, node ∈ member.node.ownNodes := by
  rw [h.walk_perm.mem_iff, List.mem_flatMap]

/-! ## The symbols of members -/

theorem spelled_member {text : String} (howner : Spelled owner text) {name : String}
    {static : Bool} (hkey : symbol.key = (memberLabel owner name static).key)
    {longer : String} (hsymbol : Spelled symbol longer) :
    symbol.root.key = owner.root.key ∧ '#' ∈ longer.toList := by
  obtain ⟨extended, hextended⟩ := spelled_memberOf howner name static
  have hsame : longer = extended := by
    have hkeys : Key.text longer = .text extended := by
      rw [← hsymbol.key, hkey]
      exact hextended.key
    exact Key.text.inj hkeys
  subst hsame
  refine ⟨?_, hextended.separated.mpr (by simp [memberOf])⟩
  rw [hsymbol.root, ← hextended.root]
  rfl

private theorem Members.symbol_spelled
    (hspelled : ∀ symbol ∈ symbols, ∃ text, Spelled symbol text)
    (h : Members symbols file ancestors owner number nodes declarations)
    (howner : owner ∈ symbols) :
    ∀ member ∈ Declaration.walkAll declarations,
      member.symbol.root.key = owner.root.key ∧
      ∃ text, Spelled member.symbol text ∧ '#' ∈ text.toList := by
  induction h with
  | nil => simp [Declaration.walkAll]
  | declared _ _ known labelled _ _ ihbelow ihafter =>
      obtain ⟨text, htext⟩ := hspelled _ howner
      obtain ⟨longer, hlonger⟩ := hspelled _ known
      obtain ⟨hroot, hseparated⟩ := spelled_member htext labelled hlonger
      simp only [Declaration.walkAll, Declaration.walk, List.cons_append,
        List.forall_mem_cons, List.forall_mem_append]
      refine ⟨⟨hroot, longer, hlonger, hseparated⟩, ?_, ihafter howner⟩
      intro member hmember
      obtain ⟨hmemberRoot, hmemberText⟩ := ihbelow known member hmember
      exact ⟨hmemberRoot.trans hroot, hmemberText⟩
  | through _ _ _ ihbelow ihafter =>
      rw [Declaration.walkAll_append, List.forall_mem_append]
      exact ⟨ihbelow howner, ihafter howner⟩

end SymbolTable

/-! ## What a key denotes -/

namespace Inventory

variable {graph : ModuleGraph} {inventory : Inventory} {references : References}

/-- A key denotes the outermost symbol around the symbol of that key, or else
the imported thing of that key. -/
inductive Denotes (inventory : Inventory) : Key → EntityId → Prop
  | symbol {key root : Key} (inside : Root inventory.symbols key root) :
      Denotes inventory key (.symbol root)
  | imported {entry : LabelledImport} (known : entry ∈ inventory.imports) :
      Denotes inventory entry.key (.imported entry.key)

theorem import_ne_symbol (h : ofGraph graph = .ok inventory) :
    ∀ entry ∈ inventory.imports, ∀ symbol ∈ inventory.symbols,
      symbol.key ≠ entry.key := by
  simp only [ofGraph, bind_eq_ok, pure_eq_ok] at h
  obtain ⟨⟨declarations, table⟩, -, imports, himports, rfl⟩ := h
  exact fun entry hentry => (labelImports_eq_ok himports entry hentry).2

theorem target_denotes (hdeclared : ofGraph graph = .ok inventory) {bound : Datum}
    {id : EntityId} (h : inventory.target bound = .ok id) :
    ∃ key, bound.key? = some key ∧ inventory.Denotes key id := by
  simp only [target, bind_eq_ok] at h
  obtain ⟨subject, hlookup, h⟩ := h
  obtain ⟨key, hkey, ⟨symbol, hsymbol, rfl⟩ | ⟨entry, -, hentry, rfl⟩⟩ :=
    lookup_eq_ok hlookup
  · have hsame := symbol?_key hsymbol
    refine ⟨key, hkey, ?_⟩
    simp only [Symbol.subject, Subject.id, pure_eq_ok] at h
    rw [show symbol.label.key = key from hsame, rootOf, hsymbol] at h
    subst h
    have hroot := (ofGraph_forest hdeclared).entered.root symbol
      (List.mem_of_find?_eq_some hsymbol)
    rw [hsame] at hroot
    exact .symbol hroot
  · have hsame := import?_key hentry
    refine ⟨key, hkey, ?_⟩
    simp only [LabelledImport.subject, Subject.id, pure_eq_ok] at h
    subst h
    rw [← hsame]
    exact .imported (List.mem_of_find?_eq_some hentry)

theorem Denotes.unique (hdeclared : ofGraph graph = .ok inventory)
    (hkeys : graph.PlainKeys) {key : Key} {one other : EntityId}
    (hone : inventory.Denotes key one) (hother : inventory.Denotes key other) :
    one = other := by
  have hentered := (ofGraph_forest hdeclared).entered
  have hsymbol : ∀ {key root}, Root inventory.symbols key root →
      ∃ symbol ∈ inventory.symbols, symbol.key = key := by
    intro key root hroot
    cases hroot with
    | outermost known _ => exact ⟨_, known, rfl⟩
    | member known _ _ => exact ⟨_, known, rfl⟩
  cases hone with
  | symbol hroot =>
      obtain ⟨symbol, hknown, hkey⟩ := hsymbol hroot
      generalize hfound : key = found at hother
      cases hother with
      | symbol hroot' =>
          subst hfound
          rw [← hentered.eq_root hkeys hroot symbol hknown hkey,
            hentered.eq_root hkeys hroot' symbol hknown hkey]
      | imported known =>
          exact absurd (hkey.trans hfound) (import_ne_symbol hdeclared _ known _ hknown)
  | imported known =>
      generalize hfound : LabelledImport.key _ = found at hother
      cases hother with
      | symbol hroot =>
          obtain ⟨symbol, hsymbolKnown, hkey⟩ := hsymbol hroot
          exact absurd (hkey.trans hfound.symm)
            (import_ne_symbol hdeclared _ known _ hsymbolKnown)
      | imported _ => rfl

theorem Denotes.known {key : Key} {id : EntityId} (h : inventory.Denotes key id) :
    ∃ subject, inventory.subject? id = some subject := by
  cases h with
  | symbol hroot =>
      obtain ⟨symbol, hsymbol, hkey, -⟩ := hroot.known
      refine subject?_of_mem_entityIds ?_
      simp only [entityIds, List.mem_append, List.mem_map, EntityId.symbol.injEq]
      exact .inl ⟨symbol, hsymbol, hkey⟩
  | @imported entry known =>
      have hsome : (inventory.import? entry.key).isSome = true := by
        rw [import?, List.find?_isSome]
        exact ⟨entry, known, by simp⟩
      obtain ⟨found, hfound⟩ := Option.isSome_iff_exists.mp hsome
      exact ⟨found.subject, by rw [subject?, hfound]; rfl⟩

theorem mem_entityIds {id : EntityId} {subject : Subject}
    (h : inventory.subject? id = some subject) : id ∈ inventory.entityIds := by
  cases id with
  | symbol key =>
      obtain ⟨symbol, hsymbol, -⟩ := Option.map_eq_some_iff.mp h
      refine List.mem_append_left _ (List.mem_map.mpr ⟨symbol, ?_, ?_⟩)
      · exact List.mem_of_find?_eq_some hsymbol
      · rw [symbol?_key hsymbol]
  | imported key =>
      obtain ⟨entry, hentry, -⟩ := Option.map_eq_some_iff.mp h
      refine List.mem_append_right _ (List.mem_map.mpr ⟨entry, ?_, ?_⟩)
      · exact List.mem_of_find?_eq_some hentry
      · rw [import?_key hentry]

/-! ## Collected references -/

theorem mem_collectTargets {own : Key} {found result : List EntityId}
    {nodes : List Node} (h : collectTargets graph inventory own found nodes = .ok result)
    (id : EntityId) :
    id ∈ result ↔ id ∈ found ∨ (id ≠ .symbol own ∧
      ∃ node ∈ nodes, ∃ bound, graph.resolve? node = some bound ∧
        inventory.target bound = .ok id) := by
  induction nodes generalizing found with
  | nil =>
      cases h
      simp
  | cons node rest ih =>
      rw [collectTargets] at h
      split at h
      · rename_i hnone
        rw [ih h]
        simp [hnone]
      · rename_i bound hbound
        obtain ⟨target, htarget, h⟩ := bind_eq_ok.mp h
        have hhere : ∀ id, (∃ other ∈ node :: rest, ∃ bound,
            graph.resolve? other = some bound ∧ inventory.target bound = .ok id) ↔
            id = target ∨ ∃ other ∈ rest, ∃ bound,
              graph.resolve? other = some bound ∧ inventory.target bound = .ok id := by
          intro id
          simp [hbound, htarget, eq_comm]
        rw [hhere]
        split at h
        · rename_i hskip
          rw [ih h]
          simp only [Bool.or_eq_true, decide_eq_true_eq, List.contains_eq_mem] at hskip
          constructor
          · tauto
          · rintro (hmem | ⟨hown, rfl | hlater⟩)
            · exact .inl hmem
            · exact .inl (hskip.resolve_left hown)
            · exact .inr ⟨hown, hlater⟩
        · rename_i hskip
          rw [ih h]
          simp only [Bool.or_eq_true, decide_eq_true_eq, not_or] at hskip
          simp only [List.mem_append, List.mem_singleton]
          constructor
          · rintro ((hmem | rfl) | hlater)
            · exact .inl hmem
            · exact .inr ⟨hskip.1, .inl rfl⟩
            · exact .inr ⟨hlater.1, .inr hlater.2⟩
          · tauto

private theorem collectTargets_resolves {own : Key} {found result : List EntityId}
    {nodes : List Node} (h : collectTargets graph inventory own found nodes = .ok result) :
    ∀ node ∈ nodes, ∀ bound, graph.resolve? node = some bound →
      ∃ id, inventory.target bound = .ok id := by
  induction nodes generalizing found with
  | nil => simp
  | cons node rest ih =>
      rw [collectTargets] at h
      split at h
      · rename_i hnone
        exact List.forall_mem_cons.mpr ⟨by simp [hnone], ih h⟩
      · rename_i bound hbound
        obtain ⟨target, htarget, h⟩ := bind_eq_ok.mp h
        refine List.forall_mem_cons.mpr ⟨?_, ?_⟩
        · intro other hother
          rw [hbound] at hother
          exact ⟨target, Option.some.inj hother ▸ htarget⟩
        · split at h
          · exact ih h
          · exact ih h

theorem references_of (hdeclared : ofGraph graph = .ok inventory)
    (hreferred : inventory.references graph = .ok references)
    {declaration : Declaration} (h : declaration ∈ inventory.allDeclarations) :
    inventory.referencesOf graph declaration = .ok (references.of declaration.id) := by
  have hdistinct := ids_nodup hdeclared
  have hpairs := mapM_eq_ok hreferred
  clear hreferred
  generalize inventory.allDeclarations = declarations at hpairs hdistinct h
  induction hpairs with
  | nil => cases h
  | @cons first entry rest others hfirst _ ih =>
      simp only [bind_eq_ok, pure_eq_ok] at hfirst
      obtain ⟨targets, htargets, rfl⟩ := hfirst
      rw [List.map_cons, List.nodup_cons] at hdistinct
      rcases List.mem_cons.mp h with rfl | h
      · simp [References.of, htargets]
      · have hne : declaration.id ≠ first.id := by
          intro hsame
          exact hdistinct.1 (hsame ▸ List.mem_map_of_mem h)
        have hskip : References.of ((first.id, targets) :: others) declaration.id =
            References.of others declaration.id := by
          simp [References.of, List.lookup_cons, beq_false_of_ne hne]
        rw [hskip]
        exact ih hdistinct.2 h

/-! ## Mentions of a symbol -/

/-- A node below a declaration of the symbol is bound to something. -/
def Mentions (graph : ModuleGraph) (inventory : Inventory) (key : Key)
    (id : EntityId) : Prop :=
  ∃ entry ∈ graph.symbols, entry.key.key? = some key ∧
    ∃ site ∈ entry.declarations, ∃ node ∈ site.node.walk, ∃ bound name,
      graph.resolve? node = some bound ∧ bound.key? = some name ∧
      inventory.Denotes name id

/-- In a declaration at a site of the package, the members belong to the symbol
of the site, and their keys have a separator. -/
theorem walk_spelled (hdeclared : ofGraph graph = .ok inventory)
    (hkeys : graph.PlainKeys) {symbol : Symbol} (hsymbol : symbol ∈ inventory.symbols)
    {site : Site} {outer member : Declaration}
    (houter : SymbolTable.Declares inventory.symbols symbol none site outer)
    (hmember : member ∈ outer.walk) :
    member.symbol.root.key = symbol.root.key ∧
      (member = outer ∨ ∃ text, Spelled member.symbol text ∧ '#' ∈ text.toList) := by
  have hspelled := (ofGraph_forest hdeclared).entered.spelled hkeys
  obtain ⟨-, below⟩ := houter
  rw [Declaration.walk, List.mem_cons] at hmember
  rcases hmember with rfl | hmember
  · exact ⟨rfl, .inl rfl⟩
  · obtain ⟨hroot, htext⟩ := below.symbol_spelled hspelled hsymbol member hmember
    exact ⟨hroot, .inr htext⟩

private theorem mem_outgoing_iff (hdeclared : ofGraph graph = .ok inventory)
    (hreferred : inventory.references graph = .ok references)
    (hkeys : graph.PlainKeys) {symbol : Symbol} (hsymbol : symbol ∈ inventory.symbols)
    (halone : symbol.parent = none) (id : EntityId) :
    id ∈ references.outgoing inventory (.symbol symbol.key) ↔
      id ≠ .symbol symbol.key ∧ Mentions graph inventory symbol.key id := by
  have hforest := ofGraph_forest hdeclared
  obtain ⟨text, htext⟩ := hforest.entered.spelled hkeys symbol hsymbol
  have hplain : '#' ∉ text.toList := by simp [htext.separated, halone]
  constructor
  · intro hid
    obtain ⟨declaration, hdeclaration, hid⟩ := List.mem_flatMap.mp hid
    obtain ⟨member, hmember, hid⟩ := List.mem_flatMap.mp hid
    obtain ⟨hlisted, hkey⟩ := mem_declarationsOf.mp hdeclaration
    obtain ⟨outer, houter, hinside⟩ := Declaration.mem_walkAll.mp hlisted
    obtain ⟨entry, hentry, label, hlabel, hknown, site, hsite, hdeclares⟩ :=
      hforest.exists_site houter
    -- A member would have a separator in its key.
    have hsame : declaration = outer := by
      rcases (walk_spelled hdeclared hkeys hknown hdeclares hinside).2 with hsame | hinner
      · exact hsame
      · obtain ⟨longer, hlonger, hseparated⟩ := hinner
        rw [hlonger.key, htext.key] at hkey
        exact absurd (Key.text.inj hkey ▸ hseparated) hplain
    subst hsame
    have hreal : declaration.symbol = SymbolTable.outermost entry label := by
      cases hdeclares
      rfl
    have hroot : member.symbol.root.key = symbol.key := by
      have hroots := (walk_spelled hdeclared hkeys hknown hdeclares hmember).1
      rw [hroots, ← hkey, hreal]
      rfl
    have hreferences := references_of hdeclared hreferred
      (Declaration.mem_walkAll.mpr ⟨declaration, houter, hmember⟩)
    obtain ⟨hown, node, hnode, bound, hbound, htarget⟩ :=
      ((mem_collectTargets hreferences id).mp hid).resolve_left (by simp)
    obtain ⟨name, hname, hdenotes⟩ := target_denotes hdeclared htarget
    rw [hroot] at hown
    refine ⟨hown, entry, hentry, ?_, site, hsite, node, ?_, bound, name, hbound, hname,
      hdenotes⟩
    · rw [(Label.ofDatum_eq_ok.mp hlabel).2, ← hkey, hreal]
      rfl
    · exact (hdeclares.mem_walk_iff node).mpr ⟨member, hmember, hnode⟩
  · rintro ⟨hown, entry, hentry, hkey, site, hsite, node, hnode, bound, name, hbound,
      hname, hdenotes⟩
    obtain ⟨label, hlabel, hknown, hsites⟩ := hforest.exists_outer hentry
    obtain ⟨outer, houter, hdeclares⟩ := hsites site hsite
    obtain ⟨member, hmember, hnode⟩ := (hdeclares.mem_walk_iff node).mp hnode
    have hlabelKey : label.key = symbol.key := by
      rw [(Label.ofDatum_eq_ok.mp hlabel).2] at hkey
      exact Option.some.inj hkey
    have hreal : outer.symbol = SymbolTable.outermost entry label := by
      cases hdeclares
      rfl
    have hroot : member.symbol.root.key = symbol.key := by
      rw [(walk_spelled hdeclared hkeys hknown hdeclares hmember).1, ← hlabelKey]
      rfl
    have hreferences := references_of hdeclared hreferred
      (Declaration.mem_walkAll.mpr ⟨outer, houter, hmember⟩)
    -- The node was resolved, and to nothing else than what its key denotes.
    obtain ⟨found, hfound⟩ := collectTargets_resolves hreferences node hnode bound hbound
    obtain ⟨name', hname', hdenotes'⟩ := target_denotes hdeclared hfound
    obtain rfl := Option.some.inj (hname.symm.trans hname')
    obtain rfl := hdenotes.unique hdeclared hkeys hdenotes'
    refine List.mem_flatMap.mpr ⟨outer, mem_declarationsOf.mpr ⟨?_, ?_⟩,
      List.mem_flatMap.mpr ⟨member, hmember, ?_⟩⟩
    · exact Declaration.mem_walkAll.mpr ⟨outer, houter, Declaration.mem_walk_self outer⟩
    · rw [hreal]
      exact hlabelKey
    · refine (mem_collectTargets hreferences id).mpr (.inr ⟨?_, node, hnode, bound,
        hbound, hfound⟩)
      rwa [hroot]

end Inventory

/-! ## Visiting everything -/

theorem mem_visit_of_pending {outgoing : EntityId → List EntityId}
    {unseen pending : List EntityId} :
    (∀ id ∈ pending, id ∈ unseen → id ∈ visit outgoing unseen pending) ∧
    ∀ id ∈ visit outgoing unseen pending, ∀ next ∈ outgoing id, next ∈ unseen →
      next ∈ visit outgoing unseen pending := by
  fun_induction visit outgoing unseen pending with
  | case1 => simp
  | case2 unseen first rest hunseen ih =>
      obtain ⟨hpending, hclosed⟩ := ih
      have hlater : ∀ id ∈ outgoing first ++ rest, id ∈ unseen →
          id ∈ first :: visit outgoing (unseen.erase first) (outgoing first ++ rest) := by
        intro id hid hknown
        by_cases hsame : id = first
        · simp [hsame]
        · refine List.mem_cons_of_mem _ (hpending id hid ?_)
          exact (List.mem_erase_of_ne hsame).mpr hknown
      constructor
      · intro id hid hknown
        rcases List.mem_cons.mp hid with rfl | hid
        · simp
        · exact hlater id (List.mem_append_right _ hid) hknown
      · intro id hid next hnext hknown
        rcases List.mem_cons.mp hid with rfl | hid
        · exact hlater next (List.mem_append_left _ hnext) hknown
        · by_cases hsame : next = first
          · simp [hsame]
          · refine List.mem_cons_of_mem _ (hclosed id hid next hnext ?_)
            exact (List.mem_erase_of_ne hsame).mpr hknown
  | case3 unseen first rest hunseen ih =>
      obtain ⟨hpending, hclosed⟩ := ih
      refine ⟨fun id hid hknown => ?_, hclosed⟩
      rcases List.mem_cons.mp hid with rfl | hid
      · exact absurd hknown hunseen
      · exact hpending id hid hknown

theorem discover_closed {outgoing : EntityId → List EntityId}
    {all exported : List EntityId} (hexported : ∀ id ∈ exported, id ∈ all)
    {id next : EntityId} (hid : id ∈ discover outgoing all exported)
    (hnext : next ∈ outgoing id) (hknown : next ∈ all) :
    next ∈ discover outgoing all exported := by
  obtain ⟨hpending, hclosed⟩ := @mem_visit_of_pending outgoing all exported
  have hvisited : id ∈ visit outgoing all exported := by
    rcases List.mem_append.mp (List.mem_eraseDups.mp hid) with hid | hid
    · exact hpending id hid (hexported id hid)
    · exact hid
  exact List.mem_eraseDups.mpr
    (List.mem_append_right _ (hclosed id hvisited next hnext hknown))

/-! ## The entities of a package -/

/-- A set of entities that contains what is exported, and with a symbol what is
mentioned below its declarations. -/
structure ModuleGraph.Closed (graph : ModuleGraph) (inventory : Inventory)
    (reached : Set EntityId) : Prop where
  exported : ∀ entry ∈ graph.exports, ∀ name id, entry.2.key? = some name →
    inventory.Denotes name id → id ∈ reached
  mentioned : ∀ key, .symbol key ∈ reached →
    ∀ id, inventory.Mentions graph key id → id ∈ reached

theorem resolveExport_denotes {inventory : Inventory} {entry : Datum × Datum}
    {name : Option Label} {id : EntityId}
    (h : resolveExport inventory entry = .ok (name, id)) :
    ∃ key, entry.2.key? = some key ∧ inventory.Denotes key id := by
  have htarget := (resolveExport_eq_ok h).1
  simp only [Inventory.exportTarget, bind_eq_ok] at htarget
  obtain ⟨subject, hlookup, htarget⟩ := htarget
  obtain ⟨key, hkey, ⟨symbol, hsymbol, rfl⟩ | ⟨found, -, hfound, rfl⟩⟩ :=
    Inventory.lookup_eq_ok hlookup
  · have hsame := Inventory.symbol?_key hsymbol
    simp only [Symbol.subject, Subject.id] at htarget
    rw [show symbol.label.key = key from hsame, hsymbol] at htarget
    split at htarget
    · cases htarget
    · rename_i halone
      obtain rfl := pure_eq_ok.mp htarget
      refine ⟨key, hkey, .symbol ?_⟩
      rw [← hsame]
      exact .outermost (List.mem_of_find?_eq_some hsymbol) halone
  · have hsame := Inventory.import?_key hfound
    obtain rfl := pure_eq_ok.mp htarget
    refine ⟨key, hkey, ?_⟩
    rw [← hsame]
    exact .imported (List.mem_of_find?_eq_some hfound)

section Discovered

variable {graph : ModuleGraph} {inventory : Inventory} {references : References}
  {exported : List (Option Label × EntityId)}

def reachedIds (inventory : Inventory) (references : References)
    (exported : List (Option Label × EntityId)) : List EntityId :=
  discover (references.outgoing inventory) inventory.entityIds
    (exported.map Prod.snd).eraseDups

theorem resolveExports_denote
    (hexports : graph.exports.mapM (resolveExport inventory) = .ok exported) :
    ∀ id ∈ (exported.map Prod.snd).eraseDups, ∃ entry ∈ graph.exports,
      ∃ key, entry.2.key? = some key ∧ inventory.Denotes key id := by
  intro id hid
  obtain ⟨⟨name, _⟩, hmem, rfl⟩ := List.mem_map.mp (List.mem_eraseDups.mp hid)
  obtain ⟨entry, hentry, hresolved⟩ := exists_of_mem_mapM hexports hmem
  exact ⟨entry, hentry, resolveExport_denotes hresolved⟩

theorem Inventory.Denotes.outgoing_iff
    (hdeclared : Inventory.ofGraph graph = .ok inventory)
    (hreferred : inventory.references graph = .ok references)
    (hkeys : graph.PlainKeys) {name key : Key}
    (h : inventory.Denotes name (.symbol key)) (next : EntityId) :
    next ∈ references.outgoing inventory (.symbol key) ↔
      next ≠ .symbol key ∧ inventory.Mentions graph key next := by
  cases h with
  | symbol hroot =>
      obtain ⟨symbol, hsymbol, rfl, halone⟩ := hroot.known
      exact Inventory.mem_outgoing_iff hdeclared hreferred hkeys hsymbol halone next

theorem Inventory.Mentions.denoted {key : Key} {id : EntityId}
    (h : inventory.Mentions graph key id) : ∃ name, inventory.Denotes name id := by
  obtain ⟨_, _, _, _, _, _, _, _, name, _, _, hdenotes⟩ := h
  exact ⟨name, hdenotes⟩

theorem Inventory.Denotes.mem_entityIds {name : Key} {id : EntityId}
    (h : inventory.Denotes name id) : id ∈ inventory.entityIds := by
  obtain ⟨subject, hsubject⟩ := h.known
  exact Inventory.mem_entityIds hsubject

theorem ModuleGraph.Closed.reached
    (hdeclared : Inventory.ofGraph graph = .ok inventory)
    (hreferred : inventory.references graph = .ok references)
    (hexports : graph.exports.mapM (resolveExport inventory) = .ok exported)
    (hkeys : graph.PlainKeys) {reached : Set EntityId}
    (h : graph.Closed inventory reached) :
    ∀ id ∈ reachedIds inventory references exported,
      id ∈ reached ∧ ∃ key, inventory.Denotes key id := by
  refine discover_forall (fun id hid => ?_) ?_
  · obtain ⟨entry, hentry, key, hkey, hdenotes⟩ := resolveExports_denote hexports id hid
    exact ⟨h.exported entry hentry key id hkey hdenotes, key, hdenotes⟩
  · rintro id - ⟨hreached, name, hdenotes⟩ next hnext
    cases id with
    | imported key => cases hnext
    | symbol key =>
        have hmentions :=
          ((hdenotes.outgoing_iff hdeclared hreferred hkeys next).mp hnext).2
        exact ⟨h.mentioned key hreached next hmentions, hmentions.denoted⟩

theorem reachedIds_denoted
    (hdeclared : Inventory.ofGraph graph = .ok inventory)
    (hreferred : inventory.references graph = .ok references)
    (hexports : graph.exports.mapM (resolveExport inventory) = .ok exported)
    (hkeys : graph.PlainKeys) :
    ∀ id ∈ reachedIds inventory references exported, ∃ key, inventory.Denotes key id := by
  have hall : graph.Closed inventory Set.univ :=
    ⟨fun _ _ _ _ _ _ => trivial, fun _ _ _ _ => trivial⟩
  intro id hid
  exact (hall.reached hdeclared hreferred hexports hkeys id hid).2

private theorem closed_reachedIds
    (hdeclared : Inventory.ofGraph graph = .ok inventory)
    (hreferred : inventory.references graph = .ok references)
    (hexports : graph.exports.mapM (resolveExport inventory) = .ok exported)
    (hkeys : graph.PlainKeys) :
    graph.Closed inventory {id | id ∈ reachedIds inventory references exported} := by
  constructor
  · intro entry hentry name id hname hdenotes
    obtain ⟨⟨label, target⟩, hmember, hresolved⟩ :=
      exists_right_of_forall₂ (mapM_eq_ok hexports) hentry
    obtain ⟨key, hkey, htarget⟩ := resolveExport_denotes hresolved
    obtain rfl := Option.some.inj (hname.symm.trans hkey)
    obtain rfl := hdenotes.unique hdeclared hkeys htarget
    refine List.mem_eraseDups.mpr (List.mem_append_left _ ?_)
    exact List.mem_eraseDups.mpr (List.mem_map_of_mem hmember)
  · intro key hkey id hmentions
    by_cases hsame : id = .symbol key
    · exact hsame ▸ hkey
    · obtain ⟨name, hdenotes⟩ :=
        reachedIds_denoted hdeclared hreferred hexports hkeys _ hkey
      obtain ⟨other, hother⟩ := hmentions.denoted
      have hnext := (hdenotes.outgoing_iff hdeclared hreferred hkeys id).mpr
        ⟨hsame, hmentions⟩
      refine discover_closed ?_ hkey hnext hother.mem_entityIds
      intro first hfirst
      obtain ⟨_, _, _, _, hdenoted⟩ := resolveExports_denote hexports first hfirst
      exact hdenoted.mem_entityIds

end Discovered

namespace Surface

variable {graph : ModuleGraph} {router : Router} {surface : Surface}

theorem entities_ids {exported : List (Option Label × EntityId)}
    (h : analyze graph router = .ok surface)
    (hexports : graph.exports.mapM (resolveExport surface.inventory) = .ok exported) :
    (surface.entities.map fun entity => entity.subject.id).Perm
      ((reachedIds surface.inventory surface.references exported).filter
        fun id => (surface.inventory.subject? id).isSome) := by
  obtain ⟨named, itemized, remarked, hsteps⟩ := analyze_steps h
  have hnamed := hsteps.resolved
  rw [Naming.resolveEntities_eq hexports] at hnamed
  have hids := congrArg (List.map fun entity : Entity => entity.subject.id)
    (Naming.nameAll_unnamed hnamed)
  rw [List.map_map, List.map_map] at hids
  rw [reachedIds, ← collectEntities_ids]
  exact ((sortByKey_perm hsteps.sorted).map _).trans (List.Perm.of_eq hids)

theorem entities_nodup (h : analyze graph router = .ok surface) :
    (surface.entities.map fun entity => entity.subject.id).Nodup := by
  obtain ⟨_, _, _, hsteps⟩ := analyze_steps h
  have hresolved := hsteps.resolved
  simp only [resolveEntities, bind_eq_ok] at hresolved
  obtain ⟨exported, hexports, -⟩ := hresolved
  exact (entities_ids h hexports).nodup_iff.mpr ((discover_nodup _ _ _).filter _)

/-- Where the keys of a package have no separator, its entities are the least
set that contains what is exported and what the symbols in it mention. -/
theorem analyze_reaches (h : analyze graph router = .ok surface)
    (hkeys : graph.PlainKeys) :
    (surface.entities.map fun entity => entity.subject.id).Nodup ∧
      IsLeast {reached | graph.Closed surface.inventory reached}
        {id | ∃ entity ∈ surface.entities, entity.subject.id = id} := by
  obtain ⟨named, itemized, remarked, hsteps⟩ := analyze_steps h
  have hresolved := hsteps.resolved
  simp only [resolveEntities, bind_eq_ok] at hresolved
  obtain ⟨exported, hexports, -⟩ := hresolved
  have hperm := entities_ids h hexports
  have hmem : {id | ∃ entity ∈ surface.entities, entity.subject.id = id} =
      {id | id ∈ reachedIds surface.inventory surface.references exported} := by
    ext id
    have hlisted := hperm.mem_iff (a := id)
    rw [List.mem_map, List.mem_filter] at hlisted
    simp only [Set.mem_ofPred_eq, hlisted]
    refine ⟨And.left, fun hid => ⟨hid, ?_⟩⟩
    obtain ⟨key, hdenotes⟩ :=
      reachedIds_denoted hsteps.declared hsteps.referred hexports hkeys id hid
    obtain ⟨subject, hsubject⟩ := hdenotes.known
    simp [hsubject]
  rw [hmem]
  refine ⟨?_, ?_, ?_⟩
  · exact hperm.nodup_iff.mpr ((discover_nodup _ _ _).filter _)
  · exact closed_reachedIds hsteps.declared hsteps.referred hexports hkeys
  · intro reached hclosed id hid
    exact (hclosed.reached hsteps.declared hsteps.referred hexports hkeys id hid).1

/-- An interface with a property, a class that mentions the interface and an
imported thing, and an alias that nothing mentions. -/
def knottedFile : SourceFile where
  path := .text "index.d.ts"
  text := "A x B B A I C".toList
  root := .mk .sourceFile 0 13 0 .null
    [.mk .interfaceDeclaration 0 5 1 .null
      [.mk .identifier 0 1 2 .null [],
      .mk .propertySignature 2 5 3 .null
        [.mk .identifier 2 3 4 .null [], .mk .identifier 4 5 5 .null []]],
    .mk .classDeclaration 6 11 6 .null
      [.mk .identifier 6 7 7 .null [], .mk .identifier 8 9 8 .null [],
      .mk .identifier 10 11 9 .null []],
    .mk .typeAliasDeclaration 12 13 10 .null [.mk .identifier 12 13 11 .null []]]

/-- Only the interface is exported; its property leads on, and from there a
reference to the property leads back. -/
def knottedPackage : ModuleGraph where
  packageName := .text "knot"
  files := [knottedFile]
  symbols := (knottedFile.root.children.zip ["A", "B", "C"]).map fun entry =>
    { key := .text entry.2
      localName := .text entry.2
      declarations := [⟨knottedFile, [knottedFile.root], entry.1⟩] }
  imports := [{ key := .text "I", source :=
    { kind := .named, modulePath := .text "lib", exportName := .text "I" } }]
  bindings := [(5, .text "B"), (8, .text "A#x"), (9, .text "I")]
  exports := [(.text "A", .text "A")]

theorem analyze_reaches_knotted :
    knottedPackage.PlainKeys ∧ ∃ surface, analyze knottedPackage {} = .ok surface ∧
      surface.entities.map (fun entity => entity.subject.id) =
        [.symbol (.text "A"), .symbol (.text "B"), .imported (.text "I")] ∧
      IsLeast {reached | knottedPackage.Closed surface.inventory reached}
        {id | ∃ entity ∈ surface.entities, entity.subject.id = id} := by
  have hkeys : knottedPackage.PlainKeys := by
    intro entry hentry
    obtain ⟨pair, hpair, rfl⟩ := List.mem_map.mp hentry
    refine ⟨pair.2, rfl, ?_⟩
    have hname : pair.2 ∈ ["A", "B", "C"] := List.of_mem_zip hpair |>.2
    simp only [List.mem_cons, List.not_mem_nil, or_false] at hname
    rcases hname with hname | hname | hname <;> rw [hname] <;> decide
  have hrun : (do
      let surface ← analyze knottedPackage {}
      pure (surface.entities.map fun entity : Entity => entity.subject.id)) =
        .ok [.symbol (.text "A"), .symbol (.text "B"), .imported (.text "I")] := by
    cbv
  simp only [bind_eq_ok, pure_eq_ok] at hrun
  obtain ⟨surface, hanalyze, hids⟩ := hrun
  exact ⟨hkeys, surface, hanalyze, hids, (analyze_reaches hanalyze hkeys).2⟩

end Surface

end ApiSurface
