import ApiSurface.Proofs.Emit.Nested
import ApiSurface.Proofs.Surface.Identity
import ApiSurface.Proofs.Surface.Reachable

/-!
# The arena of declarations

The nodes that an entry lists are declared together with every node below them
that declares something.  The numbers of the declarations follow a walk over
these trees.  Parent, members and own nodes of a declaration are then a matter of
where its node stands: the nearest node above that declares something is its
parent, and a node is owned by the nearest declaration at or above it.
-/

namespace ApiSurface

/-! ## Places in a tree -/

namespace Node

/-- A node stands in a tree, below some ancestors, the nearest of them first. -/
inductive Holds (root : Node) : List Node → Node → Prop
  | root : Holds root [] root
  | child {above : List Node} {node child : Node} (inside : Holds root above node)
      (nested : child ∈ node.children) : Holds root (node :: above) child

def nearest? (nodes : List Node) : Option Node :=
  nodes.find? fun node => node.kind.isDeclaration

variable {root node : Node} {above : List Node}

theorem Holds.descend (h : root.Holds above node) :
    above = [] ∧ node = root ∨ ∃ child ∈ root.children, ∃ between,
      child.Holds between node ∧ above = between ++ [root] := by
  induction h with
  | root => exact .inl ⟨rfl, rfl⟩
  | @child above node inner _ nested ih =>
      rcases ih with ⟨rfl, rfl⟩ | ⟨child, hchild, between, hholds, rfl⟩
      · exact .inr ⟨inner, nested, [], .root, rfl⟩
      · exact .inr ⟨child, hchild, node :: between, .child hholds nested, rfl⟩

private theorem mem_ownNodesAll {nodes : List Node} {inner : Node} :
    inner ∈ ownNodesAll nodes ↔
      ∃ node ∈ nodes, node.kind.isDeclaration = false ∧ inner ∈ node.ownNodes := by
  induction nodes with
  | nil => simp [ownNodesAll]
  | cons node rest ih =>
      rw [ownNodesAll, List.mem_append, ih]
      cases hkind : node.kind.isDeclaration <;> simp [hkind]

mutual

theorem mem_ownNodes_child {node child : Node} (hchild : child ∈ node.children)
    (hkind : child.kind.isDeclaration = false) :
    (root : Node) → node ∈ root.ownNodes → child ∈ root.ownNodes
  | .mk kind start stop id label children, h => by
      rw [ownNodes, List.mem_cons] at h ⊢
      rcases h with rfl | h
      · refine .inr (mem_ownNodesAll.mpr ⟨child, hchild, hkind, ?_⟩)
        rw [ownNodes_eq]
        exact List.mem_cons_self
      · exact .inr (mem_ownNodesAll_child hchild hkind children h)

theorem mem_ownNodesAll_child {node child : Node} (hchild : child ∈ node.children)
    (hkind : child.kind.isDeclaration = false) :
    (roots : List Node) → node ∈ ownNodesAll roots → child ∈ ownNodesAll roots
  | [], h => by simp [ownNodesAll] at h
  | root :: rest, h => by
      rw [ownNodesAll, List.mem_append] at h ⊢
      refine h.imp (fun h => ?_) (mem_ownNodesAll_child hchild hkind rest)
      split at h
      · cases h
      · rename_i hroot
        rw [if_neg hroot]
        exact mem_ownNodes_child hchild hkind root h

end

private theorem Holds.mem_ownNodes {outer : Node} (h : root.Holds above node)
    (houter : nearest? (node :: above) = some outer) :
    node ∈ outer.ownNodes ∧ ∃ higher, root.Holds higher outer := by
  -- The recursion follows the chain upwards until it meets a declaration.
  induction h with
  | root =>
      obtain ⟨-, rfl⟩ : root.kind.isDeclaration = true ∧ root = outer := by
        simpa [nearest?] using houter
      rw [ownNodes_eq]
      exact ⟨List.mem_cons_self, [], .root⟩
  | @child above node child hholds hchild ih =>
      rw [nearest?, List.find?_cons] at houter
      cases hkind : child.kind.isDeclaration with
      | true =>
          obtain rfl : child = outer := by simpa [hkind] using houter
          rw [ownNodes_eq]
          exact ⟨List.mem_cons_self, node :: above, .child hholds hchild⟩
      | false =>
          obtain ⟨hown, hhigher⟩ := ih (by simpa [nearest?, hkind] using houter)
          exact ⟨mem_ownNodes_child hchild hkind outer hown, hhigher⟩

private theorem Holds.nearest?_isSome (h : root.Holds above node)
    (hroot : root.kind.isDeclaration = true) :
    (nearest? (node :: above)).isSome = true := by
  rw [nearest?, List.find?_isSome]
  rcases h.descend with ⟨rfl, rfl⟩ | ⟨_, _, between, _, rfl⟩
  · exact ⟨node, by simp, hroot⟩
  · exact ⟨root, by simp, hroot⟩

/-! ## Subtrees -/

mutual

theorem walk_sublist {inner : Node} :
    (root : Node) → inner ∈ root.walk → inner.walk.Sublist root.walk
  | .mk kind start stop id label children, h => by
      rw [walk_eq, List.mem_cons] at h
      rcases h with rfl | h
      · exact .refl _
      · exact (walkAll_sublist children h).cons _

theorem walkAll_sublist {inner : Node} :
    (roots : List Node) → inner ∈ walkAll roots → inner.walk.Sublist (walkAll roots)
  | [], h => by simp [walkAll] at h
  | root :: rest, h => by
      rw [walkAll, List.mem_append] at h
      rcases h with h | h
      · exact (walk_sublist root h).trans (List.sublist_append_left _ _)
      · exact (walkAll_sublist rest h).trans (List.sublist_append_right _ _)

end

mutual

private theorem nested_of_common {one other node node' : Node} (hnode : node ∈ one.walk)
    (hnode' : node' ∈ other.walk) (hid : node.id = node'.id) :
    (root : Node) → (root.walk.map Node.id).Nodup → one ∈ root.walk → other ∈ root.walk →
      one ∈ other.walk ∨ other ∈ one.walk
  | .mk kind start stop id label children, hdistinct, hone, hother => by
      rcases List.mem_cons.mp hone with rfl | hone'
      · exact .inr hother
      rcases List.mem_cons.mp hother with rfl | hother'
      · exact .inl hone
      · exact nested_of_common_all hnode hnode' hid children hdistinct.of_cons hone' hother'

theorem nested_of_common_all {one other node node' : Node} (hnode : node ∈ one.walk)
    (hnode' : node' ∈ other.walk) (hid : node.id = node'.id) :
    (roots : List Node) → ((walkAll roots).map Node.id).Nodup → one ∈ walkAll roots →
      other ∈ walkAll roots → one ∈ other.walk ∨ other ∈ one.walk
  | [], _, hone, _ => by simp [walkAll] at hone
  | root :: rest, hdistinct, hone, hother => by
      rw [walkAll, List.map_append, List.nodup_append] at hdistinct
      obtain ⟨hfirst, hrest, hapart⟩ := hdistinct
      rw [walkAll, List.mem_append] at hone hother
      rcases hone with hone | hone <;> rcases hother with hother | hother
      · exact nested_of_common hnode hnode' hid root hfirst hone hother
      · exact absurd hid (hapart _ (List.mem_map_of_mem ((walk_sublist root hone).subset hnode))
          _ (List.mem_map_of_mem ((walkAll_sublist rest hother).subset hnode')))
      · exact absurd hid.symm
          (hapart _ (List.mem_map_of_mem ((walk_sublist root hother).subset hnode'))
          _ (List.mem_map_of_mem ((walkAll_sublist rest hone).subset hnode)))
      · exact nested_of_common_all hnode hnode' hid rest hrest hone hother

end

end Node

/-! ## Declarations and their nodes -/

theorem filter_eq_of_sublist {α : Type} {some all : List α} {test : α → Bool}
    (hsublist : some.Sublist all) (hdistinct : all.Nodup)
    (htest : ∀ value ∈ all, test value = true ↔ value ∈ some) : all.filter test = some := by
  induction hsublist with
  | slnil => rfl
  | @cons some all first hsublist ih =>
      obtain ⟨hfirst, hrest⟩ := List.nodup_cons.mp hdistinct
      obtain ⟨hnot, hothers⟩ := List.forall_mem_cons.mp htest
      have hleft : first ∉ some := fun hmem => hfirst (hsublist.subset hmem)
      rw [List.filter_cons_of_neg (by rwa [hnot]), ih hrest hothers]
  | @cons_cons some all first hsublist ih =>
      obtain ⟨hfirst, hrest⟩ := List.nodup_cons.mp hdistinct
      obtain ⟨hchosen, hothers⟩ := List.forall_mem_cons.mp htest
      rw [List.filter_cons_of_pos (hchosen.mpr List.mem_cons_self), ih hrest]
      intro value hvalue
      have hne : value ≠ first := fun h => hfirst (h ▸ hvalue)
      rw [hothers value hvalue, List.mem_cons, or_iff_right hne]

namespace Declaration

theorem sublist_walkAll (declarations : List Declaration) :
    declarations.Sublist (walkAll declarations) := by
  induction declarations with
  | nil => exact .slnil
  | cons declaration rest ih =>
      rw [walkAll, walk_eq, List.cons_append]
      exact (ih.trans (List.sublist_append_right _ _)).cons_cons _

theorem ParentsFirst.lt {known : List Nat} {declarations : List Declaration}
    (h : ParentsFirst known declarations)
    (hsorted : (declarations.map id).Pairwise (· < ·))
    (hknown : ∀ number ∈ known, ∀ declaration ∈ declarations, number < declaration.id)
    {declaration : Declaration} (hdeclaration : declaration ∈ declarations) {parent : Nat}
    (hparent : declaration.parent = some parent) : parent < declaration.id := by
  induction declarations generalizing known with
  | nil => cases hdeclaration
  | cons first rest ih =>
      rw [List.map_cons, List.pairwise_cons] at hsorted
      rcases List.mem_cons.mp hdeclaration with rfl | hrest
      · exact hknown parent (h.1 parent hparent) declaration List.mem_cons_self
      · refine ih h.2 hsorted.2 (List.forall_mem_cons.mpr ⟨?_, ?_⟩) hrest
        · exact fun other hother => hsorted.1 other.id (List.mem_map_of_mem hother)
        · exact fun number hnumber other hother =>
            hknown number hnumber other (List.mem_cons_of_mem first hother)

/-- A declaration whose node has some nodes above it stands under the nearest of them
that is declared, or, if none is, under what is given from outside. -/
def Under (declarations : List Declaration) (parent : Option Nat) (above : List Node)
    (declaration : Declaration) : Prop :=
  Node.nearest? above = none ∧ declaration.parent = parent ∨
    ∃ outer ∈ declarations, Node.nearest? above = some outer.node ∧
      declaration.parent = some outer.id

/-- Every node of a tree that declares something is the node of one of some
declarations, which stands under the nearest one above it. -/
def Cover (declarations : List Declaration) (parent : Option Nat) (root : Node) : Prop :=
  ∀ above node, root.Holds above node → node.kind.isDeclaration = true →
    ∃ declaration ∈ declarations, declaration.node = node ∧
      Under declarations parent above declaration

theorem Cover.mono {declarations more : List Declaration} {parent : Option Nat} {root : Node}
    (h : Cover declarations parent root) (hmore : declarations ⊆ more) :
    Cover more parent root := by
  intro above node hholds hkind
  obtain ⟨declaration, hdeclaration, hnode, hunder⟩ := h above node hholds hkind
  refine ⟨declaration, hmore hdeclaration, hnode, hunder.imp_right ?_⟩
  exact fun ⟨outer, houter, hnearest⟩ => ⟨outer, hmore houter, hnearest⟩

theorem Cover.through {declarations : List Declaration} {parent : Option Nat} {root : Node}
    (h : ∀ child ∈ root.children, Cover declarations parent child)
    (hroot : root.kind.isDeclaration = false) : Cover declarations parent root := by
  intro above node hholds hkind
  rcases hholds.descend with ⟨rfl, rfl⟩ | ⟨child, hchild, between, hinside, rfl⟩
  · exact absurd hkind (by simp [hroot])
  · have hsame : Node.nearest? (between ++ [root]) = Node.nearest? between := by
      simp [Node.nearest?, List.find?_append, hroot]
    simp only [Under, hsame]
    exact h child hchild between node hinside hkind

theorem Cover.outer {outer : Declaration}
    (h : ∀ child ∈ outer.node.children, Cover (walkAll outer.members) (some outer.id) child)
    (houter : outer.node.kind.isDeclaration = true) :
    Cover outer.walk outer.parent outer.node := by
  intro above node hholds hkind
  rcases hholds.descend with ⟨rfl, rfl⟩ | ⟨child, hchild, between, hinside, rfl⟩
  · exact ⟨outer, mem_walk_self outer, rfl, .inl ⟨rfl, rfl⟩⟩
  obtain ⟨declaration, hdeclaration, hnode, hunder⟩ := h child hchild between node hinside hkind
  rw [walk_eq]
  refine ⟨declaration, List.mem_cons_of_mem _ hdeclaration, hnode, .inr ?_⟩
  rcases hunder with ⟨hnone, hparent⟩ | ⟨inner, hinner, hnearest, hparent⟩
  · refine ⟨outer, List.mem_cons_self, ?_, hparent⟩
    rw [Node.nearest?] at hnone ⊢
    simp [List.find?_append, hnone, houter]
  · refine ⟨inner, List.mem_cons_of_mem _ hinner, ?_, hparent⟩
    rw [Node.nearest?] at hnearest ⊢
    rw [List.find?_append, hnearest, Option.some_or]

end Declaration

namespace SymbolTable

open Declaration (walkAll Cover)

variable {symbols : List Symbol} {file : SourceFile} {ancestors nodes : List Node}
  {owner symbol : Symbol} {number : Nat} {declarations : List Declaration}

theorem Members.map_node
    (h : Members symbols file ancestors owner number nodes declarations) :
    (walkAll declarations).map Declaration.node =
      (Node.walkAll nodes).filter fun node => node.kind.isDeclaration := by
  induction h with
  | nil => rfl
  | declared declares _ _ _ _ _ ihbelow ihafter =>
      rw [walkAll, Declaration.walk, Node.walkAll, Node.walk_eq, List.map_append, List.map_cons,
        List.filter_append, List.filter_cons, if_pos declares, ihbelow, ihafter,
        Declaration.node, Declaration.site]
  | through transparent _ _ ihbelow ihafter =>
      rw [Declaration.walkAll_append, Node.walkAll, Node.walk_eq, List.map_append,
        List.filter_append, List.filter_cons_of_neg (by simp [transparent]), ihbelow, ihafter]

theorem Declares.map_node {parent : Option Nat} {site : Site} {declaration : Declaration}
    (h : Declares symbols symbol parent site declaration) :
    declaration.walk.map Declaration.node =
      site.node.walk.filter fun node => node.kind.isDeclaration := by
  obtain ⟨declares, below⟩ := h
  rw [Declaration.walk, Node.walk_eq, List.map_cons, List.filter_cons, if_pos declares,
    below.map_node, Declaration.node, Declaration.site]

theorem Members.cover
    (h : Members symbols file ancestors owner number nodes declarations) :
    ∀ root ∈ nodes, Cover (walkAll declarations) (some number) root := by
  induction h with
  | nil => simp
  | declared declares _ _ _ _ _ ihbelow ihafter =>
      rw [walkAll]
      refine List.forall_mem_cons.mpr ⟨?_, fun root hroot => ?_⟩
      · refine Cover.mono ?_ (List.subset_append_left _ _)
        exact Cover.outer ihbelow declares
      · exact (ihafter root hroot).mono (List.subset_append_right _ _)
  | through transparent _ _ ihbelow ihafter =>
      rw [Declaration.walkAll_append]
      refine List.forall_mem_cons.mpr ⟨?_, fun root hroot => ?_⟩
      · exact (Cover.through ihbelow transparent).mono (List.subset_append_left _ _)
      · exact (ihafter root hroot).mono (List.subset_append_right _ _)

theorem Declares.cover {parent : Option Nat} {site : Site} {declaration : Declaration}
    (h : Declares symbols symbol parent site declaration) :
    Cover declaration.walk parent site.node := by
  obtain ⟨declares, below⟩ := h
  exact Cover.outer below.cover declares

end SymbolTable

/-! ## The arena of a package -/

def ModuleGraph.sites (graph : ModuleGraph) : List Site :=
  graph.symbols.flatMap SymbolEntry.declarations

/-- What the entries list stands in trees whose nodes have ids of their own. -/
def ModuleGraph.Planted (graph : ModuleGraph) : Prop :=
  ∃ roots : List Node, ((Node.walkAll roots).map Node.id).Nodup ∧
    ∀ site ∈ graph.sites, site.node ∈ Node.walkAll roots

/-- How the declarations of a package lie over the trees that its entries list. -/
structure Inventory.Arena (graph : ModuleGraph) (inventory : Inventory) : Prop where
  /-- Declarations are numbered from one on. -/
  numbered : inventory.allDeclarations.map Declaration.id =
    List.range' 1 inventory.allDeclarations.length
  /-- They are at the nodes of the trees that declare something, tree after tree. -/
  nodes : inventory.allDeclarations.map Declaration.node =
    graph.sites.flatMap fun site => site.node.walk.filter fun node => node.kind.isDeclaration
  once : (inventory.allDeclarations.map fun declaration => declaration.node.id).Nodup
  /-- The parent is at the nearest node above that declares something. -/
  nested : ∀ site ∈ graph.sites, ∀ above node, site.node.Holds above node →
    node.kind.isDeclaration = true → ∃ declaration,
      inventory.declarationAt? node = some declaration ∧ declaration.node = node ∧
      declaration.parent =
        ((Node.nearest? above).bind inventory.declarationAt?).map Declaration.id ∧
      (declaration.parent = none ↔ above = [])
  earlier : ∀ declaration ∈ inventory.allDeclarations, ∀ parent,
    declaration.parent = some parent → parent < declaration.id ∧
      ∃ owner ∈ inventory.allDeclarations, owner.id = parent
  /-- The members have the declaration as their parent, in the order of their numbers
  and in that of their nodes. -/
  members : ∀ declaration ∈ inventory.allDeclarations,
    declaration.members =
      inventory.allDeclarations.filter (fun member => member.parent = some declaration.id) ∧
    (declaration.members.map Declaration.id).Pairwise (· < ·) ∧
    (declaration.members.map Declaration.node).Sublist (Node.walkAll declaration.node.children)
  /-- Walking over the declarations without a parent meets all of them by their numbers. -/
  walked : Declaration.walkAll (inventory.allDeclarations.filter fun declaration =>
    declaration.parent.isNone) = inventory.allDeclarations
  /-- The own nodes of the declarations are the nodes of the trees, each of them once. -/
  shared : (inventory.allDeclarations.flatMap fun declaration => declaration.node.ownNodes).Perm
    (graph.sites.flatMap fun site => site.node.walk)
  /-- A node is owned by the nearest declaration at or above it. -/
  owned : ∀ site ∈ graph.sites, ∀ above node, site.node.Holds above node → ∃ declaration,
    (Node.nearest? (node :: above)).bind inventory.declarationAt? = some declaration ∧
      node ∈ declaration.node.ownNodes
  /-- No two declarations own a node with the same id. -/
  apart : graph.Planted → ∀ one ∈ inventory.allDeclarations,
    ∀ other ∈ inventory.allDeclarations, ∀ node ∈ one.node.ownNodes,
    ∀ node' ∈ other.node.ownNodes, node.id = node'.id → one = other

namespace Inventory

open SymbolTable
open Declaration (Cover ParentsFirst walkAll)

variable {graph : ModuleGraph} {inventory : Inventory}

theorem Forest.declares_sites (h : inventory.Forest graph) :
    List.Forall₂ (fun site declaration =>
      ∃ symbol, Declares inventory.symbols symbol none site declaration)
      graph.sites inventory.declarations := by
  obtain ⟨groups, hgroups, hentries⟩ := h.sites
  rw [hgroups, ModuleGraph.sites, List.flatMap_def]
  refine List.rel_flatten (List.forall₂_map_left_iff.mpr (hentries.imp ?_))
  rintro entry group ⟨label, -, -, hsites⟩
  exact hsites.imp fun _ _ hdeclares => ⟨_, hdeclares⟩

theorem Forest.map_node (h : inventory.Forest graph) :
    inventory.allDeclarations.map Declaration.node = graph.sites.flatMap fun site =>
      site.node.walk.filter fun node => node.kind.isDeclaration := by
  have hsites := h.declares_sites
  rw [allDeclarations]
  generalize graph.sites = sites, inventory.declarations = declarations at hsites ⊢
  induction hsites with
  | nil => rfl
  | cons hfirst _ ih =>
      obtain ⟨symbol, hdeclares⟩ := hfirst
      rw [walkAll, List.map_append, List.flatMap_cons, hdeclares.map_node, ih]

theorem Forest.ownNodes_perm (h : inventory.Forest graph) :
    (inventory.allDeclarations.flatMap fun declaration => declaration.node.ownNodes).Perm
      (graph.sites.flatMap fun site => site.node.walk) := by
  have hsites := h.declares_sites
  rw [allDeclarations]
  generalize graph.sites = sites, inventory.declarations = declarations at hsites ⊢
  induction hsites with
  | nil => exact .nil
  | cons hfirst _ ih =>
      obtain ⟨symbol, hdeclares⟩ := hfirst
      rw [walkAll, List.flatMap_append, List.flatMap_cons]
      exact hdeclares.walk_perm.symm.append ih

variable {site : Site} {declaration : Declaration} {node : Node}

theorem Forest.cover (h : inventory.Forest graph) (hsite : site ∈ graph.sites) :
    Cover inventory.allDeclarations none site.node ∧
      site.node.kind.isDeclaration = true := by
  obtain ⟨outer, houter, symbol, hdeclares⟩ := exists_right_of_forall₂ h.declares_sites hsite
  refine ⟨hdeclares.cover.mono fun declaration hdeclaration => ?_, ?_⟩
  · exact Declaration.mem_walkAll.mpr ⟨outer, houter, hdeclaration⟩
  · obtain ⟨declares, -⟩ := hdeclares
    exact declares

theorem Forest.declarationAt?_node (h : inventory.Forest graph)
    (hdeclaration : declaration ∈ inventory.allDeclarations) :
    inventory.declarationAt? declaration.node = some declaration :=
  find?_key h.distinct hdeclaration

theorem Forest.exists_nested (h : inventory.Forest graph) (hsite : site ∈ graph.sites)
    {above : List Node} (hholds : site.node.Holds above node)
    (hkind : node.kind.isDeclaration = true) :
    ∃ declaration, inventory.declarationAt? node = some declaration ∧
      declaration.node = node ∧
      declaration.parent =
        ((Node.nearest? above).bind inventory.declarationAt?).map Declaration.id ∧
      (declaration.parent = none ↔ above = []) := by
  obtain ⟨hcover, hroot⟩ := h.cover hsite
  obtain ⟨declaration, hdeclaration, rfl, hunder⟩ := hcover above node hholds hkind
  refine ⟨declaration, h.declarationAt?_node hdeclaration, rfl, ?_⟩
  rcases hunder with ⟨hnone, hparent⟩ | ⟨outer, houter, hnearest, hparent⟩
  · refine ⟨by simp [hnone, hparent], fun _ => ?_, fun _ => hparent⟩
    -- The root of the tree declares something, so only it has nothing above.
    rcases hholds.descend with ⟨rfl, -⟩ | ⟨_, _, between, _, rfl⟩
    · rfl
    · have hlast := List.find?_eq_none.mp hnone site.node (by simp)
      exact absurd hroot hlast
  · refine ⟨?_, fun hnone => ?_, ?_⟩
    · rw [hnearest, Option.bind_some, h.declarationAt?_node houter, hparent]
      rfl
    · rw [hparent] at hnone
      cases hnone
    · rintro rfl
      cases hnearest

theorem Forest.exists_owner (h : inventory.Forest graph) (hsite : site ∈ graph.sites)
    {above : List Node} (hholds : site.node.Holds above node) :
    ∃ declaration,
      (Node.nearest? (node :: above)).bind inventory.declarationAt? = some declaration ∧
        node ∈ declaration.node.ownNodes := by
  obtain ⟨outer, houter⟩ :=
    Option.isSome_iff_exists.mp (hholds.nearest?_isSome (h.cover hsite).2)
  obtain ⟨hown, higher, hhigher⟩ := hholds.mem_ownNodes houter
  have hkind : outer.kind.isDeclaration = true := by
    rw [Node.nearest?] at houter
    simpa using List.find?_some houter
  obtain ⟨declaration, hfound, rfl, -⟩ := h.exists_nested hsite hhigher hkind
  exact ⟨declaration, by rw [houter, Option.bind_some, hfound], hown⟩

private theorem Forest.walk_nodup (h : inventory.Forest graph) (hplanted : graph.Planted) :
    (graph.sites.flatMap fun site => site.node.walk.map Node.id).Nodup := by
  obtain ⟨roots, hdistinct, hroots⟩ := hplanted
  have honce : ((inventory.allDeclarations.map Declaration.node).map Node.id).Nodup := by
    rw [List.map_map]
    exact h.distinct
  rw [h.map_node, List.map_flatMap, List.nodup_flatMap] at honce
  refine List.nodup_flatMap.mpr ⟨fun site hsite => ?_, ?_⟩
  · exact hdistinct.sublist ((Node.walkAll_sublist roots (hroots site hsite)).map Node.id)
  refine honce.2.imp_of_mem fun {one other} hone hother hapart => ?_
  have hlisted : ∀ site ∈ graph.sites, ∀ {outer : Node}, site.node ∈ outer.walk →
      site.node.id ∈ (outer.walk.filter fun node => node.kind.isDeclaration).map Node.id :=
    fun site hsite outer hinside =>
      List.mem_map_of_mem (List.mem_filter.mpr ⟨hinside, (h.cover hsite).2⟩)
  intro id hid hid'
  obtain ⟨node, hnode, rfl⟩ := List.mem_map.mp hid
  obtain ⟨node', hnode', hsame⟩ := List.mem_map.mp hid'
  rcases Node.nested_of_common_all hnode hnode' hsame.symm roots hdistinct
    (hroots one hone) (hroots other hother) with hinside | hinside
  · exact hapart (hlisted one hone (Node.mem_walk_self _)) (hlisted one hone hinside)
  · exact hapart (hlisted other hother hinside) (hlisted other hother (Node.mem_walk_self _))

private theorem Forest.owner_unique (h : inventory.Forest graph) (hplanted : graph.Planted)
    {one other : Declaration} (hone : one ∈ inventory.allDeclarations)
    (hother : other ∈ inventory.allDeclarations) {node' : Node}
    (hnode : node ∈ one.node.ownNodes) (hnode' : node' ∈ other.node.ownNodes)
    (hid : node.id = node'.id) : one = other := by
  have hnodup : (inventory.allDeclarations.flatMap fun declaration =>
      declaration.node.ownNodes.map Node.id).Nodup := by
    have hwalks := h.walk_nodup hplanted
    rw [← List.map_flatMap] at hwalks ⊢
    exact (h.ownNodes_perm.map Node.id).nodup_iff.mpr hwalks
  have hsymm : Std.Symm (Function.onFun List.Disjoint fun declaration : Declaration =>
      declaration.node.ownNodes.map Node.id) := ⟨fun _ _ h => h.symm⟩
  by_contra hne
  have hapart := (List.nodup_flatMap.mp hnodup).2.forall hone hother hne
  exact hapart (List.mem_map_of_mem hnode) (hid ▸ List.mem_map_of_mem hnode')

/-! ## Parents and members -/

theorem ids_increase (hdeclared : ofGraph graph = .ok inventory) :
    (inventory.allDeclarations.map Declaration.id).Pairwise (· < ·) := by
  rw [ids_eq_range hdeclared]
  exact List.pairwise_lt_range'

theorem allDeclarations_nodup (hdeclared : ofGraph graph = .ok inventory) :
    inventory.allDeclarations.Nodup :=
  (ids_nodup hdeclared).of_map

private theorem parent_eq_none_iff (hdeclared : ofGraph graph = .ok inventory)
    (hdeclaration : declaration ∈ inventory.allDeclarations) :
    declaration.parent = none ↔ declaration ∈ inventory.declarations := by
  constructor
  · intro hparent
    obtain ⟨outer, houter, line, hline⟩ :=
      Declaration.exists_descends_of_walkAll _ hdeclaration
    rcases hline.last ((Declaration.sublist_walkAll _).subset houter) with
      rfl | ⟨owner, howner, hmember⟩
    · exact houter
    · cases hparent.symm.trans (nests hdeclared howner hmember).parent
  · intro houter
    obtain ⟨_, -, _, -, -, _, -, ⟨-, -⟩⟩ := (ofGraph_forest hdeclared).exists_site houter
    rfl

private theorem filter_outermost (hdeclared : ofGraph graph = .ok inventory) :
    (inventory.allDeclarations.filter fun declaration => declaration.parent.isNone) =
      inventory.declarations := by
  refine filter_eq_of_sublist (Declaration.sublist_walkAll _)
    (allDeclarations_nodup hdeclared) fun declaration hdeclaration => ?_
  rw [Option.isNone_iff_eq_none, parent_eq_none_iff hdeclared hdeclaration]

theorem members_sublist (hdeclaration : declaration ∈ inventory.allDeclarations) :
    declaration.members.Sublist inventory.allDeclarations := by
  refine .trans ?_ (Declaration.walkAll_sublist _ hdeclaration)
  rw [Declaration.walk_eq]
  exact (Declaration.sublist_walkAll _).cons _

private theorem members_eq_filter (hdeclared : ofGraph graph = .ok inventory)
    (hdeclaration : declaration ∈ inventory.allDeclarations) :
    declaration.members =
      inventory.allDeclarations.filter fun member => member.parent = some declaration.id := by
  refine (filter_eq_of_sublist (members_sublist hdeclaration)
    (allDeclarations_nodup hdeclared) fun member hmember => ?_).symm
  rw [decide_eq_true_iff]
  exact ⟨mem_members hdeclared hmember hdeclaration,
    fun hnested => (nests hdeclared hdeclaration hnested).parent⟩

private theorem map_node_members_sublist (hdeclared : ofGraph graph = .ok inventory)
    (hdeclaration : declaration ∈ inventory.allDeclarations) :
    (declaration.members.map Declaration.node).Sublist
      (Node.walkAll declaration.node.children) := by
  obtain ⟨-, _, _, _, _, hmembers⟩ := (ofGraph_forest hdeclared).nested hdeclaration
  have hnodes := (Declaration.sublist_walkAll declaration.members).map Declaration.node
  rw [hmembers.map_node] at hnodes
  exact hnodes.trans List.filter_sublist

/-- The declarations of every package lie over its trees in this way. -/
theorem ofGraph_arena (hdeclared : ofGraph graph = .ok inventory) : inventory.Arena graph where
  numbered := ids_eq_range hdeclared
  nodes := (ofGraph_forest hdeclared).map_node
  once := (ofGraph_forest hdeclared).distinct
  nested := fun _ hsite _ _ => (ofGraph_forest hdeclared).exists_nested hsite
  earlier := fun _ hdeclaration _ hparent =>
    ⟨(ofGraph_forest hdeclared).parentsFirst.lt (ids_increase hdeclared) (by simp) hdeclaration
      hparent, exists_parent_declaration hdeclared hdeclaration hparent⟩
  members := fun _ hdeclaration => ⟨members_eq_filter hdeclared hdeclaration,
    (ids_increase hdeclared).sublist ((members_sublist hdeclaration).map Declaration.id),
    map_node_members_sublist hdeclared hdeclaration⟩
  walked := by rw [filter_outermost hdeclared, allDeclarations]
  shared := (ofGraph_forest hdeclared).ownNodes_perm
  owned := fun _ hsite _ _ => (ofGraph_forest hdeclared).exists_owner hsite
  apart := fun hplanted _ hone _ hother _ hnode _ hnode' =>
    (ofGraph_forest hdeclared).owner_unique hplanted hone hother hnode hnode'

/-- A namespace with a class inside of its block, and a function. -/
def nestedFile : SourceFile where
  path := .text "index.d.ts"
  text := "N{C{x}}f".toList
  root := .mk .sourceFile 0 8 0 .null
    [.mk .moduleDeclaration 0 7 1 .null
      [.mk .identifier 0 1 2 .null [],
      .mk .moduleBlock 1 7 3 .null
        [.mk .classDeclaration 2 6 4 .null
          [.mk .identifier 2 3 5 .null [],
          .mk .propertyDeclaration 4 5 6 .null [.mk .identifier 4 5 7 .null []]]]],
    .mk .functionDeclaration 7 8 8 .null [.mk .identifier 7 8 9 .null []]]

def nestedPackage : ModuleGraph where
  packageName := .text "nested"
  files := [nestedFile]
  symbols := [("f", 8), ("N", 1)].map fun (name, id) =>
    { key := .text name
      localName := .text name
      declarations := (nestedFile.root.children.filter fun node => node.id = id).map
        fun node => ⟨nestedFile, [nestedFile.root], node⟩ }

theorem ofGraph_arena_nested :
    nestedPackage.Planted ∧ ∃ inventory, ofGraph nestedPackage = .ok inventory ∧
      (inventory.allDeclarations.map fun declaration =>
        (declaration.id, declaration.node.id, declaration.parent)) =
          [(1, 8, none), (2, 1, none), (3, 4, some 2), (4, 6, some 3)] ∧
      inventory.Arena nestedPackage := by
  have hrun : (do
      let inventory ← ofGraph nestedPackage
      pure (inventory.allDeclarations.map fun declaration : Declaration =>
        (declaration.id, declaration.node.id, declaration.parent))) =
      .ok [(1, 8, none), (2, 1, none), (3, 4, some 2), (4, 6, some 3)] := by
    cbv
  simp only [bind_eq_ok, pure_eq_ok] at hrun
  obtain ⟨inventory, hdeclared, hlisted⟩ := hrun
  refine ⟨⟨[nestedFile.root], by decide, fun site hsite => ?_⟩, inventory, hdeclared, hlisted,
    ofGraph_arena hdeclared⟩
  obtain ⟨entry, hentry, hsite⟩ := List.mem_flatMap.mp hsite
  obtain ⟨_, -, rfl⟩ := List.mem_map.mp hentry
  obtain ⟨node, hnode, rfl⟩ := List.mem_map.mp hsite
  exact Node.mem_walkAll.mpr ⟨nestedFile.root, List.mem_cons_self,
    Node.mem_walk_of_mem_children (List.mem_of_mem_filter hnode) (Node.mem_walk_self node)⟩

end Inventory

end ApiSurface
