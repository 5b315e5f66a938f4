import ApiSurface.Proofs.Emit.Way
import ApiSurface.Proofs.Overlay.Division
import ApiSurface.Proofs.Surface.Forest

/-!
# Addresses of nested declarations

The span of a declaration has the shape of its node.  The members of a declaration
stand at the nearest nodes below it that declare something, so that every nested
declaration is at the end of a way.
-/

namespace ApiSurface

/-! ## Spans of nodes -/

namespace Span

def OfNode (source : Text) (span : Span) : Prop :=
  ∃ gap, span = layoutWith source gap span.node

variable {source gap : Text} {span : Span}

theorem ofNode_layoutWith (node : Node) : OfNode source (layoutWith source gap node) :=
  ⟨gap, by rw [node_layoutWith]⟩

theorem ofNode_of_mem_layoutAllWith : ∀ nodes : List Node,
    span ∈ layoutAllWith source gap nodes → OfNode source span
  | [], h => by cases h
  | [last], h => by
      obtain rfl := List.mem_singleton.mp h
      exact ofNode_layoutWith last
  | first :: second :: rest, h => by
      rw [layoutAllWith] at h
      rcases List.mem_cons.mp h with rfl | h
      · exact ofNode_layoutWith first
      · exact ofNode_of_mem_layoutAllWith (second :: rest) h

theorem OfNode.children (h : OfNode source span) :
    span.children.map Span.node = span.node.children ∧
      ∀ child ∈ span.children, OfNode source child := by
  obtain ⟨gap, hspan⟩ := h
  have hchildren : (layoutWith source gap span.node).children = _ :=
    children_layoutWith span.node
  rw [← hspan] at hchildren
  rw [hchildren]
  exact ⟨map_node_layoutAllWith _, fun child => ofNode_of_mem_layoutAllWith _⟩

theorem OfNode.descendant {inner : Span} {path : Path} (h : OfNode source span)
    (hinner : span.descendant? path = some inner) : OfNode source inner := by
  induction path generalizing span with
  | nil =>
      cases hinner
      exact h
  | cons index rest ih =>
      obtain ⟨child, hchild, hinner⟩ := Option.bind_eq_some_iff.mp hinner
      exact ih (h.children.2 child (List.mem_of_getElem? hchild)) hinner

theorem OfNode.exists_address (h : OfNode source span) :
    ∀ node ∈ span.node.walk, ∃ path target,
      span.descendant? path = some target ∧ target.node = node := by
  induction span using inductionOnChildren with
  | step span ih =>
      intro node hnode
      rw [Node.walk_eq, List.mem_cons] at hnode
      rcases hnode with rfl | hnode
      · exact ⟨[], span, rfl, rfl⟩
      · obtain ⟨hnodes, hspans⟩ := h.children
        obtain ⟨below, hbelow, hnode⟩ := Node.mem_walkAll.mp hnode
        rw [← hnodes] at hbelow
        obtain ⟨child, hchild, rfl⟩ := List.mem_map.mp hbelow
        obtain ⟨path, target, hpath, htarget⟩ :=
          ih child hchild (hspans child hchild) node hnode
        obtain ⟨index, hindex⟩ := List.getElem?_of_mem hchild
        exact ⟨index :: path, target, by rwa [descendant?_cons hindex], htarget⟩

theorem OfNode.leaf (h : OfNode source span) (hleaf : span.node.children = []) :
    span.children = [] ∧ span.lead = span.node.text source ∧ span.tail = [] := by
  obtain ⟨gap, hspan⟩ := h
  generalize span.node = node at hspan hleaf ⊢
  subst hspan
  cases node with
  | mk kind start stop id label children =>
      obtain rfl : children = [] := hleaf
      exact ⟨rfl, rfl, rfl⟩

theorem ofNode_spec {node : Node} (h : Span.ofNode source node = .ok span) :
    OfNode source span ∧ span.node = node := by
  simp only [ofNode, bind_eq_ok, pure_eq_ok] at h
  obtain ⟨_, _, rfl⟩ := h
  rw [(layout_eq source node).1, node_layoutWith]
  exact ⟨ofNode_layoutWith node, rfl⟩

end Span

/-! ## Nested declarations -/

namespace SymbolTable

variable {symbols : List Symbol} {file : SourceFile} {ancestors nodes : List Node}
  {owner symbol : Symbol} {number : Nat} {declarations : List Declaration}

/-- A declaration stands at a node that declares something, and its members at the
nodes below that one. -/
def Nested (symbols : List Symbol) (declaration : Declaration) : Prop :=
  declaration.node.kind.isDeclaration = true ∧ ∃ file ancestors owner number,
    Members symbols file ancestors owner number declaration.node.children
      declaration.members

theorem Members.nested
    (h : Members symbols file ancestors owner number nodes declarations) :
    ∀ inner ∈ Declaration.walkAll declarations, Nested symbols inner := by
  induction h with
  | nil => simp [Declaration.walkAll]
  | declared declares _ _ _ below _ ihbelow ihafter =>
      intro inner hinner
      rw [Declaration.walkAll, List.mem_append, Declaration.walk_eq, List.mem_cons] at hinner
      rcases hinner with (rfl | hinner) | hinner
      · exact ⟨declares, _, _, _, _, below⟩
      · exact ihbelow inner hinner
      · exact ihafter inner hinner
  | through _ _ _ ihbelow ihafter =>
      intro inner hinner
      rw [Declaration.walkAll_append, List.mem_append] at hinner
      exact hinner.elim (ihbelow inner) (ihafter inner)

theorem Members.of_mem {node : Node}
    (h : Members symbols file ancestors owner number nodes declarations)
    (hnode : node ∈ nodes) :
    (node.kind.isDeclaration = true ∧ ∃ member ∈ declarations, member.node = node) ∨
      node.kind.isDeclaration = false ∧ ∃ above inner,
        Members symbols file above owner number node.children inner ∧
          inner ⊆ declarations := by
  induction h with
  | nil => cases hnode
  | declared declares _ _ _ _ _ _ ihafter =>
      rcases List.mem_cons.mp hnode with rfl | hnode
      · exact .inl ⟨declares, _, .head _, rfl⟩
      · rcases ihafter hnode with ⟨hdeclares, member, hmember, hsame⟩ |
          ⟨htransparent, above, inner, hinner, hsubset⟩
        · exact .inl ⟨hdeclares, member, .tail _ hmember, hsame⟩
        · exact .inr ⟨htransparent, above, inner, hinner,
            List.subset_cons_of_subset _ hsubset⟩
  | through transparent below _ _ ihafter =>
      rcases List.mem_cons.mp hnode with rfl | hnode
      · exact .inr ⟨transparent, _, _, below, List.subset_append_left _ _⟩
      · rcases ihafter hnode with ⟨hdeclares, member, hmember, hsame⟩ |
          ⟨htransparent, above, inner, hinner, hsubset⟩
        · exact .inl ⟨hdeclares, member, List.mem_append_right _ hmember, hsame⟩
        · exact .inr ⟨htransparent, above, inner, hinner,
            List.subset_append_of_subset_right _ hsubset⟩

theorem Declares.nested {parent : Option Nat} {site : Site} {declaration : Declaration}
    (h : Declares symbols symbol parent site declaration) :
    ∀ inner ∈ declaration.walk, Nested symbols inner := by
  obtain ⟨declares, below⟩ := h
  intro inner hinner
  rw [Declaration.walk_eq, List.mem_cons] at hinner
  rcases hinner with rfl | hinner
  · exact ⟨declares, _, _, _, _, below⟩
  · exact below.nested inner hinner

end SymbolTable

open SymbolTable

variable {graph : ModuleGraph} {inventory : Inventory} {declaration : Declaration}

theorem Inventory.Forest.nested (h : inventory.Forest graph)
    (hdeclaration : declaration ∈ inventory.allDeclarations) :
    Nested inventory.symbols declaration := by
  obtain ⟨outer, houter, hinner⟩ := Declaration.mem_walkAll.mp hdeclaration
  obtain ⟨_, _, _, _, _, _, _, hdeclares⟩ := h.exists_site houter
  exact hdeclares.nested declaration hinner

theorem Inventory.Forest.member_found (h : inventory.Forest graph) {member : Declaration}
    (hdeclaration : declaration ∈ inventory.allDeclarations)
    (hmember : member ∈ declaration.members) :
    Surface.member declaration member.node = .ok member := by
  unfold Surface.member
  cases hfound : declaration.members.find? fun other => other.node.id = member.node.id with
  | none =>
      have hnone := List.find?_eq_none.mp hfound member hmember
      simp at hnone
  | some found =>
      have hknown : ∀ other ∈ declaration.members, other ∈ inventory.allDeclarations :=
        fun other => Declaration.mem_walkAll_member hdeclaration
      have hid : found.node.id = member.node.id := by simpa using List.find?_some hfound
      have hsame := List.inj_on_of_nodup_map h.distinct
        (hknown found (List.mem_of_find?_eq_some hfound)) (hknown member hmember) hid
      rw [hsame]

namespace Emit

variable {source : Text}

private theorem exists_way_of_members {symbols : List Symbol} {file : SourceFile}
    {ancestors nodes : List Node} {owner : Symbol} {number : Nat}
    {declarations : List Declaration} {declaration : Declaration}
    (h : Members symbols file ancestors owner number nodes declarations)
    (parent : Span) (before spans : List Span) (hchildren : parent.children = before ++ spans)
    (hnodes : spans.map Span.node = nodes) (hspans : ∀ span ∈ spans, span.OfNode source)
    (hfound : ∀ member ∈ declarations,
      Surface.member declaration member.node = .ok member) :
    ∀ member ∈ declarations, ∃ path target,
      Way declaration parent path [member] target ∧ target.node = member.node ∧
        target.OfNode source := by
  induction h generalizing parent before spans with
  | nil => simp
  | @declared ancestors rest owner symbol number own node name inner others declares named
      known labelled below after ihbelow ihafter =>
      cases spans with
      | nil => cases hnodes
      | cons span spans =>
          obtain ⟨rfl, hafter⟩ := List.cons.inj hnodes
          rw [List.forall_mem_cons] at hfound hspans
          refine List.forall_mem_cons.mpr ⟨⟨[before.length], span, ?_, rfl, hspans.1⟩, ?_⟩
          · exact .member (by simp [hchildren]) declares hfound.1 .here
          · exact ihafter parent (before ++ [span]) spans (by simp [hchildren]) hafter
              hspans.2 hfound.2
  | @through ancestors rest owner number node here others transparent below after ihbelow
      ihafter =>
      cases spans with
      | nil => cases hnodes
      | cons span spans =>
          obtain ⟨rfl, hafter⟩ := List.cons.inj hnodes
          rw [List.forall_mem_cons] at hspans
          rw [List.forall_mem_append] at hfound
          obtain ⟨hbelow, hinner⟩ := hspans.1.children
          refine List.forall_mem_append.mpr ⟨fun member hmember => ?_, ?_⟩
          · obtain ⟨path, target, hway, htarget⟩ :=
              ihbelow span [] span.children rfl hbelow hinner hfound.1 member hmember
            exact ⟨before.length :: path, target,
              .through (by simp [hchildren]) transparent hway, htarget⟩
          · exact ihafter parent (before ++ [span]) spans (by simp [hchildren]) hafter
              hspans.2 hfound.2

end Emit

theorem Declaration.inductionOnMembers {motive : Declaration → Prop}
    (step : ∀ declaration : Declaration,
      (∀ member ∈ declaration.members, motive member) → motive declaration)
    (declaration : Declaration) : motive declaration :=
  step declaration fun member _ => inductionOnMembers step member
termination_by sizeOf declaration
decreasing_by
  cases declaration with
  | mk id site symbol parent members =>
      have := List.sizeOf_lt_of_mem (show member ∈ members from ‹_›)
      rw [mk.sizeOf_spec]
      omega

theorem Emit.exists_way {source : Text} (h : inventory.Forest graph) (declaration : Declaration)
    (hdeclaration : declaration ∈ inventory.allDeclarations) (span : Span)
    (hspan : span.OfNode source) (hnode : span.node = declaration.node) :
    ∀ inner ∈ declaration.walk, ∃ path chain target,
      Emit.Way declaration span path chain target ∧
        chain.getLastD declaration = inner ∧ target.node = inner.node := by
  induction declaration using Declaration.inductionOnMembers generalizing span with
  | step declaration ih =>
      intro inner hinner
      rw [Declaration.walk_eq, List.mem_cons] at hinner
      rcases hinner with rfl | hinner
      · exact ⟨[], [], span, .here, rfl, hnode⟩
      · obtain ⟨member, hmember, hinner⟩ := Declaration.mem_walkAll.mp hinner
        obtain ⟨_, _, _, _, _, hmembers⟩ := h.nested hdeclaration
        obtain ⟨hnodes, hspans⟩ := hspan.children
        rw [hnode] at hnodes
        obtain ⟨path, target, hway, htarget, hofNode⟩ :=
          Emit.exists_way_of_members hmembers span [] span.children rfl hnodes hspans
            (fun other => h.member_found hdeclaration) member hmember
        obtain ⟨rest, chain, last, hrest, hchain, hlast⟩ := ih member hmember
          (Declaration.mem_walkAll_member hdeclaration hmember) target hofNode htarget
          inner hinner
        refine ⟨path ++ rest, member :: chain, last, hway.append hrest, ?_, hlast⟩
        rw [← hchain]
        cases chain <;> rfl

private theorem Emit.exists_way_below {source : Text} {span target : Span} {path : Path}
    {file : SourceFile} {ancestors : List Node} {owner : Symbol} {number : Nat}
    {inner : List Declaration} (h : inventory.Forest graph)
    (hdeclaration : declaration ∈ inventory.allDeclarations) (hspan : span.OfNode source)
    (hmembers : Members inventory.symbols file ancestors owner number span.node.children inner)
    (hinner : inner ⊆ declaration.members) (hpath : span.descendant? path = some target) :
    ∃ chain, Emit.Way declaration span path chain target := by
  induction path generalizing declaration span file ancestors owner number inner with
  | nil =>
      obtain rfl : span = target := by simpa [Span.descendant?] using hpath
      exact ⟨[], .here⟩
  | cons index path ih =>
      obtain ⟨child, hchild, hpath⟩ := Option.bind_eq_some_iff.mp hpath
      obtain ⟨hnodes, hspans⟩ := hspan.children
      have hmem := List.mem_of_getElem? hchild
      have hnode : child.node ∈ span.node.children := hnodes ▸ List.mem_map_of_mem hmem
      rcases hmembers.of_mem hnode with ⟨declares, member, hmember, hsame⟩ |
        ⟨transparent, above, below, hbelow, hsubset⟩
      · have hmember := hinner hmember
        have hknown := Declaration.mem_walkAll_member hdeclaration hmember
        have hfound := h.member_found hdeclaration hmember
        obtain ⟨_, _, _, _, _, hnested⟩ := h.nested hknown
        rw [hsame] at hfound hnested
        obtain ⟨chain, hway⟩ := ih hknown (hspans child hmem) hnested
          (List.Subset.refl _) hpath
        exact ⟨member :: chain, .member hchild declares hfound hway⟩
      · obtain ⟨chain, hway⟩ := ih hdeclaration (hspans child hmem) hbelow
          (List.Subset.trans hsubset hinner) hpath
        exact ⟨chain, .through hchild transparent hway⟩

theorem Emit.exists_way_to {source : Text} {span target : Span} {path : Path}
    (h : inventory.Forest graph) (hdeclaration : declaration ∈ inventory.allDeclarations)
    (hspan : span.OfNode source) (hnode : span.node = declaration.node)
    (hpath : span.descendant? path = some target) :
    ∃ chain, Emit.Way declaration span path chain target := by
  obtain ⟨_, _, _, _, _, hmembers⟩ := h.nested hdeclaration
  rw [← hnode] at hmembers
  exact exists_way_below h hdeclaration hspan hmembers (List.Subset.refl _) hpath

end ApiSurface
