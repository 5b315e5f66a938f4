import ApiSurface.Overlay.Span
import ApiSurface.Proofs.Success

/-!
# Placement of nodes

A node is misplaced when one of its children lies outside of it, or starts
before the previous one ends.  Dividing the text of a node fails exactly if
there is a misplaced node in its tree.
-/

namespace ApiSurface

namespace Node

/-- A child lies outside the node, or starts before the previous one ends. -/
def Misplaced (node : Node) : Prop :=
  (∃ child ∈ node.children, child.start < node.start ∨ node.stop < child.stop) ∨
  ∃ before first second after,
    node.children = before ++ first :: second :: after ∧ second.start < first.stop

def Follows (first second : Node) : Prop := first.stop ≤ second.start

theorem not_misplaced_iff {node : Node} :
    ¬ node.Misplaced ↔
      (∀ child ∈ node.children, node.start ≤ child.start ∧ child.stop ≤ node.stop) ∧
      node.children.IsChain Follows := by
  rw [List.isChain_iff_forall_rel_of_append_cons_cons, Misplaced, not_or]
  refine and_congr ?_ ?_
  · simp only [not_exists, not_and, not_or, Int.not_lt]
  · constructor
    · intro h first second before after heq
      by_contra hlt
      exact h ⟨before, first, second, after, heq, Int.not_le.mp hlt⟩
    · rintro h ⟨before, first, second, after, heq, hlt⟩
      exact Int.not_le.mpr hlt (h heq)

theorem walk_eq (node : Node) : node.walk = node :: walkAll node.children := by
  cases node
  rfl

theorem mem_walk_self (node : Node) : node ∈ node.walk := by
  simp [walk_eq]

theorem mem_walkAll {nodes : List Node} {inner : Node} :
    inner ∈ walkAll nodes ↔ ∃ node ∈ nodes, inner ∈ node.walk := by
  induction nodes with
  | nil => simp [walkAll]
  | cons node rest ih => simp [walkAll, ih]

theorem mem_walk_of_mem_children {node child inner : Node}
    (hchild : child ∈ node.children) (hinner : inner ∈ child.walk) :
    inner ∈ node.walk := by
  rw [walk_eq]
  exact List.mem_cons_of_mem _ (mem_walkAll.mpr ⟨child, hchild, hinner⟩)

def Placed (node : Node) : Prop := ∀ inner ∈ node.walk, ¬ inner.Misplaced

theorem placed_iff {node : Node} :
    node.Placed ↔ ¬ node.Misplaced ∧ ∀ child ∈ node.children, child.Placed := by
  simp only [Placed, walk_eq node, List.forall_mem_cons, mem_walkAll]
  refine and_congr_right fun _ => ⟨?_, ?_⟩
  · intro h child hchild inner hinner
    exact h inner ⟨child, hchild, hinner⟩
  · rintro h inner ⟨child, hchild, hinner⟩
    exact h child hchild inner hinner

/-! ## The check -/

/-- What the check of some children looks for, given the sibling before them. -/
structure PlacedAmong (start stop : Int) (previous : Option Node)
    (children : List Node) : Prop where
  inside : ∀ child ∈ children, start ≤ child.start ∧ child.stop ≤ stop
  chain : (previous.toList ++ children).IsChain Follows
  placed : ∀ child ∈ children, child.Placed

private theorem placedAmong_cons {start stop : Int} {previous : Option Node}
    {child : Node} {rest : List Node} :
    PlacedAmong start stop previous (child :: rest) ↔
      child.Placed ∧ (start ≤ child.start ∧ child.stop ≤ stop) ∧
      (∀ sibling, previous = some sibling → sibling.stop ≤ child.start) ∧
      PlacedAmong start stop (some child) rest := by
  have hchain : (previous.toList ++ child :: rest).IsChain Follows ↔
      (∀ sibling, previous = some sibling → sibling.stop ≤ child.start) ∧
      (child :: rest).IsChain Follows := by
    cases previous with
    | none => simp
    | some sibling => simp [Follows, List.isChain_cons_cons]
  constructor
  · rintro ⟨hinside, hordered, hplaced⟩
    rw [List.forall_mem_cons] at hinside hplaced
    obtain ⟨hfollows, hordered⟩ := hchain.mp hordered
    exact ⟨hplaced.1, hinside.1, hfollows, hinside.2, hordered, hplaced.2⟩
  · rintro ⟨hchild, hbounds, hfollows, hinside, hordered, hplaced⟩
    exact ⟨List.forall_mem_cons.mpr ⟨hbounds, hinside⟩, hchain.mpr ⟨hfollows, hordered⟩,
      List.forall_mem_cons.mpr ⟨hchild, hplaced⟩⟩

/-- A check that passes exactly if a condition holds, and fails with a defect
otherwise. -/
def Decides (check : Except Fault Unit) (condition : Prop) : Prop :=
  check = .ok () ∧ condition ∨
    (∃ defect, check = .error (.defect defect)) ∧ ¬ condition

mutual

theorem checkPlacement_decides :
    ∀ node : Node, Decides node.checkPlacement node.Placed
  | .mk kind start stop id label children => by
      have h := checkChildren_decides kind start stop none children
      have hplaced : (Node.mk kind start stop id label children).Placed ↔
          PlacedAmong start stop none children := by
        rw [placed_iff, not_misplaced_iff]
        constructor
        · rintro ⟨⟨hinside, hchain⟩, hchildren⟩
          exact ⟨hinside, hchain, hchildren⟩
        · rintro ⟨hinside, hchain, hchildren⟩
          exact ⟨⟨hinside, hchain⟩, hchildren⟩
      rw [checkPlacement, hplaced]
      exact h

theorem checkChildren_decides (kind : NodeKind) (start stop : Int)
    (previous : Option Node) : ∀ children : List Node,
    Decides (checkChildren kind start stop previous children)
      (PlacedAmong start stop previous children)
  | [] => by
      refine .inl ⟨rfl, by simp, ?_, by simp⟩
      cases previous <;> simp
  | child :: rest => by
      -- The cases are the faults in the order in which they are looked for.
      rw [checkChildren, placedAmong_cons]
      rcases checkPlacement_decides child with ⟨hok, hchild⟩ | ⟨⟨defect, herror⟩, hchild⟩
      · rw [hok]
        by_cases hbounds : start ≤ child.start ∧ child.stop ≤ stop
        · have hinside : (child.start < start || stop < child.stop) = false := by
            simpa [Int.not_lt] using hbounds
          have hrest := checkChildren_decides kind start stop (some child) rest
          cases previous with
          | none =>
              simpa [hinside, bind, Except.bind, pure, Except.pure, hchild, hbounds]
                using hrest
          | some sibling =>
              by_cases hfollows : sibling.stop ≤ child.start
              · have hnot : ¬ child.start < sibling.stop := Int.not_lt.mpr hfollows
                simpa [hinside, hnot, bind, Except.bind, pure, Except.pure, hchild,
                  hbounds, hfollows] using hrest
              · refine .inr ⟨⟨.overlapsSibling child.kind sibling.kind, ?_⟩, ?_⟩
                · simp only [hinside, Int.not_le.mp hfollows, bind, Except.bind]
                  rfl
                · exact fun h => hfollows (h.2.2.1 sibling rfl)
        · have houtside : (child.start < start || stop < child.stop) = true := by
            rw [Bool.or_eq_true, decide_eq_true_eq, decide_eq_true_eq]
            omega
          refine .inr ⟨⟨.outsideParent child.kind (.int child.start)
            (.int child.stop) kind (.int start) (.int stop), ?_⟩,
            fun h => hbounds h.2.1⟩
          simp only [houtside, bind, Except.bind]
          rfl
      · rw [herror]
        exact .inr ⟨⟨defect, rfl⟩, fun h => hchild h.1⟩

end

end Node

namespace Span

variable {source : Text} {node : Node}

theorem ofNode_of_placed (h : node.Placed) :
    ofNode source node = .ok (layout source node) := by
  rcases node.checkPlacement_decides with ⟨hok, -⟩ | ⟨-, hmisplaced⟩
  · rw [ofNode, hok]
    rfl
  · exact absurd h hmisplaced

theorem ofNode_fails_iff :
    (∃ defect, ofNode source node = .error (.defect defect)) ↔
      ∃ inner ∈ node.walk, inner.Misplaced := by
  have hplaced : node.Placed ↔ ¬ ∃ inner ∈ node.walk, inner.Misplaced := by
    simp only [Node.Placed, not_exists, not_and]
  rcases node.checkPlacement_decides with ⟨hok, h⟩ | ⟨⟨defect, herror⟩, h⟩
  · rw [ofNode_of_placed h]
    constructor
    · rintro ⟨_, hfails⟩
      cases hfails
    · exact fun hinner => absurd hinner (hplaced.mp h)
  · rw [ofNode, herror]
    exact ⟨fun _ => not_not.mp (hplaced.not.mp h), fun _ => ⟨defect, rfl⟩⟩

end Span

end ApiSurface
