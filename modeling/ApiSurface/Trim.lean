import ApiSurface.Surface.Analysis

/-!
# Trim plans

The plan of a tier says which declarations its rollup shows.  A declaration is kept
when its tag reaches the threshold of the tier.  A declaration that is not kept, but
to whose symbol something kept refers, is rescued: it is kept after all, with the
members that are as visible as itself, and a message says so.
-/

namespace ApiSurface

structure TrimPlan where
  tier : Tier
  kept : List Nat := []
  rescued : List Nat := []
  messages : List Message := []

namespace TrimPlan

def isKept (plan : TrimPlan) (id : Nat) : Bool := plan.kept.contains id

mutual

/-- Keeps a declaration and the members that reach a threshold.  Answers the numbers
that are kept, and the declarations whose references have to be followed: the body
of a preapproved one is never written. -/
def keep (surface : Surface) (threshold : ReleaseTag) :
    Declaration → Except Fault (List Nat × List Declaration)
  | .mk id _ _ _ members => do
      let declaration ← surface.declaration (.int id)
      let item ← surface.item id
      if item.isPreapproved then pure ([id], [])
      else
        let (ids, followed) ← keepMembers surface threshold members
        pure (id :: ids, declaration :: followed)

def keepMembers (surface : Surface) (threshold : ReleaseTag) :
    List Declaration → Except Fault (List Nat × List Declaration)
  | [] => .ok ([], [])
  | member :: rest => do
      let tag := (← surface.item member.id).effectiveTag
      let (ids, followed) ←
        if tag.reaches threshold then keep surface threshold member
        else pure ([], [])
      let (others, laterFollowed) ← keepMembers surface threshold rest
      pure (ids ++ others, followed ++ laterFollowed)

end

def keepReaching (surface : Surface) (threshold : ReleaseTag) :
    List Declaration → Except Fault (List Nat × List Declaration) :=
  keepMembers surface threshold

structure Link where
  source : Declaration
  target : Declaration

def rescuable (surface : Surface) : EntityId → List Declaration
  | .imported _ => []
  | .symbol key =>
      match surface.inventory.symbol? key with
      | none => []
      | some symbol =>
          if symbol.external || (surface.entity? (.symbol key)).isNone then []
          else surface.declarationsOf key

def links (surface : Surface) (source : Declaration) : List Link :=
  (surface.references.of source.id).flatMap fun id =>
    (rescuable surface id).map fun target => ⟨source, target⟩

def rescueIssue (tier : Tier) (link : Link) (tag : ReleaseTag) : Issue :=
  link.target.issue "ae-incompatible-trim"
    (s!"The symbol \"{link.target.symbol.name.plain}\" is marked as {tag.shown}," ++
      s!" but it is referenced by \"{link.source.symbol.name.plain}\"" ++
      s!" which is included in the {tier.name} release;" ++
      " it was kept in the trimmed output")

def remaining (unkept : List Nat) (id : Nat) (ids : List Nat) : List Nat :=
  unkept.filter fun other => other ≠ id && !ids.contains other

theorem remaining_length_lt {unkept : List Nat} {id : Nat} (ids : List Nat)
    (member : id ∈ unkept) : (remaining unkept id ids).length < unkept.length := by
  rw [remaining, List.length_filter_lt_length_iff_exists]
  exact ⟨id, member, by simp⟩

/-- Follows links in order and rescues their targets; `unkept` are the numbers not
kept yet. -/
def follow (surface : Surface) (plan : TrimPlan) (unkept : List Nat) :
    List Link → Except Fault TrimPlan
  | [] => .ok plan
  | link :: rest =>
      if _ : link.target.id ∈ unkept then do
        let target ← surface.declaration (.int link.target.id)
        let tag := (← surface.item link.target.id).effectiveTag
        let message ←
          surface.router.judge (rescueIssue plan.tier ⟨link.source, target⟩ tag)
        let (ids, followed) ← keep surface (plan.tier.threshold.least tag) target
        follow surface
          { plan with
            kept := plan.kept ++ ids
            rescued := plan.rescued ++ [link.target.id]
            messages := plan.messages ++ [message] }
          (remaining unkept link.target.id ids)
          (rest ++ followed.flatMap (links surface))
      else follow surface plan unkept rest
termination_by queue => (unkept.length, queue.length)
decreasing_by
  · exact Prod.Lex.left _ _ (remaining_length_lt _ ‹_›)
  · exact Prod.Lex.right _ (by simp)

def candidates (surface : Surface) : List Declaration :=
  surface.entities.flatMap fun entity =>
    match entity.subject with
    | .symbol label _ => surface.declarationsOf label.key
    | .imported _ _ => []

def make (surface : Surface) (tier : Tier) : Except Fault TrimPlan := do
  let (kept, followed) ← keepReaching surface tier.threshold (candidates surface)
  let unkept :=
    (surface.inventory.allDeclarations.map Declaration.id).filter fun id =>
      !kept.contains id
  follow surface { tier, kept } unkept (followed.flatMap (links surface))

end TrimPlan

end ApiSurface
