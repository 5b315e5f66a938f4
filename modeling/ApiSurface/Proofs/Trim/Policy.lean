import ApiSurface.Proofs.Surface.Analysis

/-!
# The policy behind trim plans

Which declarations a tier shows is determined by two rules on sets of numbers.
What reaches the threshold is shown together with the members that reach it,
and what something shown refers to is shown together with the members that are
as visible as itself.  This file states the rules and the order-free process
that applies them: as long as something shown refers to something that is not,
the latter is rescued.  Whatever the order of rescues, a process that has come
to an end has reached the least set that obeys the rules.
-/

namespace ApiSurface

/-! ## Tags and thresholds -/

namespace ReleaseTag

variable {tag threshold other : ReleaseTag}

def below (tag threshold : ReleaseTag) : Bool :=
  tag ≠ .untagged && tag.rank < threshold.rank

theorem reaches_iff :
    tag.reaches threshold = true ↔
      tag = .untagged ∨ threshold.rank ≤ tag.rank := by
  simp [reaches]

theorem below_iff :
    tag.below threshold = true ↔
      tag ≠ .untagged ∧ tag.rank < threshold.rank := by
  simp [below]

theorem below_eq_not_reaches (tag threshold : ReleaseTag) :
    tag.below threshold = !tag.reaches threshold := by
  rw [Bool.eq_iff_iff, Bool.not_eq_true', ← Bool.not_eq_true, reaches_iff,
    below_iff, not_or, Nat.not_le]

theorem reaches_of_le (hle : other.rank ≤ threshold.rank)
    (h : tag.reaches threshold = true) : tag.reaches other = true := by
  rw [reaches_iff] at h ⊢
  exact h.imp_right hle.trans

theorem least_eq_of_below (h : tag.below threshold = true) :
    threshold.least tag = tag := by
  simp [least, (below_iff.mp h).2]

end ReleaseTag

namespace Surface

variable {surface : Surface} {threshold : ReleaseTag}

/-! ## What the rules read from a surface -/

def Listed (surface : Surface) (declaration : Declaration) : Prop :=
  declaration ∈ surface.inventory.allDeclarations ∧
    (surface.entity? (.symbol declaration.symbol.key)).isSome

theorem entity?_isSome_iff {id : EntityId} :
    (surface.entity? id).isSome = true ↔
      ∃ entity ∈ surface.entities, entity.subject.id = id := by
  simp [entity?]

/-- One declaration refers to the symbol of another, which is an entity and
belongs to the package itself. -/
def Refers (surface : Surface) (source target : Declaration) : Prop :=
  .symbol target.symbol.key ∈ surface.references.of source.id ∧
    (∃ symbol, surface.inventory.symbol? target.symbol.key = some symbol ∧
      symbol.external = false) ∧
    surface.Listed target

/-! ## Closures -/

/-- `Closure threshold outer inner` puts into the closure of a declaration the
declaration itself and, unless its body is not written, the closures of the
members that reach the threshold. -/
inductive Closure (surface : Surface) (threshold : ReleaseTag) :
    Declaration → Declaration → Prop
  | self (declaration : Declaration) :
      Closure surface threshold declaration declaration
  | member {outer member inner : Declaration}
      (body : surface.isStub outer = false)
      (isMember : member ∈ outer.members)
      (visible : (surface.tagOf member).reaches threshold = true)
      (rest : Closure surface threshold member inner) :
      Closure surface threshold outer inner

def closureIds (surface : Surface) (threshold : ReleaseTag)
    (declaration : Declaration) : Set Nat :=
  {id | ∃ inner, Closure surface threshold declaration inner ∧ inner.id = id}

namespace Closure

variable {outer middle inner : Declaration}

theorem trans (first : Closure surface threshold outer middle)
    (second : Closure surface threshold middle inner) :
    Closure surface threshold outer inner := by
  induction first with
  | self _ => exact second
  | member body isMember visible _ ih =>
      exact .member body isMember visible (ih second)

private theorem of_le {lower : ReleaseTag} (hle : lower.rank ≤ threshold.rank)
    (h : Closure surface threshold outer inner) :
    Closure surface lower outer inner := by
  induction h with
  | self declaration => exact .self declaration
  | member body isMember visible _ ih =>
      exact .member body isMember (ReleaseTag.reaches_of_le hle visible) ih

theorem reaches (h : Closure surface threshold outer inner)
    (houter : (surface.tagOf outer).reaches threshold = true) :
    (surface.tagOf inner).reaches threshold = true := by
  induction h with
  | self _ => exact houter
  | member _ _ visible _ ih => exact ih visible

theorem mem_allDeclarations (h : Closure surface threshold outer inner)
    (houter : outer ∈ surface.inventory.allDeclarations) :
    inner ∈ surface.inventory.allDeclarations := by
  induction h with
  | self _ => exact houter
  | member _ isMember _ _ ih =>
      exact ih (Declaration.mem_walkAll_member houter isMember)

end Closure

theorem closure_iff {outer inner : Declaration} :
    Closure surface threshold outer inner ↔
      inner = outer ∨ surface.isStub outer = false ∧ ∃ member ∈ outer.members,
        (surface.tagOf member).reaches threshold = true ∧
        Closure surface threshold member inner := by
  constructor
  · intro h
    cases h with
    | self _ => exact .inl rfl
    | member body isMember visible rest =>
        exact .inr ⟨body, _, isMember, visible, rest⟩
  · rintro (rfl | ⟨body, member, isMember, visible, rest⟩)
    · exact .self inner
    · exact .member body isMember visible rest

theorem mem_closureIds_iff {declaration : Declaration} {id : Nat} :
    id ∈ surface.closureIds threshold declaration ↔
      id = declaration.id ∨ surface.isStub declaration = false ∧
        ∃ member ∈ declaration.members,
          (surface.tagOf member).reaches threshold = true ∧
          id ∈ surface.closureIds threshold member := by
  constructor
  · rintro ⟨inner, hinner, rfl⟩
    rcases closure_iff.mp hinner with rfl | ⟨body, member, isMember, visible, rest⟩
    · exact .inl rfl
    · exact .inr ⟨body, member, isMember, visible, inner, rest, rfl⟩
  · rintro (rfl | ⟨body, member, isMember, visible, inner, rest, rfl⟩)
    · exact ⟨declaration, .self declaration, rfl⟩
    · exact ⟨inner, .member body isMember visible rest, rfl⟩

theorem mem_closureIds_self (declaration : Declaration) :
    declaration.id ∈ surface.closureIds threshold declaration :=
  ⟨declaration, .self declaration, rfl⟩

theorem closureIds_subset_of_le {lower : ReleaseTag}
    (hle : lower.rank ≤ threshold.rank) (declaration : Declaration) :
    surface.closureIds threshold declaration ⊆
      surface.closureIds lower declaration := by
  rintro id ⟨inner, hinner, rfl⟩
  exact ⟨inner, hinner.of_le hle, rfl⟩

private theorem closureIds_subset_of_closure {outer inner : Declaration}
    (h : Closure surface threshold outer inner) :
    surface.closureIds threshold inner ⊆ surface.closureIds threshold outer := by
  rintro id ⟨last, hlast, rfl⟩
  exact ⟨last, h.trans hlast, rfl⟩

theorem closure_of_id_mem (hsound : surface.Sound) {outer inner : Declaration}
    (houter : outer ∈ surface.inventory.allDeclarations)
    (hinner : inner ∈ surface.inventory.allDeclarations)
    (h : inner.id ∈ surface.closureIds threshold outer) :
    Closure surface threshold outer inner := by
  obtain ⟨found, hfound, hid⟩ := h
  have heq : found = inner :=
    hsound.eq_of_id_eq (hfound.mem_allDeclarations houter) hinner hid
  exact heq ▸ hfound

/-! ## The rules -/

structure Obeys (surface : Surface) (threshold : ReleaseTag) (kept : Set Nat) :
    Prop where
  visible : ∀ declaration, surface.Listed declaration →
    (surface.tagOf declaration).reaches threshold = true →
    surface.closureIds threshold declaration ⊆ kept
  referred : ∀ source ∈ surface.inventory.allDeclarations, source.id ∈ kept →
    surface.isStub source = false → ∀ target, surface.Refers source target →
    (surface.tagOf target).below threshold = true →
    surface.closureIds (surface.tagOf target) target ⊆ kept

theorem Obeys.narrower {wide narrow : ReleaseTag}
    (hle : wide.rank ≤ narrow.rank) {kept : Set Nat}
    (h : surface.Obeys wide kept) : surface.Obeys narrow kept where
  visible := fun declaration hlisted hreaches =>
    (closureIds_subset_of_le hle declaration).trans
      (h.visible declaration hlisted (ReleaseTag.reaches_of_le hle hreaches))
  referred := by
    intro source hdeclared hkept hbody target hrefers hbelow
    cases hreaches : (surface.tagOf target).reaches wide with
    | true =>
        -- What the narrower tier has to rescue, this one shows anyway.
        have hwide : wide.rank ≤ (surface.tagOf target).rank :=
          (ReleaseTag.reaches_iff.mp hreaches).resolve_left
            (ReleaseTag.below_iff.mp hbelow).1
        exact (closureIds_subset_of_le hwide target).trans
          (h.visible target hrefers.2.2 hreaches)
    | false =>
        refine h.referred source hdeclared hkept hbody target hrefers ?_
        rw [ReleaseTag.below_eq_not_reaches, hreaches]
        rfl

def visibleIds (surface : Surface) (threshold : ReleaseTag) : Set Nat :=
  {id | ∃ declaration, surface.Listed declaration ∧
    (surface.tagOf declaration).reaches threshold = true ∧
    id ∈ surface.closureIds threshold declaration}

/-! ## Rescuing in any order -/

/-- The sets that are reached from what is visible by rescues.  Each rescue
picks any declaration that something kept refers to and that is not kept. -/
inductive Reached (surface : Surface) (threshold : ReleaseTag) : Set Nat → Prop
  | start : Reached surface threshold (surface.visibleIds threshold)
  | rescue {kept : Set Nat} {source target : Declaration}
      (before : Reached surface threshold kept)
      (isDeclared : source ∈ surface.inventory.allDeclarations)
      (isKept : source.id ∈ kept)
      (body : surface.isStub source = false)
      (refers : surface.Refers source target)
      (isMissing : target.id ∉ kept) :
      Reached surface threshold
        (kept ∪ surface.closureIds (threshold.least (surface.tagOf target)) target)

def Settled (surface : Surface) (kept : Set Nat) : Prop :=
  ∀ source ∈ surface.inventory.allDeclarations, source.id ∈ kept →
    surface.isStub source = false → ∀ target, surface.Refers source target →
    target.id ∈ kept

namespace Reached

variable {kept : Set Nat}

theorem visibleIds_subset (h : Reached surface threshold kept) :
    surface.visibleIds threshold ⊆ kept := by
  induction h with
  | start => exact subset_rfl
  | rescue _ _ _ _ _ _ ih => exact ih.trans Set.subset_union_left

theorem below_of_missing (h : Reached surface threshold kept)
    {target : Declaration} (hlisted : surface.Listed target)
    (hmissing : target.id ∉ kept) :
    (surface.tagOf target).below threshold = true := by
  rw [ReleaseTag.below_eq_not_reaches]
  cases hreaches : (surface.tagOf target).reaches threshold with
  | false => rfl
  | true =>
      exact absurd (h.visibleIds_subset
        ⟨target, hlisted, hreaches, mem_closureIds_self target⟩) hmissing

/-- No declaration is kept with fewer members than its own tag asks for.  This
is why a rescue may pass over what is kept already. -/
theorem closureIds_tag_subset (hsound : surface.Sound)
    (h : Reached surface threshold kept) {declaration : Declaration}
    (hdeclared : declaration ∈ surface.inventory.allDeclarations)
    (hkept : declaration.id ∈ kept)
    (hbelow : (surface.tagOf declaration).below threshold = true) :
    surface.closureIds (surface.tagOf declaration) declaration ⊆ kept := by
  induction h with
  | start =>
      -- What is visible at first reaches the threshold.
      obtain ⟨outer, hlisted, hreaches, hmem⟩ := hkept
      have hclosure := closure_of_id_mem hsound hlisted.1 hdeclared hmem
      rw [ReleaseTag.below_eq_not_reaches, hclosure.reaches hreaches] at hbelow
      cases hbelow
  | @rescue kept source target before _ _ _ refers isMissing ih =>
      rcases hkept with hkept | hmem
      · exact (ih hkept).trans Set.subset_union_left
      · have htarget := before.below_of_missing refers.2.2 isMissing
        rw [ReleaseTag.least_eq_of_below htarget] at hmem ⊢
        have hclosure := closure_of_id_mem hsound refers.2.2.1 hdeclared hmem
        have htags := hclosure.reaches
          (ReleaseTag.reaches_iff.mpr (.inr (Nat.le_refl _)))
        have hle : (surface.tagOf target).rank ≤
            (surface.tagOf declaration).rank :=
          (ReleaseTag.reaches_iff.mp htags).resolve_left
            (ReleaseTag.below_iff.mp hbelow).1
        calc surface.closureIds (surface.tagOf declaration) declaration
            ⊆ surface.closureIds (surface.tagOf target) declaration :=
              closureIds_subset_of_le hle declaration
          _ ⊆ surface.closureIds (surface.tagOf target) target :=
              closureIds_subset_of_closure hclosure
          _ ⊆ kept ∪ surface.closureIds (surface.tagOf target) target :=
              Set.subset_union_right

theorem subset_of_obeys (h : Reached surface threshold kept)
    {other : Set Nat} (hobeys : surface.Obeys threshold other) :
    kept ⊆ other := by
  induction h with
  | start =>
      rintro id ⟨declaration, hlisted, hreaches, hmem⟩
      exact hobeys.visible declaration hlisted hreaches hmem
  | rescue before isDeclared isKept body refers isMissing ih =>
      have hbelow := before.below_of_missing refers.2.2 isMissing
      rw [ReleaseTag.least_eq_of_below hbelow]
      exact Set.union_subset ih
        (hobeys.referred _ isDeclared (ih isKept) body _ refers hbelow)

theorem obeys_of_settled (hsound : surface.Sound)
    (h : Reached surface threshold kept) (hsettled : surface.Settled kept) :
    surface.Obeys threshold kept where
  visible := fun declaration hlisted hreaches _ hmem =>
    h.visibleIds_subset ⟨declaration, hlisted, hreaches, hmem⟩
  referred := fun source hdeclared hkept hbody target hrefers hbelow =>
    h.closureIds_tag_subset hsound hrefers.2.2.1
      (hsettled source hdeclared hkept hbody target hrefers) hbelow

theorem isLeast (hsound : surface.Sound) (h : Reached surface threshold kept)
    (hsettled : surface.Settled kept) :
    IsLeast {other | surface.Obeys threshold other} kept :=
  ⟨h.obeys_of_settled hsound hsettled, fun _ hobeys => h.subset_of_obeys hobeys⟩

end Reached

/-! ## The order of entities

Nothing in the rules depends on where an entity stands. -/

section Order

variable {entities : List Entity} {declaration source target : Declaration}

theorem listed_reorder (horder : entities.Perm surface.entities) :
    Listed { surface with entities := entities } declaration ↔
      surface.Listed declaration := by
  simp only [Listed, entity?_isSome_iff, horder.mem_iff]

theorem refers_reorder (horder : entities.Perm surface.entities) :
    Refers { surface with entities := entities } source target ↔
      surface.Refers source target := by
  simp only [Refers, listed_reorder horder]

theorem Closure.reorder (entities : List Entity)
    (h : Closure surface threshold source target) :
    Closure { surface with entities := entities } threshold source target := by
  induction h with
  | self declaration => exact .self declaration
  | member body isMember visible _ ih => exact .member body isMember visible ih

private theorem closure_reorder :
    Closure { surface with entities := entities } threshold source target ↔
      Closure surface threshold source target :=
  ⟨fun h => h.reorder surface.entities, fun h => h.reorder entities⟩

theorem closureIds_reorder :
    closureIds { surface with entities := entities } threshold declaration =
      surface.closureIds threshold declaration := by
  simp only [closureIds, closure_reorder]

theorem visibleIds_reorder (horder : entities.Perm surface.entities) :
    visibleIds { surface with entities := entities } threshold =
      surface.visibleIds threshold := by
  simp only [visibleIds, listed_reorder horder, closureIds_reorder]
  rfl

theorem settled_reorder (horder : entities.Perm surface.entities)
    {kept : Set Nat} :
    Settled { surface with entities := entities } kept ↔
      surface.Settled kept := by
  simp only [Settled, refers_reorder horder]
  rfl

theorem Obeys.reorder (horder : entities.Perm surface.entities)
    {kept : Set Nat} (h : surface.Obeys threshold kept) :
    Obeys { surface with entities := entities } threshold kept := by
  refine ⟨fun declaration hlisted hreaches => ?_,
    fun source hdeclared hkept hbody target hrefers hbelow => ?_⟩
  · rw [closureIds_reorder]
    exact h.visible declaration ((listed_reorder horder).mp hlisted) hreaches
  · rw [closureIds_reorder]
    exact h.referred source hdeclared hkept hbody target
      ((refers_reorder horder).mp hrefers) hbelow

theorem obeys_reorder (horder : entities.Perm surface.entities)
    {kept : Set Nat} :
    Obeys { surface with entities := entities } threshold kept ↔
      surface.Obeys threshold kept :=
  ⟨fun h => h.reorder horder.symm, fun h => h.reorder horder⟩

end Order

end Surface

end ApiSurface
