import ApiSurface.Proofs.Trim.Plan

/-!
# Plans are least sets

A plan keeps the least set of declarations that obeys the policy.  The order
of entities and the order of rescues do not matter, and a wider tier, whose
rules ask for more, keeps whatever a narrower one keeps.
-/

namespace ApiSurface.TrimPlan

variable {graph : ModuleGraph} {router : Router} {surface : Surface}

/-! ## The least set -/

theorem make_reorder (hsound : surface.Sound) {tier : Tier} {plan : TrimPlan}
    (h : make surface tier = .ok plan) {entities : List Entity}
    (horder : entities.Perm surface.entities) :
    ∃ other, make { surface with entities := entities } tier = .ok other ∧
      other.keptIds = plan.keptIds := by
  have hsound' : Surface.Sound { surface with entities := entities } :=
    ⟨hsound.distinct, hsound.known⟩
  cases hmake : make { surface with entities := entities } tier with
  | error fault =>
      -- Then the rule is missing, and the plan could not have been made either.
      obtain ⟨hrule, hneeded⟩ := (make_eq_error_iff hsound').mp hmake
      rw [Surface.visibleIds_reorder horder, Surface.settled_reorder horder]
        at hneeded
      have herror := (make_eq_error_iff hsound).mpr ⟨hrule, hneeded⟩
      rw [h] at herror
      cases herror
  | ok other =>
      obtain ⟨-, hreached, hsettled, -⟩ := make_finishes hsound h
      obtain ⟨-, hreached', hsettled', -⟩ := make_finishes hsound' hmake
      have hleast := hreached'.isLeast hsound' hsettled'
      simp only [Surface.obeys_reorder horder] at hleast
      exact ⟨other, rfl, hleast.unique (hreached.isLeast hsound hsettled)⟩

/-- A function, an interface it mentions, and an alias that one of the two
properties of the interface mentions. -/
def layeredFile : SourceFile where
  path := .text "index.d.ts"
  text := "A B B x C y C".toList
  root := .mk .sourceFile 0 13 0 .null
    [.mk .functionDeclaration 0 3 1 .null
      [.mk .identifier 0 1 2 .null [], .mk .identifier 2 3 3 .null []],
    .mk .interfaceDeclaration 4 11 4 .null
      [.mk .identifier 4 5 5 .null [],
      .mk .propertySignature 6 9 6 .null
        [.mk .identifier 6 7 7 .null [], .mk .identifier 8 9 8 .null []],
      .mk .propertySignature 10 11 9 .null [.mk .identifier 10 11 10 .null []]],
    .mk .typeAliasDeclaration 12 13 11 .null [.mk .identifier 12 13 12 .null []]]

def symbolsOf (file : SourceFile) (keys : List String) : List SymbolEntry :=
  (keys.zip file.root.children).map fun entry =>
    { key := .text entry.1
      localName := .text entry.1
      declarations := [⟨file, [file.root], entry.2⟩] }

/-- The layers are public, beta and internal, and so is the second property. -/
def layeredPackage : ModuleGraph where
  packageName := .text "layers"
  files := [layeredFile]
  symbols := symbolsOf layeredFile ["A", "B", "C"]
  bindings := [(3, .text "B"), (8, .text "C")]
  exports := [(.text "A", .text "A"), (.text "B", .text "B"), (.text "_C", .text "C")]
  docFlags := [(1, { releaseTag := .public }), (4, { releaseTag := .beta }),
    (9, { releaseTag := .internal }), (11, { releaseTag := .internal })]

theorem layeredPackage_plans :
    ∃ surface narrowPlan widePlan,
      Surface.analyze layeredPackage {} = .ok surface ∧
      make surface .public = .ok narrowPlan ∧ make surface .beta = .ok widePlan ∧
      narrowPlan.kept = [1, 2, 3, 5] ∧ narrowPlan.rescued = [2, 5] ∧
      widePlan.kept = [1, 2, 3, 5] ∧ widePlan.rescued = [5] := by
  have hrun : (do
      let surface ← Surface.analyze layeredPackage {}
      let narrowPlan ← make surface .public
      let widePlan ← make surface .beta
      pure (narrowPlan.kept, narrowPlan.rescued, widePlan.kept, widePlan.rescued)) =
        .ok ([1, 2, 3, 5], [2, 5], [1, 2, 3, 5], [5]) := by
    cbv
  simp only [bind_eq_ok, pure_eq_ok, Prod.mk.injEq] at hrun
  obtain ⟨surface, hanalyze, narrowPlan, hnarrow, widePlan, hwide, hresults⟩ := hrun
  exact ⟨surface, narrowPlan, widePlan, hanalyze, hnarrow, hwide, hresults⟩

/-- The plan of a tier can be made unless a rescue has to be reported and there
is no rule for its message, and it keeps the least set that obeys the policy. -/
theorem make_keeps_least_set (h : Surface.analyze graph router = .ok surface)
    (tier : Tier) :
    (∀ fault, make surface tier = .error fault ↔
      ruleFor surface.router.rules rescueId = .error fault ∧
      ¬ surface.Settled (surface.visibleIds tier.threshold)) ∧
    ∀ plan, make surface tier = .ok plan →
      IsLeast {kept | surface.Obeys tier.threshold kept} plan.keptIds ∧
      (∀ kept, surface.Reached tier.threshold kept → surface.Settled kept →
        kept = plan.keptIds) ∧
      (∀ entities, entities.Perm surface.entities →
        ∃ other, make { surface with entities := entities } tier = .ok other ∧
          other.keptIds = plan.keptIds) ∧
      plan.tier = tier ∧ Reported surface plan := by
  have hsound := Surface.analyze_sound h
  refine ⟨fun fault => make_eq_error_iff hsound, fun plan hplan => ?_⟩
  obtain ⟨htier, hreached, hsettled, hreported⟩ := make_finishes hsound hplan
  have hleast := hreached.isLeast hsound hsettled
  refine ⟨hleast, fun kept hkept hend => ?_, fun entities horder => ?_, htier,
    hreported⟩
  · exact (hkept.isLeast hsound hend).unique hleast
  · exact make_reorder hsound hplan horder

theorem make_keeps_least_set_layered :
    ∃ surface plan, Surface.analyze layeredPackage {} = .ok surface ∧
      make surface .public = .ok plan ∧
      plan.kept = [1, 2, 3, 5] ∧ plan.rescued = [2, 5] ∧
      IsLeast {kept | surface.Obeys .public kept} plan.keptIds := by
  obtain ⟨surface, plan, -, hanalyze, hplan, -, hkept, hrescued, -⟩ :=
    layeredPackage_plans
  exact ⟨surface, plan, hanalyze, hplan, hkept, hrescued,
    ((make_keeps_least_set hanalyze .public).2 plan hplan).1⟩

/-- A function and a module outside the package, in which there is an interface
with one property. -/
def borrowedFile : SourceFile where
  path := .text "index.d.ts"
  text := "F m A m x".toList
  root := .mk .sourceFile 0 9 0 .null
    [.mk .functionDeclaration 0 3 1 .null
      [.mk .identifier 0 1 2 .null [], .mk .identifier 2 3 3 .null []],
    .mk .moduleDeclaration 4 9 4 .null
      [.mk .identifier 4 5 5 .null [],
      .mk .interfaceDeclaration 6 9 6 .null
        [.mk .identifier 6 7 7 .null [],
        .mk .propertySignature 8 9 8 .null [.mk .identifier 8 9 9 .null []]]]]

/-- The package has a symbol of its own under the key of the interface, so that
the interface belongs to the package but takes no tag from the module. -/
def borrowedPackage : ModuleGraph where
  packageName := .text "borrowed"
  files := [borrowedFile]
  symbols := { key := .text "A#m", localName := .text "m", declarations := [] } ::
    (symbolsOf borrowedFile ["F", "A"]).map fun entry =>
      { entry with external := entry.localName.plain = "A" }
  bindings := [(3, .text "A#m")]
  exports := [(.text "F", .text "F")]
  docFlags := [(1, { releaseTag := .public }), (8, { releaseTag := .internal })]

def loudRules : Datum :=
  .record [("ae-incompatible-trim", .record [("log_level", .text "loud")])]

/-- Without a rule for its message a needed rescue makes no plan.  And what has
no tag is not below the threshold: something kept refers to an untagged
interface, but not all of its members are kept. -/
theorem make_short_of_rules :
    (∃ surface fault,
      Surface.analyze layeredPackage { rules := loudRules } = .ok surface ∧
      make surface .public = .error fault) ∧
    ∃ surface plan, Surface.analyze borrowedPackage {} = .ok surface ∧
      make surface .public = .ok plan ∧
      ∃ source ∈ surface.inventory.allDeclarations, source.id ∈ plan.keptIds ∧
        surface.isStub source = false ∧ ∃ target, surface.Refers source target ∧
        (surface.tagOf target).rank < ReleaseTag.public.rank ∧
        ¬ surface.closureIds (surface.tagOf target) target ⊆ plan.keptIds := by
  constructor
  · have hrun : (do
        let surface ← Surface.analyze layeredPackage { rules := loudRules }
        pure (make surface .public).isOk) = .ok false := by
      cbv
    simp only [bind_eq_ok, pure_eq_ok] at hrun
    obtain ⟨surface, hanalyze, hfails⟩ := hrun
    cases hmake : make surface .public with
    | error fault => exact ⟨surface, fault, hanalyze, hmake⟩
    | ok plan => simp [hmake, Except.isOk, Except.toBool] at hfails
  · have hrun : (do
        let surface ← Surface.analyze borrowedPackage {}
        let plan ← make surface .public
        pure (surface.inventory.allDeclarations.any fun source =>
          plan.kept.contains source.id && !surface.isStub source &&
          (links surface source).any fun link =>
            surface.tagOf link.target = ReleaseTag.untagged &&
            !surface.isStub link.target &&
            link.target.members.any fun member =>
              !plan.kept.contains member.id)) = .ok true := by
      cbv
    simp only [bind_eq_ok, pure_eq_ok, List.any_eq_true, Bool.and_eq_true,
      decide_eq_true_eq, Bool.not_eq_true', List.contains_eq_mem,
      decide_eq_false_iff_not] at hrun
    obtain ⟨surface, hanalyze, plan, hplan, source, hdeclared, ⟨hkept, hbody⟩,
      link, hlink, ⟨htag, htargetBody⟩, member, hmember, hmissing⟩ := hrun
    obtain ⟨hsource, hrefers⟩ := mem_links.mp hlink
    refine ⟨surface, plan, hanalyze, hplan, source, hdeclared, hkept, hbody,
      link.target, hrefers, ?_, fun hsubset => hmissing (hsubset ?_)⟩
    · rw [htag]
      decide
    · refine ⟨member, .member htargetBody hmember ?_ (.self member), rfl⟩
      rw [htag, ReleaseTag.reaches_iff]
      exact .inr (Nat.zero_le _)

/-! ## Wider tiers -/

/-- A wider tier keeps whatever a narrower one keeps, and with it whatever the narrower
one has rescued. -/
theorem make_kept_subset_of_wider (h : Surface.analyze graph router = .ok surface)
    {narrow wide : Tier} (hle : wide.threshold.rank ≤ narrow.threshold.rank) :
    (∀ rule, ruleFor surface.router.rules rescueId = .ok rule →
      ∃ narrowPlan widePlan, make surface narrow = .ok narrowPlan ∧
        make surface wide = .ok widePlan) ∧
    ∀ narrowPlan widePlan, make surface narrow = .ok narrowPlan →
      make surface wide = .ok widePlan →
      (∀ id ∈ narrowPlan.kept, id ∈ widePlan.kept) ∧
      ∀ id ∈ narrowPlan.rescued, id ∈ widePlan.kept := by
  have hsound := Surface.analyze_sound h
  constructor
  · intro rule hrule
    obtain ⟨narrowPlan, hnarrow⟩ := make_of_rule hsound hrule narrow
    obtain ⟨widePlan, hwide⟩ := make_of_rule hsound hrule wide
    exact ⟨narrowPlan, widePlan, hnarrow, hwide⟩
  · intro narrowPlan widePlan hnarrow hwide
    obtain ⟨-, hreached, -, hreported⟩ := make_finishes hsound hnarrow
    obtain ⟨-, hwideReached, hwideSettled, -⟩ := make_finishes hsound hwide
    have hobeys := hwideReached.obeys_of_settled hsound hwideSettled
    have hkept : ∀ id ∈ narrowPlan.kept, id ∈ widePlan.kept := fun _ hid =>
      hreached.subset_of_obeys (hobeys.narrower hle) hid
    exact ⟨hkept, fun id hid => hkept id (hreported.kept id hid)⟩

/-- The public plan rescues what the beta plan keeps anyway. -/
theorem make_kept_subset_of_wider_layered :
    ∃ surface narrowPlan widePlan,
      Surface.analyze layeredPackage {} = .ok surface ∧
      make surface .public = .ok narrowPlan ∧ make surface .beta = .ok widePlan ∧
      narrowPlan.kept = [1, 2, 3, 5] ∧ narrowPlan.rescued = [2, 5] ∧
      widePlan.kept = [1, 2, 3, 5] ∧ widePlan.rescued = [5] ∧
      (∀ id ∈ narrowPlan.kept, id ∈ widePlan.kept) ∧
      ∀ id ∈ narrowPlan.rescued, id ∈ widePlan.kept := by
  obtain ⟨surface, narrowPlan, widePlan, hanalyze, hnarrow, hwide, hkept, hrescued,
    hwideKept, hwideRescued⟩ := layeredPackage_plans
  exact ⟨surface, narrowPlan, widePlan, hanalyze, hnarrow, hwide, hkept, hrescued,
    hwideKept, hwideRescued,
    (make_kept_subset_of_wider hanalyze (by decide)).2 _ _ hnarrow hwide⟩

end ApiSurface.TrimPlan
