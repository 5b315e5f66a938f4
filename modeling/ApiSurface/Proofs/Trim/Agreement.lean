import ApiSurface.Proofs.Surface.Discovery
import ApiSurface.Proofs.Trim.Least

/-!
# Checks and plans agree

The checks of an analysis look at exported symbols and compare the tag of a
declaration with the most visible tag of a symbol it refers to.  A plan looks
at all entities and at the tag of each declaration by itself.  For a package
that declares all its symbols itself and names all its exports, the two agree:
where no check complains, no plan has anything to rescue.
-/

namespace ApiSurface

namespace Surface

variable {graph : ModuleGraph} {router : Router} {surface : Surface}
  {entities : List Entity} {itemized remarked : Router}

/-! ## Tags -/

theorem exists_entry_of_item {id : Nat} {item : ApiItem}
    (h : surface.item id = .ok item) : ∃ entry ∈ surface.items, entry.2 = item := by
  simp only [Surface.item, itemFor, bind_eq_ok] at h
  obtain ⟨signature, -, owner, -, h⟩ := h
  split at h
  · rename_i entry hentry
    exact ⟨entry, List.mem_of_find?_eq_some hentry, pure_eq_ok.mp h⟩
  · cases h

private theorem Steps.tagOf_ne_untagged
    (h : Steps graph router surface entities itemized remarked)
    (hlocal : ∀ entry ∈ graph.symbols, entry.external = false)
    {declaration : Declaration}
    (hdeclaration : declaration ∈ surface.inventory.allDeclarations) :
    surface.tagOf declaration ≠ .untagged := by
  obtain ⟨item, hitem⟩ := h.sound.known declaration hdeclaration
  obtain ⟨entry, hentry, rfl⟩ := exists_entry_of_item hitem
  rw [tagOf_eq hitem]
  exact apiItems_tagged (Inventory.declarations_local h.declared hlocal)
    h.itemsRun entry hentry

theorem Steps.tagOf_eq_of_ownItem
    (h : Steps graph router surface entities itemized remarked)
    {declaration : Declaration} {item : ApiItem}
    (hitem : surface.ownItem declaration = .ok item) :
    surface.tagOf declaration = item.effectiveTag := by
  have hlookup : surface.items.lookup declaration.id = some item := by
    unfold ownItem at hitem
    split at hitem
    · rename_i found hfound
      rw [hfound, Except.ok.inj hitem]
    · cases hitem
  exact tagOf_eq (h.item_of_lookup hlookup)

theorem Checked.tagOf_eq
    (h : Steps graph router surface entities itemized remarked) {key : Key}
    (hchecked : (surface.draft entities).Checked key) {one other : Declaration}
    (hone : one ∈ surface.declarationsOf key)
    (hother : other ∈ surface.declarationsOf key) :
    surface.tagOf one = surface.tagOf other := by
  obtain ⟨item, hitem⟩ := hchecked.owned one hone
  obtain ⟨found, hfound⟩ := hchecked.owned other hother
  rw [h.tagOf_eq_of_ownItem hitem, h.tagOf_eq_of_ownItem hfound]
  exact hchecked.same one hone other hother item found hitem hfound

/-! ## References -/

theorem Closure.mem_walk {threshold : ReleaseTag} {outer inner : Declaration}
    (h : Closure surface threshold outer inner) : inner ∈ outer.walk := by
  induction h with
  | self declaration => exact Declaration.mem_walk_self declaration
  | member _ isMember _ _ ih =>
      rw [Declaration.walk_eq]
      exact List.mem_cons_of_mem _ (Declaration.mem_walkAll.mpr ⟨_, isMember, ih⟩)

/-- Without complaints, what is part of an entity refers only to entities, and
only to such that are at least as visible as itself. -/
theorem Steps.tagOf_le_of_reference
    (h : Steps graph router surface entities itemized remarked)
    (hquiet : surface.router.Quiet)
    (hlocal : ∀ entry ∈ graph.symbols, entry.external = false)
    (hnames : ∀ entry ∈ graph.exports, entry.1.present = true)
    {outer source target : Declaration} (houter : surface.Listed outer)
    (hsource : source ∈ outer.walk) {key : Key} {symbol : Symbol}
    (hrefers : .symbol key ∈ surface.references.of source.id)
    (hsymbol : surface.inventory.symbol? key = some symbol)
    (htarget : target ∈ surface.declarationsOf key) :
    surface.Listed target ∧
      (surface.tagOf source).rank ≤ (surface.tagOf target).rank := by
  have hchecked := h.checked hquiet hlocal hnames
  have hsymbolLocal := Inventory.symbol?_local h.declared hlocal hsymbol
  obtain ⟨outerEntity, houterEntity, houterId⟩ := entity?_isSome_iff.mp houter.2
  obtain ⟨⟨entity, hentity, -⟩, highest, hhighest, hrank⟩ :=
    (hchecked outerEntity houterEntity _ houterId).compatible source
      (Declaration.mem_walkAll.mpr
        ⟨outer, Inventory.mem_declarationsOf.mpr ⟨houter.1, rfl⟩, hsource⟩)
      _ hrefers key symbol rfl hsymbol hsymbolLocal
  have hmem : entity ∈ surface.entities :=
    (sortByKey_perm h.sorted).mem_iff.mpr (List.mem_of_find?_eq_some hentity)
  have hid : entity.subject.id = .symbol key := by
    simpa using List.find?_some hentity
  obtain ⟨hdeclared, hkey⟩ := Inventory.mem_declarationsOf.mp htarget
  refine ⟨⟨hdeclared, entity?_isSome_iff.mpr ⟨entity, hmem, hkey ▸ hid⟩⟩, ?_⟩
  refine hrank.trans (maxReleaseTag_le hhighest fun other hother => ?_)
  rw [← (hchecked entity hmem key hid).tagOf_eq h hother htarget]
  rfl

end Surface

namespace TrimPlan

/-! ## Plans that rescue nothing -/

/-- Where no check complains, no plan rescues anything: whatever a kept
declaration refers to reaches the threshold by its own tag. -/
theorem make_rescues_nothing {graph : ModuleGraph} {router : Router}
    {surface : Surface} (h : Surface.analyze graph router = .ok surface)
    (hlocal : ∀ entry ∈ graph.symbols, entry.external = false)
    (hnames : ∀ entry ∈ graph.exports, entry.1.present = true)
    (hquiet : surface.router.Quiet) (tier : Tier) :
    ∃ plan, make surface tier = .ok plan ∧
      plan.rescued = [] ∧ plan.messages = [] ∧
      ∀ source ∈ surface.inventory.allDeclarations, source.id ∈ plan.kept →
        ∀ key symbol, .symbol key ∈ surface.references.of source.id →
        surface.inventory.symbol? key = some symbol →
        ∀ target ∈ surface.declarationsOf key,
          (surface.tagOf target).reaches tier.threshold = true := by
  obtain ⟨entities, itemized, remarked, hsteps⟩ := Surface.analyze_steps h
  have hsound := hsteps.sound
  -- What is visible has a tag, so that whatever is as visible is visible too.
  have hreaches : ∀ source ∈ surface.inventory.allDeclarations,
      source.id ∈ surface.visibleIds tier.threshold →
      ∀ key symbol, .symbol key ∈ surface.references.of source.id →
      surface.inventory.symbol? key = some symbol →
      ∀ target ∈ surface.declarationsOf key, surface.Listed target ∧
        (surface.tagOf target).reaches tier.threshold = true := by
    rintro source hdeclared ⟨outer, houter, hvisible, hmem⟩ key symbol hrefers
      hsymbol target htarget
    have hclosure := Surface.closure_of_id_mem hsound houter.1 hdeclared hmem
    obtain ⟨hlisted, hrank⟩ := hsteps.tagOf_le_of_reference hquiet hlocal hnames
      houter hclosure.mem_walk hrefers hsymbol htarget
    have hsource := (ReleaseTag.reaches_iff.mp (hclosure.reaches hvisible)).resolve_left
      (hsteps.tagOf_ne_untagged hlocal hdeclared)
    exact ⟨hlisted, ReleaseTag.reaches_iff.mpr (.inr (hsource.trans hrank))⟩
  have hsettled : surface.Settled (surface.visibleIds tier.threshold) := by
    rintro source hdeclared hkept - target ⟨hrefers, ⟨symbol, hsymbol, -⟩, hlisted⟩
    obtain ⟨-, htarget⟩ := hreaches source hdeclared hkept _ symbol hrefers hsymbol
      target (Inventory.mem_declarationsOf.mpr ⟨hlisted.1, rfl⟩)
    exact ⟨target, hlisted, htarget, Surface.mem_closureIds_self target⟩
  obtain ⟨plan, hplan, hkept, hrescued, hmessages⟩ := make_of_settled hsound hsettled
  refine ⟨plan, hplan, hrescued, hmessages, ?_⟩
  intro source hdeclared hmem key symbol hrefers hsymbol target htarget
  have hvisible : source.id ∈ surface.visibleIds tier.threshold := hkept ▸ hmem
  exact (hreaches source hdeclared hvisible key symbol hrefers hsymbol target htarget).2

def risingPackage : ModuleGraph :=
  { layeredPackage with
    exports := [(.text "_A", .text "A"), (.text "B", .text "B"), (.text "C", .text "C")]
    docFlags := [(1, { releaseTag := .internal }), (4, { releaseTag := .beta }),
      (11, { releaseTag := .public })] }

theorem plan_of_run {graph : ModuleGraph} {tier : Tier} {kept rescued : List Nat}
    (h : (do
      let surface ← Surface.analyze graph {}
      let plan ← make surface tier
      pure (surface.router.messages.length, plan.kept, plan.rescued)) =
        .ok (0, kept, rescued)) :
    ∃ surface plan, Surface.analyze graph {} = .ok surface ∧
      surface.router.messages = [] ∧ make surface tier = .ok plan ∧
      plan.kept = kept ∧ plan.rescued = rescued := by
  simp only [bind_eq_ok, pure_eq_ok, Prod.mk.injEq, List.length_eq_zero_iff] at h
  obtain ⟨surface, hanalyze, plan, hplan, hmessages, hplanned⟩ := h
  exact ⟨surface, plan, hanalyze, hmessages, hplan, hplanned⟩

theorem layeredPackage_local :
    ∀ entry ∈ layeredPackage.symbols, entry.external = false := by
  intro entry hentry
  obtain ⟨_, -, rfl⟩ := List.mem_map.mp hentry
  rfl

theorem make_rescues_nothing_rising :
    ∃ surface plan, Surface.analyze risingPackage {} = .ok surface ∧
      surface.router.Quiet ∧ make surface .beta = .ok plan ∧
      plan.kept = [2, 3, 4, 5] ∧ plan.rescued = [] := by
  obtain ⟨surface, plan, hanalyze, hmessages, hplan, hkept, -⟩ :
      ∃ surface plan, Surface.analyze risingPackage {} = .ok surface ∧
        surface.router.messages = [] ∧ make surface .beta = .ok plan ∧
        plan.kept = [2, 3, 4, 5] ∧ plan.rescued = [] := plan_of_run (by cbv)
  have hquiet : surface.router.Quiet := by simp [Router.Quiet, hmessages]
  obtain ⟨found, hfound, hrescued, -⟩ := make_rescues_nothing hanalyze
    layeredPackage_local (by simp [risingPackage, Datum.present]) hquiet .beta
  obtain rfl : plan = found := Except.ok.inj (hplan.symm.trans hfound)
  exact ⟨surface, plan, hanalyze, hquiet, hplan, hkept, hrescued⟩

/-- The first layer is exported under a name of any form, the others are not. -/
def exportedUnder (name : Datum) : ModuleGraph :=
  { layeredPackage with exports := [(name, .text "A")] }

/-- A name that counts as absent exports nothing, so that nothing is checked
where something has to be rescued. -/
theorem make_rescues_unchecked :
    (∀ entry ∈ (exportedUnder (.bool false)).symbols, entry.external = false) ∧
    (∃ surface plan, Surface.analyze (exportedUnder (.bool false)) {} = .ok surface ∧
      surface.router.messages = [] ∧ make surface .public = .ok plan ∧
      plan.kept = [1, 2, 3, 5] ∧ plan.rescued = [2, 5]) ∧
    ∃ surface plan, Surface.analyze (exportedUnder (.text "")) {} = .ok surface ∧
      surface.router.messages = [] ∧ make surface .public = .ok plan ∧
      plan.kept = [1, 2, 3, 5] ∧ plan.rescued = [2, 5] :=
  ⟨layeredPackage_local, plan_of_run (by cbv), plan_of_run (by cbv)⟩

end TrimPlan

end ApiSurface
