import ApiSurface.Proofs.Surface.Analysis
import ApiSurface.Proofs.Surface.Forest

/-!
# When every declaration has its metadata

Grouping accessors never fails, and makes exactly those setters ancillary whose
symbol has a getter.  Items are computed in the order of the numbers, so that a
parent comes before its members.  An ancillary parent has no item of its own,
though, and its members find none.  The computation therefore completes exactly
if no declaration is stranded in an ancillary one.
-/

namespace ApiSurface

/-! ## Grouping accessors never fails -/

namespace Inventory

variable {graph : ModuleGraph} {inventory : Inventory} {signatures : Signatures}

def isAncillary (inventory : Inventory) (declaration : Declaration) : Bool :=
  declaration.kind = .setAccessor &&
    (inventory.declarationsOf declaration.symbol.key).any fun sibling =>
      sibling.kind = .getAccessor

/-- A declaration that needs an item, and whose parent has none. -/
def isStranded (inventory : Inventory) (declaration : Declaration) : Bool :=
  !inventory.isAncillary declaration &&
    (declaration.parent.bind inventory.declaration?).any inventory.isAncillary

theorem declaration?_id (hdistinct : (inventory.allDeclarations.map Declaration.id).Nodup)
    {declaration : Declaration} (hdeclaration : declaration ∈ inventory.allDeclarations) :
    inventory.declaration? declaration.id = some declaration :=
  find?_key hdistinct hdeclaration

private theorem allPairs_functional
    (hdistinct : (inventory.allDeclarations.map Declaration.id).Nodup)
    {first second setter : Nat} (hfirst : (first, setter) ∈ inventory.allPairs)
    (hsecond : (second, setter) ∈ inventory.allPairs) : first = second := by
  obtain ⟨one, hone, hid, -, getter, -, hgetter, rfl, -⟩ := mem_allPairs_getterFor hfirst
  obtain ⟨other, hother, hid', -, getter', -, hgetter', rfl, -⟩ :=
    mem_allPairs_getterFor hsecond
  have hsame : one = other :=
    List.inj_on_of_nodup_map hdistinct hone hother (hid.trans hid'.symm)
  subst hsame
  rw [hgetter] at hgetter'
  exact congrArg Declaration.id (Option.some.inj hgetter')

theorem allPairs_disjoint
    (hdistinct : (inventory.allDeclarations.map Declaration.id).Nodup)
    {getter setter other : Nat} (hgetter : (other, setter) ∈ inventory.allPairs) :
    (setter, getter) ∉ inventory.allPairs := by
  intro hsetter
  obtain ⟨-, one, hone, hid, hset⟩ := mem_allPairs hgetter
  obtain ⟨⟨two, htwo, hid', hget⟩, -⟩ := mem_allPairs hsetter
  have hsame : one = two :=
    List.inj_on_of_nodup_map hdistinct hone htwo (hid.trans hid'.symm)
  rw [hsame, hget] at hset
  cases hset

private theorem sameSymbol_of_mem_allPairs
    (hdistinct : (inventory.allDeclarations.map Declaration.id).Nodup)
    {pair : Nat × Nat} (h : pair ∈ inventory.allPairs) :
    inventory.sameSymbol pair.1 pair.2 = true := by
  obtain ⟨setter, hsetter, hid, -, getter, hgetter, -, hid', -⟩ := mem_allPairs_getterFor h
  rw [mem_declarationsOf] at hgetter
  rw [sameSymbol, ← hid, ← hid', declaration?_id hdistinct hsetter,
    declaration?_id hdistinct hgetter.1]
  simpa using hgetter.2

private theorem isAncillary_iff (hdeclared : ofGraph graph = .ok inventory)
    {declaration : Declaration} (hdeclaration : declaration ∈ inventory.allDeclarations) :
    inventory.isAncillary declaration = true ↔
      ∃ getter, (getter, declaration.id) ∈ inventory.allPairs := by
  have hdistinct := ids_nodup hdeclared
  constructor
  · intro h
    simp only [isAncillary, Bool.and_eq_true, decide_eq_true_eq, List.any_eq_true] at h
    obtain ⟨hset, sibling, hsibling, hget⟩ := h
    have hother : sibling.id ≠ declaration.id := by
      intro hid
      have hsame := List.inj_on_of_nodup_map hdistinct
        (mem_declarationsOf.mp hsibling).1 hdeclaration hid
      rw [hsame, hset] at hget
      cases hget
    obtain ⟨getter, hgetter⟩ : ∃ getter, getterFor?
        (inventory.declarationsOf declaration.symbol.key) declaration = some getter := by
      rw [← Option.isSome_iff_exists, getterFor?, List.find?_isSome]
      exact ⟨sibling, hsibling, by simp [hother, hget]⟩
    -- The symbol of a declaration is in the table, and its pairs with it.
    refine ⟨getter.id, List.mem_flatMap.mpr
      ⟨declaration.symbol, symbol_mem hdeclared hdeclaration, ?_⟩⟩
    refine List.mem_filterMap.mpr ⟨declaration, ?_, by rw [hgetter]; rfl⟩
    exact List.mem_filter.mpr ⟨mem_declarationsOf.mpr ⟨hdeclaration, rfl⟩, by simpa using hset⟩
  · rintro ⟨id, hpair⟩
    obtain ⟨setter, hsetter, hid, hset, getter, hgetter, -, -, hget⟩ :=
      mem_allPairs_getterFor hpair
    obtain rfl : setter = declaration :=
      List.inj_on_of_nodup_map hdistinct hsetter hdeclaration hid
    simp only [isAncillary, Bool.and_eq_true, decide_eq_true_eq, List.any_eq_true]
    exact ⟨hset, getter, hgetter, hget⟩

end Inventory

namespace Signatures

theorem primary?_update_setPrimary {primary : Mention} {id other : Nat}
    {signatures : Signatures} :
    primary? (update (setPrimary primary) id signatures) other =
      if other = id then (signatures.lookup other).map fun _ => primary
      else primary? signatures other := by
  rw [primary?, lookup_update]
  split
  · cases signatures.lookup other <;> rfl
  · rfl

private theorem attach_of_lookup {signatures : Signatures} (primary ancillary : Mention)
    (same : Bool) {target source : Signature}
    (htarget : signatures.lookup primary.id = some target)
    (hsource : signatures.lookup ancillary.id = some source) :
    signatures.attach same primary ancillary =
      if target.ancillaries.any fun other => other.id = ancillary.id then .ok signatures
      else match ancillaryDefect? target source same with
        | some defect => .error (.defect defect)
        | none => .ok (update (addAncillary ancillary) primary.id
            (update (setPrimary primary) ancillary.id signatures)) := by
  simp only [attach, record, htarget, hsource, bind, Except.bind]
  rfl

/-- Records of which only pairs were written down: what a primary lists are
its setters, and they know that they are ancillary. -/
structure Attached (pairs : List (Nat × Nat)) (first signatures : Signatures) : Prop where
  grouped : Grouped pairs first signatures
  coherent : signatures.Coherent
  listed : signatures.Listed
  owned : ∀ id signature, signatures.lookup id = some signature →
    ∀ other ∈ signature.ancillaries,
      (id, other.id) ∈ pairs ∧ (signatures.primary? other.id).isSome = true

/-- What was ancillary stays so. -/
theorem primary?_isSome_attached {signatures : Signatures} {pair : Nat × Nat} {id : Nat}
    (h : (signatures.primary? id).isSome = true) :
    (primary? (update (addAncillary { id := pair.2 }) pair.1
      (update (setPrimary { id := pair.1 }) pair.2 signatures)) id).isSome = true := by
  rw [primary?_addAncillary, primary?_update_setPrimary]
  split
  · rw [primary?] at h
    cases hlookup : signatures.lookup id with
    | none => simp [hlookup] at h
    | some signature => simp
  · exact h

theorem Attached.attach {pairs : List (Nat × Nat)} {first signatures result : Signatures}
    {same : Bool} {pair : Nat × Nat} (hattached : Attached pairs first signatures)
    (hpair : pair ∈ pairs) (hrecorded : (signatures.lookup pair.2).isSome = true)
    (h : signatures.attach same { id := pair.1 } { id := pair.2 } = .ok result) :
    Attached pairs first result := by
  refine ⟨hattached.grouped.attach hpair h, hattached.coherent.attach h,
    hattached.listed.attach h, ?_⟩
  rcases attach_eq_ok h with rfl | rfl
  · exact hattached.owned
  intro id signature hlookup other hother
  rw [lookup_update, lookup_update] at hlookup
  -- Setting a primary leaves the lists alone; adding to one adds the setter of the pair.
  have hcases : (∃ old, signatures.lookup id = some old ∧ other ∈ old.ancillaries) ∨
      id = pair.1 ∧ other = { id := pair.2 } := by
    cases hold : signatures.lookup id with
    | none => simp [hold] at hlookup
    | some old =>
        have hsame : ∀ primary, (setPrimary primary old).ancillaries = old.ancillaries :=
          fun _ => rfl
        by_cases hprimary : id = pair.1 <;> by_cases hancillary : id = pair.2 <;>
          simp only [hold, hprimary, hancillary, if_true, if_false, Option.map_some,
            Option.some.injEq] at hlookup <;> grind [addAncillary, setPrimary]
  rcases hcases with ⟨old, hold, hlisted⟩ | ⟨rfl, rfl⟩
  · obtain ⟨hmem, hsome⟩ := hattached.owned id old hold other hlisted
    exact ⟨hmem, primary?_isSome_attached hsome⟩
  · refine ⟨hpair, ?_⟩
    rw [primary?_addAncillary, primary?_update_setPrimary, if_pos rfl, Option.isSome_map]
    exact hrecorded

end Signatures

namespace Inventory

variable {graph : ModuleGraph} {inventory : Inventory}

theorem signatures_recorded {declaration : Declaration}
    (hdeclaration : declaration ∈ inventory.allDeclarations) :
    ((inventory.signatures graph).lookup declaration.id).isSome = true := by
  cases hlookup : (inventory.signatures graph).lookup declaration.id with
  | some signature => rfl
  | none =>
      have hnone := List.lookup_eq_none_iff.mp hlookup _
        (List.mem_map.mpr ⟨declaration, hdeclaration, rfl⟩)
      simp at hnone

theorem attached_signatures (pairs : List (Nat × Nat)) :
    Signatures.Attached pairs (inventory.signatures graph) (inventory.signatures graph) := by
  refine ⟨⟨fun _ => rfl, fun id primary h => ?_⟩, signatures_coherent graph,
    fun id primary h => ?_, ?_⟩
  · rw [primary?_signatures] at h
    cases h
  · rw [primary?_signatures] at h
    cases h
  · intro id signature hlookup other hother
    obtain ⟨declaration, -, hentry⟩ := List.mem_map.mp (Entries.mem_of_lookup hlookup)
    rw [← (Prod.mk.inj hentry).2] at hother
    cases hother

/-- Only setters are ancillary, only getters list any, and a setter that is
ancillary already is listed by this getter. -/
theorem ancillaryDefect?_eq_none (hdeclared : ofGraph graph = .ok inventory)
    {pair : Nat × Nat} (hpair : pair ∈ inventory.allPairs) {signatures : Signatures}
    (hattached : Signatures.Attached inventory.allPairs (inventory.signatures graph)
      signatures) {target source : Signature}
    (htarget : signatures.lookup pair.1 = some target)
    (hsource : signatures.lookup pair.2 = some source)
    (hunlisted : ¬(target.ancillaries.any fun other => other.id = pair.2) = true) :
    Signatures.ancillaryDefect? target source (inventory.sameSymbol pair.1 pair.2) =
      none := by
  have hdistinct := ids_nodup hdeclared
  have hprimary : target.isAncillary = false := by
    rw [hattached.coherent _ _ htarget]
    cases hfound : target.primary with
    | none => rfl
    | some primary =>
        have hpaired := (hattached.grouped.paired pair.1 primary
          (by simp [Signatures.primary?, htarget, hfound])).1
        exact absurd hpair (allPairs_disjoint hdistinct hpaired)
  have hfree : source.isAncillary = false := by
    rw [hattached.coherent _ _ hsource]
    cases hfound : source.primary with
    | none => rfl
    | some primary =>
        have hknown : signatures.primary? pair.2 = some primary := by
          simp [Signatures.primary?, hsource, hfound]
        have hpaired := (hattached.grouped.paired pair.2 primary hknown).1
        have hsame : primary.id = pair.1 := allPairs_functional hdistinct hpaired hpair
        obtain ⟨owner, howner, other, hother, hid⟩ := hattached.listed pair.2 primary hknown
        rw [hsame, htarget, Option.some.injEq] at howner
        subst howner
        exact absurd (List.any_eq_true.mpr ⟨other, hother, by simpa using hid⟩) hunlisted
  have hnone : source.ancillaries = [] := by
    cases hlist : source.ancillaries with
    | nil => rfl
    | cons other rest =>
        have howned := (hattached.owned pair.2 source hsource other (by simp [hlist])).1
        exact absurd howned (allPairs_disjoint hdistinct hpair)
  simp [Signatures.ancillaryDefect?, sameSymbol_of_mem_allPairs hdistinct hpair, hprimary,
    hfree, hnone]

/-- A pair can be attached at any time.  Its setter is ancillary then, and what
was ancillary stays so. -/
theorem attach_succeeds (hdeclared : ofGraph graph = .ok inventory) {pair : Nat × Nat}
    (hpair : pair ∈ inventory.allPairs) {signatures : Signatures}
    (hattached : Signatures.Attached inventory.allPairs (inventory.signatures graph)
      signatures) :
    ∃ result, signatures.attach (inventory.sameSymbol pair.1 pair.2) { id := pair.1 }
        { id := pair.2 } = .ok result ∧
      Signatures.Attached inventory.allPairs (inventory.signatures graph) result ∧
      (∀ id, (signatures.primary? id).isSome = true → (result.primary? id).isSome = true) ∧
      (result.primary? pair.2).isSome = true := by
  obtain ⟨⟨getter, hgetter, hgetterId, -⟩, setter, hsetter, hsetterId, -⟩ :=
    mem_allPairs hpair
  obtain ⟨target, htarget⟩ : ∃ target, signatures.lookup pair.1 = some target := by
    rw [← Option.isSome_iff_exists, hattached.grouped.recorded, ← hgetterId]
    exact signatures_recorded hgetter
  obtain ⟨source, hsource⟩ : ∃ source, signatures.lookup pair.2 = some source := by
    rw [← Option.isSome_iff_exists, hattached.grouped.recorded, ← hsetterId]
    exact signatures_recorded hsetter
  have hrun := Signatures.attach_of_lookup { id := pair.1 } { id := pair.2 }
    (inventory.sameSymbol pair.1 pair.2) htarget hsource
  by_cases hlisted : (target.ancillaries.any fun other => other.id = pair.2) = true
  · rw [if_pos hlisted] at hrun
    refine ⟨signatures, hrun, hattached, fun _ => id, ?_⟩
    obtain ⟨other, hother, hid⟩ := List.any_eq_true.mp hlisted
    rw [← of_decide_eq_true hid]
    exact (hattached.owned pair.1 target htarget other hother).2
  · rw [if_neg hlisted, ancillaryDefect?_eq_none hdeclared hpair hattached htarget hsource
      hlisted] at hrun
    have hrecorded : (signatures.lookup pair.2).isSome = true := by simp [hsource]
    refine ⟨_, hrun, hattached.attach hpair hrecorded hrun,
      fun id => Signatures.primary?_isSome_attached, ?_⟩
    rw [Signatures.primary?_addAncillary, Signatures.primary?_update_setPrimary, if_pos rfl,
      Option.isSome_map]
    exact hrecorded

theorem groupAccessors_succeeds (hdeclared : ofGraph graph = .ok inventory) :
    ∃ signatures, inventory.groupAccessors graph = .ok signatures ∧
      Signatures.Attached inventory.allPairs (inventory.signatures graph) signatures ∧
      ∀ pair ∈ inventory.allPairs, (signatures.primary? pair.2).isSome = true := by
  refine foldlM_succeeds (fun (done : List (Nat × Nat)) signatures =>
    Signatures.Attached inventory.allPairs (inventory.signatures graph) signatures ∧
      ∀ pair ∈ done, (signatures.primary? pair.2).isSome = true) ?_
    [] ⟨attached_signatures _, by simp⟩
  rintro done pair state hpair ⟨hattached, hdone⟩
  obtain ⟨result, hrun, hresult, hkept, hnew⟩ := attach_succeeds hdeclared hpair hattached
  refine ⟨result, hrun, hresult, ?_⟩
  intro other hother
  rcases List.mem_append.mp hother with hother | hother
  · exact hkept _ (hdone other hother)
  · rw [List.mem_singleton.mp hother]
    exact hnew

end Inventory

/-! ## Parents come before their members -/

namespace Declaration

def ParentsFirst : List Nat → List Declaration → Prop
  | _, [] => True
  | known, declaration :: rest =>
      (∀ parent, declaration.parent = some parent → parent ∈ known) ∧
        ParentsFirst (declaration.id :: known) rest

theorem ParentsFirst.mono {known more : List Nat} {declarations : List Declaration}
    (hmore : known ⊆ more) (h : ParentsFirst known declarations) :
    ParentsFirst more declarations := by
  induction declarations generalizing known more with
  | nil => trivial
  | cons declaration rest ih =>
      refine ⟨fun parent hparent => hmore (h.1 parent hparent), ih ?_ h.2⟩
      exact List.cons_subset_cons _ hmore

theorem ParentsFirst.append {known : List Nat} {first second : List Declaration}
    (hfirst : ParentsFirst known first) (hsecond : ParentsFirst known second) :
    ParentsFirst known (first ++ second) := by
  induction first generalizing known with
  | nil => exact hsecond
  | cons declaration rest ih =>
      exact ⟨hfirst.1, ih hfirst.2 (hsecond.mono (List.subset_cons_self _ _))⟩

theorem ParentsFirst.mem {known : List Nat} {declarations : List Declaration}
    (h : ParentsFirst known declarations) {declaration : Declaration}
    (hdeclaration : declaration ∈ declarations) {parent : Nat}
    (hparent : declaration.parent = some parent) :
    parent ∈ known ∨ ∃ other ∈ declarations, other.id = parent := by
  induction declarations generalizing known with
  | nil => cases hdeclaration
  | cons first rest ih =>
      rcases List.mem_cons.mp hdeclaration with rfl | hdeclaration
      · exact .inl (h.1 parent hparent)
      rcases ih h.2 hdeclaration with hknown | ⟨other, hother, hid⟩
      · rcases List.mem_cons.mp hknown with rfl | hknown
        · exact .inr ⟨first, by simp, rfl⟩
        · exact .inl hknown
      · exact .inr ⟨other, List.mem_cons_of_mem first hother, hid⟩

end Declaration

namespace SymbolTable

open Declaration (walkAll ParentsFirst)

theorem Members.parentsFirst {symbols : List Symbol} {file : SourceFile}
    {ancestors nodes : List Node} {owner : Symbol} {number : Nat}
    {declarations : List Declaration}
    (h : Members symbols file ancestors owner number nodes declarations) {known : List Nat}
    (hknown : number ∈ known) : ParentsFirst known (walkAll declarations) := by
  induction h generalizing known with
  | nil => trivial
  | declared _ _ _ _ _ _ below after =>
      rw [walkAll, Declaration.walk, List.cons_append]
      refine ⟨fun parent hparent => ?_, ?_⟩
      · rwa [← Option.some.inj hparent]
      · exact (below (by simp [Declaration.id])).append
          (after (List.mem_cons_of_mem _ hknown))
  | through _ _ _ below after =>
      rw [Declaration.walkAll_append]
      exact (below hknown).append (after hknown)

theorem Declares.parentsFirst {symbols : List Symbol} {symbol : Symbol} {site : Site}
    {declaration : Declaration} (h : Declares symbols symbol none site declaration) :
    ParentsFirst [] declaration.walk := by
  obtain ⟨_, below⟩ := h
  rw [Declaration.walk]
  refine ⟨fun parent hparent => (by cases hparent), ?_⟩
  exact below.parentsFirst (by simp [Declaration.id])

end SymbolTable

theorem Inventory.Forest.parentsFirst {graph : ModuleGraph} {inventory : Inventory}
    (h : inventory.Forest graph) :
    Declaration.ParentsFirst [] inventory.allDeclarations := by
  have hall : ∀ declarations : List Declaration,
      (∀ outer ∈ declarations, Declaration.ParentsFirst [] outer.walk) →
      Declaration.ParentsFirst [] (Declaration.walkAll declarations) := by
    intro declarations houter
    induction declarations with
    | nil => trivial
    | cons outer rest ih =>
        have hrest := ih fun other hother => houter other (by simp [hother])
        exact (houter outer (by simp)).append hrest
  refine hall _ fun outer houter => ?_
  obtain ⟨_, _, _, _, _, _, _, hdeclares⟩ := h.exists_site houter
  exact hdeclares.parentsFirst

/-! ## Computing the items -/

/-- The rules for the two kinds of messages that computing items can record. -/
structure ItemRules (rules : Datum) : Prop where
  setterWithDocs : ∃ rule, ruleFor rules (.text "ae-setter-with-docs") = .ok rule
  preapprovedUnsupported :
    ∃ rule, ruleFor rules (.text "ae-preapproved-unsupported-type") = .ok rule

private theorem record_run {issue : Issue} {router : Router}
    (hrule : ∃ rule, ruleFor router.rules issue.id = .ok rule) :
    ∃ after, (record issue).run router = .ok ((), after) ∧ after.rules = router.rules := by
  obtain ⟨rule, hrule⟩ := hrule
  obtain ⟨message, hmessage⟩ : ∃ message, router.judge issue = .ok message := by
    simp only [Router.judge, hrule, bind, Except.bind]
    exact ⟨_, rfl⟩
  refine ⟨router.add message, ?_, rfl⟩
  simp only [record, run_bind_eq_ok, run_liftM_eq_ok]
  exact ⟨router, router, rfl, message, router, ⟨hmessage, rfl⟩, rfl⟩

theorem run_noting (condition : Prop) [Decidable condition] (issue : Issue)
    {router : Router} (hrule : ∃ rule, ruleFor router.rules issue.id = .ok rule)
    (items : ApiItems) :
    ∃ after, (if condition then record issue >>= fun _ => pure items
        else pure items : Inspecting ApiItems).run router = .ok (items, after) ∧
      after.rules = router.rules := by
  by_cases hcondition : condition
  · obtain ⟨after, hrun, hrules⟩ := record_run hrule
    refine ⟨after, ?_, hrules⟩
    rw [if_pos hcondition, run_bind_eq_ok]
    exact ⟨(), after, hrun, rfl⟩
  · refine ⟨router, ?_, rfl⟩
    rw [if_neg hcondition]
    rfl

section Items

variable {graph : ModuleGraph} {signatures : Signatures} {items : ApiItems}
  {declaration : Declaration} {signature : Signature} {router : Router}
  {known : List Nat}

private theorem addApiItem_of_ancillary (hrules : ItemRules router.rules)
    (hlookup : signatures.lookup declaration.id = some signature)
    (hancillary : signature.isAncillary = true) :
    ∃ after, (addApiItem graph signatures items declaration).run router =
      .ok (items, after) ∧ after.rules = router.rules := by
  obtain ⟨after, hrun, hkept⟩ := run_noting
    ((declaration.kind = .setAccessor && signature.documented.present) = true)
    (setterWithDocs declaration) hrules.setterWithDocs items
  refine ⟨after, ?_, hkept⟩
  simp only [addApiItem, run_bind_eq_ok, run_liftM_eq_ok]
  refine ⟨signature, router, ⟨by simp [Signatures.record, hlookup], rfl⟩, ?_⟩
  rw [if_pos hancillary]
  exact hrun

private theorem addApiItem_of_parent (hrules : ItemRules router.rules)
    (hlookup : signatures.lookup declaration.id = some signature)
    (hprimary : signature.isAncillary = false) {parent : Option ApiItem}
    (hparent : parentItem items declaration = .ok parent) :
    ∃ item after, (addApiItem graph signatures items declaration).run router =
      .ok (items ++ [(declaration.id, item)], after) ∧ after.rules = router.rules := by
  let item := apiItem (graph.flagsFor declaration.node) declaration.kind
    declaration.symbol.external parent
  obtain ⟨after, hrun, hkept⟩ := run_noting
    (((graph.flagsFor declaration.node).isPreapproved.present &&
      !declaration.kind.isPreapprovable) = true)
    (preapprovedUnsupported declaration) hrules.preapprovedUnsupported
    (items ++ [(declaration.id, item)])
  refine ⟨item, after, ?_, hkept⟩
  simp only [addApiItem, run_bind_eq_ok, run_liftM_eq_ok]
  refine ⟨signature, router, ⟨by simp [Signatures.record, hlookup], rfl⟩, ?_⟩
  rw [if_neg (by simp [hprimary])]
  simp only [run_bind_eq_ok, run_liftM_eq_ok]
  exact ⟨parent, router, ⟨hparent, rfl⟩, hrun⟩

theorem addApiItem_without_parent (hlookup : signatures.lookup declaration.id = some signature)
    (hprimary : signature.isAncillary = false) {fault : Fault}
    (hparent : parentItem items declaration = .error fault) :
    (addApiItem graph signatures items declaration).run router = .error fault := by
  have hrecord : signatures.record declaration.id = .ok signature := by
    simp [Signatures.record, hlookup]
  simp only [addApiItem, hrecord, hparent]
  rw [StateT.run_bind]
  change (if signature.isAncillary = true then _ else _ : Inspecting ApiItems).run router = _
  rw [if_neg (by simp [hprimary])]
  rfl

/-- The declaration needs an item, and its parent is ancillary. -/
def Signatures.strands (signatures : Signatures) (declaration : Declaration) : Bool :=
  (signatures.primary? declaration.id).isNone &&
    declaration.parent.any fun parent => (signatures.primary? parent).isSome

structure ItemsFor (signatures : Signatures) (known : List Nat) (items : ApiItems) : Prop where
  primary : ∀ id, (items.lookup id).isSome = true → signatures.primary? id = none
  complete : ∀ id ∈ known, signatures.primary? id = none → (items.lookup id).isSome = true

theorem ItemsFor.nil : ItemsFor signatures [] [] := ⟨by simp, by simp⟩

theorem ItemsFor.skip (hitems : ItemsFor signatures known items)
    (hancillary : signatures.primary? declaration.id ≠ none) :
    ItemsFor signatures (declaration.id :: known) items := by
  refine ⟨hitems.primary, fun id hid hnone => ?_⟩
  rcases List.mem_cons.mp hid with rfl | hid
  · exact absurd hnone hancillary
  · exact hitems.complete id hid hnone

theorem ItemsFor.add {item : ApiItem}
    (hitems : ItemsFor signatures known items)
    (hprimary : signatures.primary? declaration.id = none) :
    ItemsFor signatures (declaration.id :: known) (items ++ [(declaration.id, item)]) := by
  refine ⟨fun id hsome => ?_, fun id hid hnone => ?_⟩
  · by_cases hid : id = declaration.id
    · rw [hid, hprimary]
    · have hbeq : (id == declaration.id) = false := by simpa using hid
      exact hitems.primary id (by simpa [List.lookup_append, List.lookup_cons, hbeq] using hsome)
  · rw [List.lookup_append, Option.isSome_or]
    rcases List.mem_cons.mp hid with rfl | hid
    · simp
    · rw [hitems.complete id hid hnone, Bool.true_or]

private theorem ItemsFor.parentItem_of_stranded (hitems : ItemsFor signatures known items)
    (hstranded : signatures.strands declaration = true) :
    ∃ parent, declaration.parent = some parent ∧
      parentItem items declaration = .error (.missingKey (.int parent)) := by
  simp only [Signatures.strands, Bool.and_eq_true, Option.any_eq_true] at hstranded
  obtain ⟨-, parent, hparent, hancillary⟩ := hstranded
  refine ⟨parent, hparent, ?_⟩
  have hnone : items.lookup parent = none := by
    cases hlookup : items.lookup parent with
    | none => rfl
    | some item => simp [hitems.primary parent (by simp [hlookup])] at hancillary
  simp [parentItem, hparent, hnone]

theorem ItemsFor.parentItem_of_not_stranded (hitems : ItemsFor signatures known items)
    (hparent : ∀ parent, declaration.parent = some parent → parent ∈ known)
    (hprimary : signatures.primary? declaration.id = none)
    (hstranded : signatures.strands declaration = false) :
    ∃ parent, parentItem items declaration = .ok parent := by
  unfold parentItem
  cases hfound : declaration.parent with
  | none => exact ⟨none, rfl⟩
  | some parent =>
      have hnone : signatures.primary? parent = none := by
        simpa [Signatures.strands, hprimary, hfound] using hstranded
      obtain ⟨item, hitem⟩ := Option.isSome_iff_exists.mp
        (hitems.complete parent (hparent parent hfound) hnone)
      exact ⟨some item, by simp [hitem]⟩

theorem apiItems_cons_of_ok {rest : List Declaration} {next : ApiItems} {between : Router}
    (hadd : (addApiItem graph signatures items declaration).run router =
      .ok (next, between)) :
    (apiItems graph signatures items (declaration :: rest)).run router =
      (apiItems graph signatures next rest).run between := by
  rw [apiItems, StateT.run_bind, hadd]
  rfl

private theorem apiItems_cons_of_error {rest : List Declaration} {fault : Fault}
    (hadd : (addApiItem graph signatures items declaration).run router = .error fault) :
    (apiItems graph signatures items (declaration :: rest)).run router = .error fault := by
  rw [apiItems, StateT.run_bind, hadd]
  rfl

private theorem apiItems_run (graph : ModuleGraph) {declarations : List Declaration}
    (hrules : ItemRules router.rules) (hcoherent : signatures.Coherent)
    (hrecorded : ∀ declaration ∈ declarations,
      (signatures.lookup declaration.id).isSome = true)
    (hparents : Declaration.ParentsFirst known declarations)
    (hitems : ItemsFor signatures known items) :
    match declarations.find? signatures.strands with
    | none => ∃ result after, (apiItems graph signatures items declarations).run router =
        .ok (result, after)
    | some declaration => ∃ parent, declaration.parent = some parent ∧
        (apiItems graph signatures items declarations).run router =
          .error (.missingKey (.int parent)) := by
  induction declarations generalizing known items router with
  | nil => exact ⟨items, router, rfl⟩
  | cons declaration rest ih =>
      have hrest := fun other hother => hrecorded other (List.mem_cons_of_mem _ hother)
      obtain ⟨signature, hlookup⟩ :=
        Option.isSome_iff_exists.mp (hrecorded declaration (by simp))
      have hancillary := hcoherent.isAncillary_eq hlookup
      cases hprimary : signatures.primary? declaration.id with
      | some primary =>
          have hstranded : ¬signatures.strands declaration = true := by
            simp [Signatures.strands, hprimary]
          rw [hprimary] at hancillary
          obtain ⟨between, hadd, hkept⟩ :=
            addApiItem_of_ancillary hrules hlookup hancillary
          rw [List.find?_cons_of_neg hstranded, apiItems_cons_of_ok hadd]
          exact ih (hkept ▸ hrules) hrest hparents.2 (hitems.skip (by simp [hprimary]))
      | none =>
          rw [hprimary] at hancillary
          by_cases hstranded : signatures.strands declaration = true
          · obtain ⟨parent, hparent, hmissing⟩ := hitems.parentItem_of_stranded hstranded
            rw [List.find?_cons_of_pos hstranded]
            exact ⟨parent, hparent, apiItems_cons_of_error
              (addApiItem_without_parent hlookup hancillary hmissing)⟩
          · obtain ⟨parent, hparent⟩ := hitems.parentItem_of_not_stranded hparents.1 hprimary
              (by simpa using hstranded)
            obtain ⟨item, between, hadd, hkept⟩ :=
              addApiItem_of_parent hrules hlookup hancillary hparent
            rw [List.find?_cons_of_neg hstranded, apiItems_cons_of_ok hadd]
            exact ih (hkept ▸ hrules) hrest hparents.2 (hitems.add hprimary)

end Items

/-! ## The metadata of a package -/

namespace Inventory

variable {graph : ModuleGraph} {inventory : Inventory}

def metadata (inventory : Inventory) (graph : ModuleGraph) :
    Inspecting (Signatures × ApiItems) := do
  let signatures ← inventory.groupAccessors graph
  let items ← apiItems graph signatures [] inventory.allDeclarations
  pure (signatures, items)

private theorem inspect_eq_metadata (references : References) (entities : List Entity) :
    inspect graph inventory references entities = (do
      let (signatures, items) ← inventory.metadata graph
      Surface.recordAll (graph.remarks.map inventory.remarkIssue)
      let draft : Surface :=
        { graph := graph, inventory := inventory, references := references,
          entities := entities, starExports := [], signatures := signatures,
          items := items, router := {} }
      Surface.checkEntities draft [] entities
      pure (signatures, items)) := by
  simp [inspect, metadata]

private theorem inspect_of_metadata_error {router : Router} {fault : Fault}
    (h : (inventory.metadata graph).run router = .error fault) (references : References)
    (entities : List Entity) :
    (inspect graph inventory references entities).run router = .error fault := by
  rw [inspect_eq_metadata, StateT.run_bind, h]
  rfl

theorem metadata_run {signatures : Signatures} {router : Router}
    (hgrouped : inventory.groupAccessors graph = .ok signatures) :
    (inventory.metadata graph).run router =
      ((apiItems graph signatures [] inventory.allDeclarations).run router).map
        fun result => ((signatures, result.1), result.2) := by
  simp only [metadata, hgrouped]
  change ((apiItems graph signatures [] inventory.allDeclarations).run router >>= _) = _
  cases (apiItems graph signatures [] inventory.allDeclarations).run router <;> rfl

theorem exists_parent_declaration (hdeclared : ofGraph graph = .ok inventory)
    {declaration : Declaration} (hdeclaration : declaration ∈ inventory.allDeclarations)
    {parent : Nat} (hparent : declaration.parent = some parent) :
    ∃ owner ∈ inventory.allDeclarations, owner.id = parent := by
  rcases (ofGraph_forest hdeclared).parentsFirst.mem hdeclaration hparent with h | h
  · cases h
  · exact h

theorem primary?_isSome_eq (hdeclared : ofGraph graph = .ok inventory)
    {signatures : Signatures}
    (hattached : Signatures.Attached inventory.allPairs (inventory.signatures graph)
      signatures)
    (hall : ∀ pair ∈ inventory.allPairs, (signatures.primary? pair.2).isSome = true)
    {declaration : Declaration} (hdeclaration : declaration ∈ inventory.allDeclarations) :
    (signatures.primary? declaration.id).isSome = inventory.isAncillary declaration := by
  rw [Bool.eq_iff_iff, isAncillary_iff hdeclared hdeclaration]
  constructor
  · intro h
    obtain ⟨primary, hprimary⟩ := Option.isSome_iff_exists.mp h
    exact ⟨primary.id, (hattached.grouped.paired _ primary hprimary).1⟩
  · rintro ⟨getter, hpair⟩
    exact hall _ hpair

private theorem strands_eq_isStranded (hdeclared : ofGraph graph = .ok inventory)
    {signatures : Signatures}
    (hancillary : ∀ declaration ∈ inventory.allDeclarations,
      (signatures.primary? declaration.id).isSome = inventory.isAncillary declaration)
    {declaration : Declaration} (hdeclaration : declaration ∈ inventory.allDeclarations) :
    signatures.strands declaration = inventory.isStranded declaration := by
  rw [Signatures.strands, isStranded, ← hancillary declaration hdeclaration,
    Option.not_isSome]
  congr 1
  cases hparent : declaration.parent with
  | none => rfl
  | some parent =>
      obtain ⟨owner, howner, rfl⟩ := exists_parent_declaration hdeclared hdeclaration hparent
      simp [declaration?_id (ids_nodup hdeclared) howner, hancillary owner howner]

theorem signature_known {signatures : Signatures}
    (hattached : Signatures.Attached inventory.allPairs (inventory.signatures graph)
      signatures)
    {surface : Surface} (hsurface : surface.signatures = signatures)
    {declaration : Declaration} (hdeclaration : declaration ∈ inventory.allDeclarations) :
    ∃ signature, surface.signature (.int declaration.id) = .ok signature ∧
      signature.isAncillary = (signatures.primary? declaration.id).isSome := by
  have hrecorded := hattached.grouped.recorded declaration.id
  rw [signatures_recorded hdeclaration] at hrecorded
  obtain ⟨signature, hlookup⟩ := Option.isSome_iff_exists.mp hrecorded
  refine ⟨signature, ?_, ?_⟩
  · rw [Surface.signature_int, hsurface, hlookup]
  · exact hattached.coherent.isAncillary_eq hlookup

/-- Metadata is computed for every declaration, unless one is stranded in an
ancillary setter: then the look-up of the first such parent fails. -/
theorem metadata_total_unless_stranded (hdeclared : ofGraph graph = .ok inventory)
    {router : Router} (hrules : ItemRules router.rules) :
    ((∀ declaration ∈ inventory.allDeclarations, inventory.isStranded declaration = false) →
      ∃ signatures items after,
        (inventory.metadata graph).run router = .ok ((signatures, items), after) ∧
        ∀ surface : Surface, surface.signatures = signatures → surface.items = items →
          ∀ declaration ∈ inventory.allDeclarations,
            (∃ signature, surface.signature (.int declaration.id) = .ok signature ∧
              signature.isAncillary = inventory.isAncillary declaration) ∧
            ∃ item, surface.item declaration.id = .ok item) ∧
    ∀ declaration, inventory.allDeclarations.find? inventory.isStranded = some declaration →
      ∃ parent ∈ inventory.allDeclarations, declaration.parent = some parent.id ∧
        inventory.isAncillary parent = true ∧
        (inventory.metadata graph).run router = .error (.missingKey (.int parent.id)) ∧
        ∀ references entities, (inspect graph inventory references entities).run router =
          .error (.missingKey (.int parent.id)) := by
  obtain ⟨signatures, hgrouped, hattached, hall⟩ := groupAccessors_succeeds hdeclared
  have hancillary := fun declaration (hdeclaration : declaration ∈ inventory.allDeclarations) =>
    primary?_isSome_eq hdeclared hattached hall hdeclaration
  have hfind : inventory.allDeclarations.find? signatures.strands =
      inventory.allDeclarations.find? inventory.isStranded :=
    List.find?_congr fun _ => strands_eq_isStranded hdeclared hancillary
  have hrecorded : ∀ declaration ∈ inventory.allDeclarations,
      (signatures.lookup declaration.id).isSome = true := by
    intro declaration hdeclaration
    rw [hattached.grouped.recorded]
    exact signatures_recorded hdeclaration
  have hitems :=
    apiItems_run graph hrules hattached.coherent hrecorded (ofGraph_forest hdeclared).parentsFirst
    ItemsFor.nil
  rw [hfind] at hitems
  constructor
  · intro hnone
    rw [List.find?_eq_none.mpr (by simpa using hnone)] at hitems
    obtain ⟨items, after, hrun⟩ := hitems
    refine ⟨signatures, items, after, by rw [metadata_run hgrouped, hrun]; rfl, ?_⟩
    rintro surface rfl rfl declaration hdeclaration
    obtain ⟨signature, hsignature, hprimary⟩ := signature_known hattached rfl hdeclaration
    exact ⟨⟨signature, hsignature, hprimary.trans (hancillary declaration hdeclaration)⟩,
      Surface.item_known (ids_nodup hdeclared) hgrouped hrun hdeclaration⟩
  · intro declaration hfound
    rw [hfound] at hitems
    obtain ⟨number, hnumber, hrun⟩ := hitems
    have hdeclaration := List.mem_of_find?_eq_some hfound
    obtain ⟨parent, hparent, rfl⟩ := exists_parent_declaration hdeclared hdeclaration hnumber
    have hstranded := List.find?_some hfound
    simp only [isStranded, hnumber, Option.bind_some,
      declaration?_id (ids_nodup hdeclared) hparent, Option.any_some,
      Bool.and_eq_true] at hstranded
    have hfails : (inventory.metadata graph).run router =
        .error (.missingKey (.int parent.id)) := by
      rw [metadata_run hgrouped, hrun]
      rfl
    exact ⟨parent, hparent, hnumber, hstranded.2, hfails, inspect_of_metadata_error hfails⟩

/-- A class with a getter, whose type has a property, and a setter, whose type
is of some kind. -/
def accessorFile (kind : NodeKind) : SourceFile where
  path := .text "index.d.ts"
  text := "class A get x{y} set x{z}".toList
  root := .mk .sourceFile 0 25 0 .null
    [.mk .classDeclaration 0 25 1 .null
      [.mk .classKeyword 0 5 2 .null [], .mk .identifier 6 7 3 .null [],
      .mk .getAccessor 8 16 4 .null
        [.mk .identifier 12 13 5 .null [],
        .mk .typeLiteral 13 16 6 .null
          [.mk .propertySignature 14 15 7 .null [.mk .identifier 14 15 8 .null []]]],
      .mk .setAccessor 17 25 9 .null
        [.mk .identifier 21 22 10 .null [],
        .mk .typeLiteral 22 25 11 .null
          [.mk kind 23 24 12 .null [.mk .identifier 23 24 13 .null []]]]]]

def accessorPackage (kind : NodeKind) : ModuleGraph where
  packageName := .text "accessors"
  files := [accessorFile kind]
  symbols := (accessorFile kind).root.children.map fun node =>
    { key := .text "A"
      localName := .text "A"
      declarations := [⟨accessorFile kind, [(accessorFile kind).root], node⟩] }
  exports := [(.text "A", .text "A")]

theorem itemRules_default : ItemRules ({} : Router).rules :=
  ⟨⟨_, by cbv⟩, ⟨_, by cbv⟩⟩

/-- The setter is ancillary to the getter and holds no declaration. -/
theorem metadata_total_accessors :
    ∃ inventory signatures items after,
      ofGraph (accessorPackage .parameter) = .ok inventory ∧
      (inventory.metadata (accessorPackage .parameter)).run {} =
        .ok ((signatures, items), after) ∧
      inventory.allDeclarations.map inventory.isAncillary = [false, false, false, true] ∧
      ∀ surface : Surface, surface.signatures = signatures → surface.items = items →
        ∀ declaration ∈ inventory.allDeclarations,
          ∃ item, surface.item declaration.id = .ok item := by
  have hrun : (do
      let inventory ← ofGraph (accessorPackage .parameter)
      pure (inventory.allDeclarations.map inventory.isAncillary,
        inventory.allDeclarations.all fun declaration => !inventory.isStranded declaration)) =
        .ok ([false, false, false, true], true) := by
    cbv
  simp only [bind_eq_ok, pure_eq_ok, Prod.mk.injEq, List.all_eq_true,
    Bool.not_eq_eq_eq_not, Bool.not_true] at hrun
  obtain ⟨inventory, hdeclared, hancillary, hnone⟩ := hrun
  obtain ⟨signatures, items, after, hmetadata, hknown⟩ :=
    (metadata_total_unless_stranded hdeclared itemRules_default).1 hnone
  exact ⟨inventory, signatures, items, after, hdeclared, hmetadata, hancillary,
    fun surface hsignatures hitems declaration hdeclaration =>
      (hknown surface hsignatures hitems declaration hdeclaration).2⟩

/-- A property in the type of the ancillary setter finds no item of its parent,
and the analysis ends there. -/
theorem metadata_missing_in_setter :
    ∃ inventory references entities,
      ofGraph (accessorPackage .propertySignature) = .ok inventory ∧
      inventory.references (accessorPackage .propertySignature) = .ok references ∧
      resolveEntities (accessorPackage .propertySignature) inventory references =
        .ok entities ∧
      ItemRules ({} : Router).rules ∧
      (inventory.metadata (accessorPackage .propertySignature)).run {} =
        .error (.missingKey (.int 4)) ∧
      Surface.analyze (accessorPackage .propertySignature) {} =
        .error (.missingKey (.int 4)) := by
  have hrun : (do
      let inventory ← ofGraph (accessorPackage .propertySignature)
      let references ← inventory.references (accessorPackage .propertySignature)
      let entities ← resolveEntities (accessorPackage .propertySignature) inventory references
      pure (match (inventory.metadata (accessorPackage .propertySignature)).run {} with
        | .ok _ => none
        | .error fault => some fault)) = .ok (some (.missingKey (.int 4))) := by
    cbv
  simp only [bind_eq_ok, pure_eq_ok] at hrun
  obtain ⟨inventory, hdeclared, references, hreferences, entities, hentities, hfault⟩ := hrun
  refine ⟨inventory, references, entities, hdeclared, hreferences, hentities,
    itemRules_default, ?_, by cbv⟩
  cases hmetadata : (inventory.metadata (accessorPackage .propertySignature)).run {} with
  | ok result => simp [hmetadata] at hfault
  | error fault =>
      rw [hmetadata] at hfault
      rw [Option.some.inj hfault]

end Inventory

end ApiSurface
