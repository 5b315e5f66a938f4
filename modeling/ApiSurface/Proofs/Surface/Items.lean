import ApiSurface.Proofs.Surface.Forest
import ApiSurface.Surface.Basic

/-!
# Every declaration has an API item

A setter that is ancillary to a getter shares the item of the getter.  Since a
getter never becomes ancillary itself, looking up the item of a declaration
takes at most one detour, and after an analysis it always finds an item.
-/

namespace ApiSurface

/-! ## Ancillary records -/

/-- A record is marked as ancillary exactly if it has a primary. -/
def Signature.Coherent (signature : Signature) : Prop :=
  signature.isAncillary = signature.primary.isSome

theorem Signature.Coherent.owner_eq {signature : Signature} (h : signature.Coherent)
    (id : Datum) :
    signature.owner id = .ok ((signature.primary.map Mention.form).getD id) := by
  rw [Signature.owner, h]
  cases signature.primary <;> rfl

/-! ## Looking up records by number -/

private theorem find?_whole {β : Type} (entries : List (Nat × β)) (id : Nat) :
    (entries.find? fun entry => Key.whole entry.1 = Key.whole id) =
      (entries.lookup id).map fun value => (id, value) := by
  induction entries with
  | nil => rfl
  | cons entry rest ih =>
      obtain ⟨number, value⟩ := entry
      by_cases h : number = id
      · subst h
        simp
      · have hbeq : (id == number) = false := by simpa using Ne.symm h
        rw [List.find?_cons_of_neg (by simpa [Int.natCast_inj] using h), ih,
          List.lookup_cons, hbeq]

namespace Surface

theorem signature_int (surface : Surface) (id : Nat) :
    surface.signature (.int id) =
      match surface.signatures.lookup id with
      | some signature => .ok signature
      | none => .error (.defect (.noSignature (.int id))) := by
  have hkey : Datum.key (.int id) = .ok (.whole id) := rfl
  simp only [signature, hkey, bind, Except.bind, find?_whole]
  cases surface.signatures.lookup id <;> rfl

variable {surface : Surface} {found : ApiItem}

theorem item_eq_of_lookup {id owner : Nat} {signature : Signature}
    (hcoherent : signature.Coherent)
    (hsignature : surface.signatures.lookup id = some signature)
    (howner : signature.primary = none ∧ owner = id ∨
      ∃ primary, signature.primary = some primary ∧
        primary.form = .int owner)
    (hitem : surface.items.lookup owner = some found) :
    surface.item id = .ok found := by
  have hfound : (surface.items.find? fun entry =>
      some (Key.whole entry.1) = Datum.key? (.int owner)) = some (owner, found) := by
    have := find?_whole surface.items owner
    simpa [hitem, Datum.key?] using this
  rw [item, itemFor, signature_int, hsignature]
  simp only [bind, Except.bind, hcoherent.owner_eq]
  rcases howner with ⟨hprimary, rfl⟩ | ⟨primary, hprimary, hform⟩
  · simp only [hprimary, Option.map_none, Option.getD_none, hfound]
    rfl
  · simp only [hprimary, Option.map_some, Option.getD_some, hform, hfound]
    rfl

def tagOf (surface : Surface) (declaration : Declaration) : ReleaseTag :=
  match surface.item declaration.id with
  | .ok item => item.effectiveTag
  | .error _ => .untagged

def isStub (surface : Surface) (declaration : Declaration) : Bool :=
  match surface.item declaration.id with
  | .ok item => item.isPreapproved
  | .error _ => false

theorem tagOf_eq {declaration : Declaration} (h : surface.item declaration.id = .ok found) :
    surface.tagOf declaration = found.effectiveTag := by
  simp [tagOf, h]

theorem isStub_eq {declaration : Declaration} (h : surface.item declaration.id = .ok found) :
    surface.isStub declaration = found.isPreapproved := by
  simp [isStub, h]

end Surface

/-! ## Grouping accessors -/

namespace Signatures

theorem lookup_update (change : Signature → Signature) (id other : Nat)
    (signatures : Signatures) :
    (update change id signatures).lookup other =
      if other = id then (signatures.lookup other).map change
      else signatures.lookup other := by
  induction signatures with
  | nil => simp [update]
  | cons entry rest ih =>
      obtain ⟨number, signature⟩ := entry
      rw [update] at ih
      rw [update, List.map_cons]
      by_cases hother : other = number
      · subst hother
        by_cases hid : other = id <;> simp [hid]
      · have hbeq : (other == number) = false := by simpa using hother
        by_cases hid : number = id <;> simp [List.lookup_cons, hid, hbeq, ih]
        · subst hid
          simp [hbeq, hother]

variable {result : Signatures} {same : Bool} {primary : Mention}

theorem attach_eq_ok {signatures : Signatures} {ancillary : Mention}
    (h : signatures.attach same primary ancillary = .ok result) :
    result = signatures ∨
      result = update (addAncillary ancillary) primary.id
        (update (setPrimary primary) ancillary.id signatures) := by
  simp only [attach, bind_eq_ok] at h
  obtain ⟨target, -, source, -, h⟩ := h
  split at h
  · exact .inl (pure_eq_ok.mp h).symm
  · split at h
    · cases h
    · exact .inr (pure_eq_ok.mp h).symm

def Coherent (signatures : Signatures) : Prop :=
  ∀ id signature, signatures.lookup id = some signature → signature.Coherent

theorem Coherent.update {signatures : Signatures} (hcoherent : signatures.Coherent)
    (change : Signature → Signature)
    (hchange : ∀ signature : Signature, signature.Coherent → (change signature).Coherent)
    (id : Nat) : (update change id signatures).Coherent := by
  intro other signature hlookup
  rw [lookup_update] at hlookup
  split at hlookup
  · obtain ⟨before, hbefore, rfl⟩ := Option.map_eq_some_iff.mp hlookup
    exact hchange before (hcoherent other before hbefore)
  · exact hcoherent other signature hlookup

/-- The mark and the primary are written together, so no record can have one of them
without the other. -/
theorem Coherent.attach {signatures : Signatures} {ancillary : Mention}
    (hcoherent : signatures.Coherent)
    (h : signatures.attach same primary ancillary = .ok result) : result.Coherent := by
  rcases attach_eq_ok h with rfl | rfl
  · exact hcoherent
  · have hmarked := hcoherent.update (setPrimary primary) (fun _ _ => rfl) ancillary.id
    exact hmarked.update (addAncillary ancillary) (fun _ hbefore => hbefore) _

def primary? (signatures : Signatures) (id : Nat) : Option Mention :=
  (signatures.lookup id).bind Signature.primary

theorem Coherent.isAncillary_eq {signatures : Signatures} (h : signatures.Coherent)
    {id : Nat} {signature : Signature} (hlookup : signatures.lookup id = some signature) :
    signature.isAncillary = (signatures.primary? id).isSome := by
  rw [h id signature hlookup, primary?, hlookup, Option.bind_some]

@[simp] theorem primary?_addAncillary (ancillary : Mention) (id other : Nat)
    (signatures : Signatures) :
    primary? (update (addAncillary ancillary) id signatures) other =
      primary? signatures other := by
  rw [primary?, lookup_update]
  split
  · cases h : signatures.lookup other <;> simp [primary?, h, addAncillary]
  · rfl

theorem primary?_setPrimary {found : Mention} {id other : Nat} {signatures : Signatures}
    (h : primary? (update (setPrimary primary) id signatures) other = some found) :
    other = id ∧ found = primary ∨ primary? signatures other = some found := by
  rw [primary?, lookup_update] at h
  split at h
  · rename_i hid
    cases hlookup : signatures.lookup other with
    | none => simp [hlookup] at h
    | some signature =>
        refine .inl ⟨hid, ?_⟩
        simpa [hlookup, setPrimary] using h.symm
  · exact .inr h

/-- Records have the numbers of those that were there at first, and a primary
was put down only for a pair. -/
structure Grouped (pairs : List (Nat × Nat)) (first signatures : Signatures) :
    Prop where
  recorded : ∀ id, (signatures.lookup id).isSome = (first.lookup id).isSome
  paired : ∀ id primary, signatures.primary? id = some primary →
    (primary.id, id) ∈ pairs ∧ primary.form = .int primary.id

theorem Grouped.attach {pairs : List (Nat × Nat)} {first signatures : Signatures}
    {pair : Nat × Nat} (hgrouped : Grouped pairs first signatures) (hpair : pair ∈ pairs)
    (h : signatures.attach same { id := pair.1 } { id := pair.2 } = .ok result) :
    Grouped pairs first result := by
  rcases attach_eq_ok h with rfl | rfl
  · exact hgrouped
  refine ⟨fun id => ?_, fun id primary hprimary => ?_⟩
  · rw [← hgrouped.recorded id, lookup_update, lookup_update]
    split <;> split <;> simp
  · rw [primary?_addAncillary] at hprimary
    rcases primary?_setPrimary hprimary with ⟨rfl, rfl⟩ | hbefore
    · exact ⟨hpair, rfl⟩
    · exact hgrouped.paired id primary hbefore

def Listed (signatures : Signatures) : Prop :=
  ∀ id primary, signatures.primary? id = some primary →
    ∃ signature, signatures.lookup primary.id = some signature ∧
      ∃ other ∈ signature.ancillaries, other.id = id

theorem Listed.attach {signatures : Signatures} {ancillary : Mention}
    (hlisted : signatures.Listed) (h : signatures.attach same primary ancillary = .ok result) :
    result.Listed := by
  have hrecorded : ∃ target, signatures.lookup primary.id = some target := by
    simp only [Signatures.attach, bind_eq_ok] at h
    obtain ⟨target, htarget, _⟩ := h
    unfold record at htarget
    split at htarget
    · rename_i signature hlookup
      exact ⟨signature, hlookup⟩
    · cases htarget
  rcases attach_eq_ok h with rfl | rfl
  · exact hlisted
  intro id found hfound
  rw [primary?_addAncillary] at hfound
  rcases primary?_setPrimary hfound with ⟨rfl, rfl⟩ | hbefore
  · obtain ⟨target, htarget⟩ := hrecorded
    rw [lookup_update, if_pos rfl, lookup_update]
    split
    · exact ⟨_, by rw [htarget]; rfl, ancillary, by simp [addAncillary], rfl⟩
    · exact ⟨_, by rw [htarget]; rfl, ancillary, by simp [addAncillary], rfl⟩
  · obtain ⟨signature, hlookup, other, hother, hid⟩ := hlisted id found hbefore
    rw [lookup_update, lookup_update, hlookup]
    split <;> split
    all_goals exact ⟨_, rfl, other, by simp [addAncillary, setPrimary, hother], hid⟩

end Signatures

namespace Inventory

variable {graph : ModuleGraph} {inventory : Inventory} {signatures : Signatures}

theorem mem_declarationsOf {key : Key} {declaration : Declaration} :
    declaration ∈ inventory.declarationsOf key ↔
      declaration ∈ inventory.allDeclarations ∧ declaration.symbol.key = key := by
  simp [declarationsOf]

def allPairs (inventory : Inventory) : List (Nat × Nat) :=
  inventory.symbols.flatMap inventory.accessorPairs

theorem mem_allPairs_getterFor {pair : Nat × Nat} (h : pair ∈ inventory.allPairs) :
    ∃ setter ∈ inventory.allDeclarations, setter.id = pair.2 ∧
      setter.kind = .setAccessor ∧ ∃ getter ∈ inventory.declarationsOf setter.symbol.key,
        getterFor? (inventory.declarationsOf setter.symbol.key) setter = some getter ∧
        getter.id = pair.1 ∧ getter.kind = .getAccessor := by
  obtain ⟨symbol, -, h⟩ := List.mem_flatMap.mp h
  obtain ⟨setter, hsetter, h⟩ := List.mem_filterMap.mp h
  obtain ⟨getter, hgetter, rfl⟩ := Option.map_eq_some_iff.mp h
  rw [List.mem_filter, mem_declarationsOf] at hsetter
  obtain ⟨⟨hmem, hkey⟩, hkind⟩ := hsetter
  rw [← hkey] at hgetter
  have hget := List.find?_some hgetter
  simp only [Bool.and_eq_true, decide_eq_true_eq] at hget
  exact ⟨setter, hmem, rfl, by simpa using hkind, getter,
    List.mem_of_find?_eq_some hgetter, hgetter, rfl, hget.2⟩

theorem mem_allPairs {pair : Nat × Nat} (h : pair ∈ inventory.allPairs) :
    (∃ getter ∈ inventory.allDeclarations,
      getter.id = pair.1 ∧ getter.kind = .getAccessor) ∧
    ∃ setter ∈ inventory.allDeclarations,
      setter.id = pair.2 ∧ setter.kind = .setAccessor := by
  obtain ⟨setter, hsetter, hid, hset, getter, hgetter, -, hid', hget⟩ :=
    mem_allPairs_getterFor h
  exact ⟨⟨getter, (mem_declarationsOf.mp hgetter).1, hid', hget⟩, setter, hsetter, hid, hset⟩

theorem primary?_signatures (graph : ModuleGraph) (id : Nat) :
    (inventory.signatures graph).primary? id = none := by
  apply Option.eq_none_iff_forall_ne_some.mpr
  intro primary hprimary
  obtain ⟨signature, hlookup, hprimary⟩ := Option.bind_eq_some_iff.mp hprimary
  obtain ⟨declaration, -, hentry⟩ := List.mem_map.mp (Entries.mem_of_lookup hlookup)
  rw [← (Prod.mk.inj hentry).2] at hprimary
  cases hprimary

theorem signatures_coherent (graph : ModuleGraph) :
    (inventory.signatures graph).Coherent := by
  intro id signature hlookup
  obtain ⟨declaration, -, hentry⟩ := List.mem_map.mp (Entries.mem_of_lookup hlookup)
  obtain ⟨-, rfl⟩ := Prod.mk.inj hentry
  rfl

theorem groupAccessors_coherent (h : inventory.groupAccessors graph = .ok signatures) :
    signatures.Coherent := by
  refine foldlM_preserves Signatures.Coherent ?_ (signatures_coherent graph) h
  intro state pair state' _ hcoherent hattach
  exact hcoherent.attach hattach

theorem groupAccessors_grouped
    (h : inventory.groupAccessors graph = .ok signatures) :
    Signatures.Grouped inventory.allPairs (inventory.signatures graph)
      signatures := by
  refine foldlM_preserves (Signatures.Grouped _ _) ?_ ⟨fun _ => rfl, ?_⟩ h
  · intro state pair state' hpair hgrouped hattach
    exact hgrouped.attach hpair hattach
  · intro id primary hprimary
    rw [primary?_signatures] at hprimary
    cases hprimary

theorem groupAccessors_listed
    (h : inventory.groupAccessors graph = .ok signatures) :
    signatures.Listed := by
  refine foldlM_preserves Signatures.Listed ?_ ?_ h
  · intro state pair state' _ hlisted hattach
    exact hlisted.attach hattach
  · intro id primary hprimary
    rw [primary?_signatures] at hprimary
    cases hprimary

theorem primary?_primary (h : inventory.groupAccessors graph = .ok signatures)
    (hnodup : (inventory.allDeclarations.map Declaration.id).Nodup)
    {id : Nat} {primary : Mention}
    (hprimary : signatures.primary? id = some primary) :
    signatures.primary? primary.id = none := by
  have hgrouped := groupAccessors_grouped h
  obtain ⟨⟨getter, hgetter, hid, hget⟩, -⟩ :=
    mem_allPairs (hgrouped.paired id primary hprimary).1
  cases hnext : signatures.primary? primary.id with
  | none => rfl
  | some other =>
      obtain ⟨-, setter, hsetter, hsame, hset⟩ :=
        mem_allPairs (hgrouped.paired primary.id other hnext).1
      have heq : setter = getter :=
        List.inj_on_of_nodup_map hnodup hsetter hgetter (hsame.trans hid.symm)
      rw [heq, hget] at hset
      cases hset

end Inventory

/-! ## Computing the items -/

variable {graph : ModuleGraph} {signatures : Signatures}

variable {items result : ApiItems} {before after : Router} {declarations : List Declaration}

theorem addApiItem_eq_ok {declaration : Declaration}
    (h : (addApiItem graph signatures items declaration).run before =
      .ok (result, after)) :
    ∃ signature, signatures.lookup declaration.id = some signature ∧
      (signature.isAncillary = true ∧ result = items ∨
        signature.isAncillary = false ∧ ∃ parent,
          parentItem items declaration = .ok parent ∧
          result = items ++ [(declaration.id,
            apiItem (graph.flagsFor declaration.node) declaration.kind
              declaration.symbol.external parent)]) := by
  simp only [addApiItem, run_bind_eq_ok, run_liftM_eq_ok] at h
  obtain ⟨signature, state, ⟨hrecord, rfl⟩, h⟩ := h
  have hlookup : signatures.lookup declaration.id = some signature := by
    unfold Signatures.record at hrecord
    split at hrecord
    · rename_i found hfound
      rw [hfound, Except.ok.inj hrecord]
    · cases hrecord
  refine ⟨signature, hlookup, ?_⟩
  split at h
  · rename_i hancillary
    refine .inl ⟨hancillary, ?_⟩
    split at h
    · simp only [run_bind_eq_ok, run_pure_eq_ok] at h
      obtain ⟨_, _, -, rfl, -⟩ := h
      rfl
    · exact (run_pure_eq_ok.mp h).1.symm
  · rename_i hprimary
    refine .inr ⟨by simpa using hprimary, ?_⟩
    simp only [run_bind_eq_ok, run_liftM_eq_ok] at h
    obtain ⟨parent, _, ⟨hparent, rfl⟩, h⟩ := h
    refine ⟨parent, hparent, ?_⟩
    split at h
    · simp only [run_bind_eq_ok, run_pure_eq_ok] at h
      obtain ⟨_, _, -, rfl, -⟩ := h
      rfl
    · exact (run_pure_eq_ok.mp h).1.symm

theorem apiItems_covers (h : (apiItems graph signatures items declarations).run before =
      .ok (result, after)) :
    (∀ id, (items.lookup id).isSome → (result.lookup id).isSome) ∧
      ∀ declaration ∈ declarations, ∃ signature,
        signatures.lookup declaration.id = some signature ∧
        (signature.isAncillary = false →
          (result.lookup declaration.id).isSome) := by
  induction declarations generalizing items before with
  | nil =>
      obtain ⟨rfl, -⟩ := run_pure_eq_ok.mp h
      simp
  | cons declaration rest ih =>
      simp only [apiItems, run_bind_eq_ok] at h
      obtain ⟨next, between, hadd, hrest⟩ := h
      obtain ⟨hkept, hcovered⟩ := ih hrest
      obtain ⟨signature, hlookup, hcases⟩ := addApiItem_eq_ok hadd
      have hgrows : ∀ id, (items.lookup id).isSome → (next.lookup id).isSome := by
        intro id hid
        rcases hcases with ⟨-, rfl⟩ | ⟨-, parent, -, rfl⟩
        · exact hid
        · rw [List.lookup_append, Option.isSome_or, hid, Bool.true_or]
      refine ⟨fun id hid => hkept id (hgrows id hid), ?_⟩
      rintro other hother
      rcases List.mem_cons.mp hother with rfl | hother
      · refine ⟨signature, hlookup, fun hprimary => hkept _ ?_⟩
        rcases hcases with ⟨hancillary, -⟩ | ⟨-, parent, -, rfl⟩
        · rw [hprimary] at hancillary
          cases hancillary
        · rw [List.lookup_append, Option.isSome_or]
          simp
      · exact hcovered other hother

theorem apiItems_preserves (invariant : ApiItems → Prop)
    (hstep : ∀ items, invariant items → ∀ declaration ∈ declarations,
      ∀ signature, signatures.lookup declaration.id = some signature →
      signature.isAncillary = false →
      ∀ parent, parentItem items declaration = .ok parent →
      invariant (items ++ [(declaration.id,
        apiItem (graph.flagsFor declaration.node) declaration.kind
          declaration.symbol.external parent)]))
    (hitems : invariant items)
    (h : (apiItems graph signatures items declarations).run before =
      .ok (result, after)) : invariant result := by
  induction declarations generalizing items before with
  | nil =>
      obtain ⟨rfl, -⟩ := run_pure_eq_ok.mp h
      exact hitems
  | cons declaration rest ih =>
      simp only [apiItems, run_bind_eq_ok] at h
      obtain ⟨next, between, hadd, hrest⟩ := h
      refine ih (fun items hitems other hother => ?_) ?_ hrest
      · exact hstep items hitems other (List.mem_cons_of_mem _ hother)
      obtain ⟨signature, hlookup, ⟨-, rfl⟩ | ⟨hprimary, parent, hparent, rfl⟩⟩ :=
        addApiItem_eq_ok hadd
      · exact hitems
      · exact hstep items hitems declaration (by simp) signature hlookup hprimary parent
          hparent

theorem apiItems_primary (hcoherent : signatures.Coherent)
    (h : (apiItems graph signatures [] declarations).run before =
      .ok (result, after)) :
    ∀ entry ∈ result, ∃ signature,
      signatures.lookup entry.1 = some signature ∧ signature.primary = none := by
  refine apiItems_preserves (fun items => ∀ entry ∈ items, ∃ signature,
    signatures.lookup entry.1 = some signature ∧ signature.primary = none)
    ?_ (by simp) h
  intro items hitems declaration _ signature hlookup hmark parent _ entry hentry
  rcases List.mem_append.mp hentry with hentry | hentry
  · exact hitems entry hentry
  · rw [List.mem_singleton.mp hentry]
    rw [hcoherent _ signature hlookup] at hmark
    exact ⟨signature, hlookup, by simpa using hmark⟩

private theorem mem_of_parentItem {declaration : Declaration} {item : ApiItem}
    (h : parentItem items declaration = .ok (some item)) :
    ∃ id, (id, item) ∈ items := by
  unfold parentItem at h
  split at h
  · cases h
  · rename_i parent hparent
    split at h
    · rename_i found hfound
      obtain rfl : found = item := by simpa using h
      exact ⟨parent, Entries.mem_of_lookup hfound⟩
    · cases h

private theorem effectiveTag_ne_untagged {flags : DocFlags} {parent : Option ApiItem}
    (h : ∀ item, parent = some item → item.effectiveTag ≠ .untagged) :
    effectiveTag flags false parent ≠ .untagged := by
  unfold effectiveTag
  split
  · cases parent with
    | none => simp
    | some item => exact h item rfl
  · rename_i hflags
    simpa using hflags

theorem apiItems_tagged (hlocal : ∀ declaration ∈ declarations,
      declaration.symbol.external = false)
    (h : (apiItems graph signatures [] declarations).run before =
      .ok (result, after)) :
    ∀ entry ∈ result, entry.2.effectiveTag ≠ .untagged := by
  refine apiItems_preserves
    (fun items => ∀ entry ∈ items, entry.2.effectiveTag ≠ .untagged) ?_ (by simp) h
  intro items hitems declaration hdeclaration signature _ _ parent hparent entry hentry
  rcases List.mem_append.mp hentry with hentry | hentry
  · exact hitems entry hentry
  rw [List.mem_singleton.mp hentry]
  simp only [apiItem, hlocal declaration hdeclaration]
  refine effectiveTag_ne_untagged fun item hitem => ?_
  obtain ⟨id, hmem⟩ := mem_of_parentItem (hitem ▸ hparent)
  exact hitems (id, item) hmem

end ApiSurface
