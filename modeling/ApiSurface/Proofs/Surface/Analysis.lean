import ApiSurface.Proofs.Surface.Items
import ApiSurface.Surface.Analysis

/-!
# What an analysis establishes

A successful analysis is taken apart into its steps.  From them follow the two
facts that everything read from a surface rests on: the numbers of declarations
are distinct, and the API item of every declaration is known.
-/

namespace ApiSurface

/-- An export is resolved to what it denotes, under the label of its name if that is
there. -/
theorem resolveExport_eq_ok {inventory : Inventory} {entry : Datum × Datum}
    {name : Option Label} {id : EntityId}
    (h : resolveExport inventory entry = .ok (name, id)) :
    inventory.exportTarget entry = .ok id ∧ name.isSome = entry.1.present ∧
      ∀ label ∈ name, Label.ofDatum entry.1 = .ok label := by
  simp only [resolveExport, bind_eq_ok] at h
  obtain ⟨target, htarget, h⟩ := h
  split at h
  · rename_i hpresent
    simp only [bind_eq_ok, pure_eq_ok, Prod.mk.injEq] at h
    obtain ⟨label, hlabel, rfl, rfl⟩ := h
    exact ⟨htarget, hpresent.symm, by simpa using hlabel⟩
  · rename_i habsent
    simp only [pure_eq_ok, Prod.mk.injEq] at h
    obtain ⟨rfl, rfl⟩ := h
    exact ⟨htarget, by simpa using habsent, by simp⟩

namespace Surface

/-- The surface that is checked: its entities are not sorted yet, and what it
records is kept elsewhere. -/
def draft (surface : Surface) (entities : List Entity) : Surface :=
  { surface with entities := entities, starExports := [], router := {} }

/-- The steps of a successful analysis.  It finds the entities, adds to the
messages of the router while it computes items (up to `itemized`), passes on
remarks (up to `remarked`) and checks the entities, and sorts the entities. -/
structure Steps (graph : ModuleGraph) (router : Router) (surface : Surface)
    (entities : List Entity) (itemized remarked : Router) : Prop where
  graph_eq : surface.graph = graph
  declared : Inventory.ofGraph graph = .ok surface.inventory
  referred : surface.inventory.references graph = .ok surface.references
  resolved : resolveEntities graph surface.inventory surface.references =
    .ok entities
  grouped : surface.inventory.groupAccessors graph = .ok surface.signatures
  itemsRun : (apiItems graph surface.signatures []
    surface.inventory.allDeclarations).run router = .ok (surface.items, itemized)
  remarksRun : (recordAll (graph.remarks.map
    surface.inventory.remarkIssue)).run itemized = .ok ((), remarked)
  checksRun : (checkEntities (surface.draft entities) [] entities).run remarked =
    .ok ((), surface.router)
  sorted : sortEntities entities = .ok surface.entities

variable {graph : ModuleGraph} {router : Router} {surface : Surface}

theorem analyze_steps (h : analyze graph router = .ok surface) :
    ∃ entities itemized remarked,
      Steps graph router surface entities itemized remarked := by
  simp only [analyze, bind_eq_ok, pure_eq_ok] at h
  obtain ⟨inventory, hdeclared, references, hreferred, entities, hresolved,
    names, -, starExports, -, ⟨⟨signatures, items⟩, last⟩, hinspect, sorted,
    hsorted, rfl⟩ := h
  simp only [inspect, run_bind_eq_ok, run_liftM_eq_ok, run_pure_eq_ok,
    Prod.mk.injEq] at hinspect
  obtain ⟨_, _, ⟨hgrouped, rfl⟩, _, itemized, hitems, _, remarked, hremarks, _, _,
    hchecks, ⟨rfl, rfl⟩, rfl⟩ := hinspect
  exact ⟨entities, itemized, remarked, rfl, hdeclared, hreferred, hresolved,
    hgrouped, hitems, hremarks, hchecks, hsorted⟩

/-- Numbers tell declarations apart, and every declaration has an item. -/
structure Sound (surface : Surface) : Prop where
  distinct : (surface.inventory.allDeclarations.map Declaration.id).Nodup
  known : ∀ declaration ∈ surface.inventory.allDeclarations,
    ∃ item, surface.item declaration.id = .ok item

theorem item_known {inventory : Inventory} {before after : Router}
    (hdistinct : (inventory.allDeclarations.map Declaration.id).Nodup)
    (hgrouped : inventory.groupAccessors graph = .ok surface.signatures)
    (hitems : (apiItems graph surface.signatures [] inventory.allDeclarations).run before =
      .ok (surface.items, after))
    {declaration : Declaration} (hdeclaration : declaration ∈ inventory.allDeclarations) :
    ∃ item, surface.item declaration.id = .ok item := by
  have hcovers := (apiItems_covers hitems).2
  have hcoherent := Inventory.groupAccessors_coherent hgrouped
  obtain ⟨signature, hlookup, hitem⟩ := hcovers declaration hdeclaration
  cases hprimary : signature.primary with
  | none =>
      obtain ⟨item, hitem⟩ := Option.isSome_iff_exists.mp
        (hitem (by rw [hcoherent _ _ hlookup, hprimary, Option.isSome_none]))
      exact ⟨item, item_eq_of_lookup (hcoherent _ _ hlookup) hlookup (.inl ⟨hprimary, rfl⟩) hitem⟩
  | some primary =>
      -- The detour ends at the getter, whose own item is recorded.
      have hfound : surface.signatures.primary? declaration.id = some primary := by
        simp [Signatures.primary?, hlookup, hprimary]
      have hend := Inventory.primary?_primary hgrouped hdistinct hfound
      obtain ⟨hpair, hform⟩ :=
        (Inventory.groupAccessors_grouped hgrouped).paired _ _ hfound
      obtain ⟨⟨getter, hgetter, hid, -⟩, -⟩ := Inventory.mem_allPairs hpair
      obtain ⟨own, hown, hitem⟩ := hcovers getter hgetter
      rw [hid] at hown hitem
      obtain ⟨item, hitem⟩ := Option.isSome_iff_exists.mp (hitem (by
        rw [hcoherent _ _ hown]
        simpa [Signatures.primary?, hown] using hend))
      exact ⟨item, item_eq_of_lookup (hcoherent _ _ hlookup) hlookup
        (.inr ⟨primary, hprimary, hform⟩) hitem⟩

theorem Steps.sound {entities : List Entity} {itemized remarked : Router}
    (h : Steps graph router surface entities itemized remarked) :
    surface.Sound := by
  have hdistinct := Inventory.ids_nodup h.declared
  exact ⟨hdistinct, fun _ hdeclaration =>
    item_known hdistinct h.grouped h.itemsRun hdeclaration⟩

theorem Steps.coherent {entities : List Entity} {itemized remarked : Router}
    (h : Steps graph router surface entities itemized remarked) :
    surface.signatures.Coherent :=
  Inventory.groupAccessors_coherent h.grouped

theorem Steps.item_of_lookup {entities : List Entity} {itemized remarked : Router}
    (h : Steps graph router surface entities itemized remarked) {id : Nat} {item : ApiItem}
    (hitem : surface.items.lookup id = some item) : surface.item id = .ok item := by
  obtain ⟨signature, hsignature, hprimary⟩ :=
    apiItems_primary h.coherent h.itemsRun (id, item) (Entries.mem_of_lookup hitem)
  exact item_eq_of_lookup (h.coherent _ _ hsignature) hsignature (.inl ⟨hprimary, rfl⟩) hitem

theorem analyze_sound (h : analyze graph router = .ok surface) : surface.Sound := by
  obtain ⟨entities, itemized, remarked, hsteps⟩ := analyze_steps h
  exact hsteps.sound

theorem Sound.eq_of_id_eq (h : surface.Sound) {first second : Declaration}
    (hfirst : first ∈ surface.inventory.allDeclarations)
    (hsecond : second ∈ surface.inventory.allDeclarations) (hid : first.id = second.id) :
    first = second :=
  List.inj_on_of_nodup_map h.distinct hfirst hsecond hid

theorem mem_of_declaration {id : Datum} {declaration : Declaration}
    (h : surface.declaration id = .ok declaration) :
    declaration ∈ surface.inventory.allDeclarations := by
  simp only [Surface.declaration, bind_eq_ok] at h
  obtain ⟨key, -, h⟩ := h
  split at h
  · rename_i found hfound
    rw [← pure_eq_ok.mp h]
    exact List.mem_of_find?_eq_some hfound
  · cases h

theorem Sound.declaration_eq (h : surface.Sound) {declaration : Declaration}
    (hdeclaration : declaration ∈ surface.inventory.allDeclarations) :
    surface.declaration (.int declaration.id) = .ok declaration := by
  have hkey : Datum.key (.int declaration.id) = .ok (.whole declaration.id) := rfl
  have hfound : (surface.inventory.allDeclarations.find? fun other =>
      Key.whole other.id = .whole declaration.id) = some declaration := by
    simpa [Int.natCast_inj] using find?_key h.distinct hdeclaration
  simp only [Surface.declaration, hkey, bind, Except.bind, hfound]
  rfl

theorem mem_allDeclarations_of_entity {entity : Entity} {declaration : Declaration}
    (h : declaration ∈ surface.declarationsOfEntity entity) :
    declaration ∈ surface.inventory.allDeclarations := by
  unfold declarationsOfEntity at h
  split at h
  · exact (Inventory.mem_declarationsOf.mp h).1
  · simp at h

end Surface

end ApiSurface
