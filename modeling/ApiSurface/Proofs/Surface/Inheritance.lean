import ApiSurface.Proofs.Surface.Metadata
import ApiSurface.Proofs.Trim.References

/-!
# Inherited release tags

The items are computed in one pass, in which the item of a parent is there before
those of its members.  What comes out is what the lines of parents say: a local
declaration has the first tag that is declared on the way up from it, and is public
if there is none.
-/

namespace ApiSurface

/-! ## Lines of parents -/

/-- A declaration, its parent, the parent of that, and so on. -/
inductive Inventory.Lineage (inventory : Inventory) : Declaration → List Declaration → Prop
  | outermost {declaration : Declaration} (alone : declaration.parent = none) :
      Lineage inventory declaration [declaration]
  | member {declaration owner : Declaration} {above : List Declaration}
      (inside : declaration.parent = some owner.id)
      (known : owner ∈ inventory.allDeclarations) (line : Lineage inventory owner above) :
      Lineage inventory declaration (declaration :: above)

namespace ModuleGraph

def declaredTag (graph : ModuleGraph) (declaration : Declaration) : ReleaseTag :=
  (graph.flagsFor declaration.node).releaseTag

def firstTag (graph : ModuleGraph) (line : List Declaration) : ReleaseTag :=
  ((line.map graph.declaredTag).find? fun tag => tag ≠ .untagged).getD .public

theorem firstTag_cons (graph : ModuleGraph) (declaration : Declaration)
    (line : List Declaration) :
    graph.firstTag (declaration :: line) =
      if graph.declaredTag declaration = .untagged then graph.firstTag line
      else graph.declaredTag declaration := by
  by_cases htag : graph.declaredTag declaration = .untagged
  · simp [firstTag, htag]
  · simp [firstTag, htag]

end ModuleGraph

/-! ## Members are where their parents are -/

namespace Inventory

variable {graph : ModuleGraph} {inventory : Inventory}

theorem external_of_root (hdeclared : ofGraph graph = .ok inventory) {one other : Symbol}
    (hone : one ∈ inventory.symbols) (hother : other ∈ inventory.symbols)
    (hroot : one.root.key = other.root.key) : one.external = other.external := by
  have hentered := (ofGraph_forest hdeclared).entered
  obtain ⟨top, htop, hkey, hexternal⟩ := hentered.outermost_external one hone
  obtain ⟨found, hfound, hfoundKey, hfoundExternal⟩ := hentered.outermost_external other hother
  have hsame : top = found := by
    apply List.inj_on_of_nodup_map hentered.keys_nodup htop hfound
    rw [hkey, hfoundKey, hroot]
  rw [← hexternal, ← hfoundExternal, hsame]

private theorem external_parent (hdeclared : ofGraph graph = .ok inventory)
    (hkeys : graph.PlainKeys) {declaration owner : Declaration}
    (hdeclaration : declaration ∈ inventory.allDeclarations)
    (howner : owner ∈ inventory.allDeclarations) (hparent : declaration.parent = some owner.id) :
    declaration.symbol.external = owner.symbol.external := by
  apply external_of_root hdeclared (symbol_mem hdeclared hdeclaration)
    (symbol_mem hdeclared howner)
  obtain ⟨outer, houter, hinside⟩ := Declaration.mem_walkAll.mp hdeclaration
  obtain ⟨entry, -, label, -, hknown, site, -, hdeclares⟩ :=
    (ofGraph_forest hdeclared).exists_site houter
  -- Both stand in one outermost declaration, to whose symbol they belong.
  obtain ⟨other, hother, hid⟩ :=
    (hdeclares.parentsFirst.mem hinside hparent).resolve_left List.not_mem_nil
  have hsame : other = owner := List.inj_on_of_nodup_map (ids_nodup hdeclared)
    (Declaration.mem_walkAll.mpr ⟨outer, houter, hother⟩) howner hid
  subst hsame
  rw [(walk_spelled hdeclared hkeys hknown hdeclares hinside).1,
    (walk_spelled hdeclared hkeys hknown hdeclares hother).1]

end Inventory

/-! ## What the pass computes -/

section Pass

variable {graph : ModuleGraph} {inventory : Inventory} {signatures : Signatures}
  {items more : ApiItems} {declaration : Declaration}

theorem lookup_append_of_some {id : Nat} {item : ApiItem} (h : items.lookup id = some item) :
    (items ++ more).lookup id = some item := by
  rw [List.lookup_append, h, Option.some_or]

private theorem parentItem_append {parent : Option ApiItem}
    (h : parentItem items declaration = .ok parent) :
    parentItem (items ++ more) declaration = .ok parent := by
  unfold parentItem at h ⊢
  split at h
  · exact h
  · split at h
    · rename_i item hitem
      rw [lookup_append_of_some hitem]
      exact h
    · cases h

structure ItemOf (graph : ModuleGraph) (inventory : Inventory) (items : ApiItems)
    (declaration : Declaration) (item : ApiItem) : Prop where
  made : ∃ parent, parentItem items declaration = .ok parent ∧
    item = apiItem (graph.flagsFor declaration.node) declaration.kind
      declaration.symbol.external parent
  inherited : declaration.symbol.external = false →
    ∃ line, inventory.Lineage declaration line ∧ item.effectiveTag = graph.firstTag line

theorem ItemOf.append {item : ApiItem} (h : ItemOf graph inventory items declaration item)
    (more : ApiItems) : ItemOf graph inventory (items ++ more) declaration item := by
  obtain ⟨⟨parent, hparent, hitem⟩, hinherited⟩ := h
  exact ⟨⟨parent, parentItem_append hparent, hitem⟩, hinherited⟩

/-- Every item that is recorded belongs to the declaration with its number. -/
def Computed (graph : ModuleGraph) (inventory : Inventory) (items : ApiItems) : Prop :=
  ∀ id item, items.lookup id = some item →
    ∃ declaration ∈ inventory.allDeclarations, declaration.id = id ∧
      ItemOf graph inventory items declaration item

private theorem effectiveTag_local (flags : DocFlags) (parent : Option ApiItem) :
    effectiveTag flags false parent =
      if flags.releaseTag = .untagged then (parent.map ApiItem.effectiveTag).getD .public
      else flags.releaseTag := by
  unfold effectiveTag
  cases parent <;> simp

theorem Computed.itemOf (hitems : Computed graph inventory items)
    (hdeclared : Inventory.ofGraph graph = .ok inventory) (hkeys : graph.PlainKeys)
    (hdeclaration : declaration ∈ inventory.allDeclarations) {parent : Option ApiItem}
    (hparent : parentItem items declaration = .ok parent) :
    ItemOf graph inventory items declaration
      (apiItem (graph.flagsFor declaration.node) declaration.kind
        declaration.symbol.external parent) := by
  refine ⟨⟨parent, hparent, rfl⟩, fun hlocal => ?_⟩
  rw [hlocal]
  change ∃ line, _ ∧ effectiveTag _ false parent = _
  rw [effectiveTag_local]
  unfold parentItem at hparent
  split at hparent
  · rename_i halone
    obtain rfl := Except.ok.inj hparent
    refine ⟨_, .outermost halone, ?_⟩
    rw [graph.firstTag_cons]
    rfl
  · rename_i number hnumber
    split at hparent
    · rename_i above habove
      obtain rfl := Except.ok.inj hparent
      obtain ⟨owner, howner, rfl, hitem⟩ := hitems number above habove
      -- The line of the parent is known only if its symbol is not external either.
      have hexternal := Inventory.external_parent hdeclared hkeys hdeclaration howner hnumber
      obtain ⟨line, hline, htag⟩ := hitem.inherited (hexternal ▸ hlocal)
      refine ⟨_, .member hnumber howner hline, ?_⟩
      rw [graph.firstTag_cons, ← htag]
      rfl
    · cases hparent

theorem Computed.add (hitems : Computed graph inventory items)
    (hdeclared : Inventory.ofGraph graph = .ok inventory) (hkeys : graph.PlainKeys)
    (hdeclaration : declaration ∈ inventory.allDeclarations) {parent : Option ApiItem}
    (hparent : parentItem items declaration = .ok parent) :
    Computed graph inventory (items ++ [(declaration.id,
      apiItem (graph.flagsFor declaration.node) declaration.kind
        declaration.symbol.external parent)]) := by
  intro id item hitem
  rw [List.lookup_append] at hitem
  cases hold : items.lookup id with
  | some old =>
      rw [hold, Option.some_or, Option.some.injEq] at hitem
      subst hitem
      obtain ⟨other, hother, hid, hof⟩ := hitems id old hold
      exact ⟨other, hother, hid, hof.append _⟩
  | none =>
      rw [hold, Option.none_or, List.lookup_cons] at hitem
      split at hitem
      · rename_i hid
        obtain rfl := Option.some.inj hitem
        exact ⟨declaration, hdeclaration, (eq_of_beq hid).symm,
          (hitems.itemOf hdeclared hkeys hdeclaration hparent).append _⟩
      · cases hitem

private theorem apiItems_computed {before after : Router}
    (hdeclared : Inventory.ofGraph graph = .ok inventory) (hkeys : graph.PlainKeys)
    (h : (apiItems graph signatures [] inventory.allDeclarations).run before =
      .ok (items, after)) :
    Computed graph inventory items := by
  refine apiItems_preserves (Computed graph inventory) ?_ (by simp [Computed]) h
  intro items hitems declaration hdeclaration _ _ _ parent hparent
  exact hitems.add hdeclared hkeys hdeclaration hparent

end Pass

/-! ## The items of a surface -/

namespace Surface

variable {graph : ModuleGraph} {router : Router} {surface : Surface} {entities : List Entity}
  {itemized remarked : Router} {declaration : Declaration}

theorem Steps.itemOf (h : Steps graph router surface entities itemized remarked)
    (hkeys : graph.PlainKeys) (hdeclaration : declaration ∈ surface.inventory.allDeclarations)
    (hprimary : surface.signatures.primary? declaration.id = none) :
    ∃ item, surface.items.lookup declaration.id = some item ∧
      surface.item declaration.id = .ok item ∧
      ItemOf graph surface.inventory surface.items declaration item := by
  obtain ⟨signature, hlookup, hcovered⟩ := (apiItems_covers h.itemsRun).2 declaration hdeclaration
  obtain ⟨item, hitem⟩ := Option.isSome_iff_exists.mp (hcovered (by
    rw [h.coherent.isAncillary_eq hlookup, hprimary, Option.isSome_none]))
  obtain ⟨other, hother, hid, hof⟩ :=
    apiItems_computed h.declared hkeys h.itemsRun declaration.id item hitem
  obtain rfl := h.sound.eq_of_id_eq hother hdeclaration hid
  exact ⟨item, hitem, h.item_of_lookup hitem, hof⟩

theorem sameAsParent_iff {flags : DocFlags} {kind : NodeKind} {external : Bool}
    {parent : Option ApiItem} :
    (apiItem flags kind external parent).sameAsParent = true ↔
      ∃ above, parent = some above ∧
        above.effectiveTag = (apiItem flags kind external parent).effectiveTag := by
  cases parent with
  | none => simp [apiItem]
  | some above => simp [apiItem]

theorem Steps.sameAsParent_iff (h : Steps graph router surface entities itemized remarked)
    (hdeclaration : declaration ∈ surface.inventory.allDeclarations) {item : ApiItem}
    (hof : ItemOf graph surface.inventory surface.items declaration item) :
    item.sameAsParent = true ↔
      ∃ owner ∈ surface.inventory.allDeclarations, declaration.parent = some owner.id ∧
        ∃ above, surface.item owner.id = .ok above ∧
          above.effectiveTag = item.effectiveTag := by
  obtain ⟨⟨parent, hparent, rfl⟩, -⟩ := hof
  rw [Surface.sameAsParent_iff]
  unfold parentItem at hparent
  split at hparent
  · rename_i halone
    obtain rfl := Except.ok.inj hparent
    simp [halone]
  · rename_i number hnumber
    split at hparent
    · rename_i found hfound
      obtain rfl := Except.ok.inj hparent
      obtain ⟨owner, howner, rfl⟩ :=
        Inventory.exists_parent_declaration h.declared hdeclaration hnumber
      have hitem := h.item_of_lookup hfound
      constructor
      · rintro ⟨above, habove, htag⟩
        obtain rfl := Option.some.inj habove
        exact ⟨owner, howner, hnumber, found, hitem, htag⟩
      · rintro ⟨other, -, hother, above, habove, htag⟩
        rw [← Option.some.inj (hnumber.symm.trans hother), hitem] at habove
        obtain rfl := Except.ok.inj habove
        exact ⟨found, rfl, htag⟩
    · cases hparent

theorem Steps.signature_known (h : Steps graph router surface entities itemized remarked)
    (hdeclaration : declaration ∈ surface.inventory.allDeclarations) :
    ∃ signature, surface.signatures.lookup declaration.id = some signature ∧
      surface.signature (.int declaration.id) = .ok signature ∧
      surface.inventory.isAncillary declaration = signature.primary.isSome := by
  obtain ⟨signatures, hgrouped, hattached, hall⟩ :=
    Inventory.groupAccessors_succeeds h.declared
  obtain rfl := Except.ok.inj (hgrouped.symm.trans h.grouped)
  obtain ⟨signature, hlookup, -⟩ := (apiItems_covers h.itemsRun).2 declaration hdeclaration
  have hancillary := Inventory.primary?_isSome_eq h.declared hattached hall hdeclaration
  refine ⟨signature, hlookup, by rw [signature_int, hlookup], ?_⟩
  rw [← hancillary, Signatures.primary?, hlookup, Option.bind_some]

theorem Steps.item_ancillary (h : Steps graph router surface entities itemized remarked)
    (hkeys : graph.PlainKeys) (hdeclaration : declaration ∈ surface.inventory.allDeclarations)
    {signature : Signature} {primary : Mention}
    (hlookup : surface.signatures.lookup declaration.id = some signature)
    (hprimary : signature.primary = some primary) :
    ∃ getter ∈ surface.inventory.allDeclarations, getter.id = primary.id ∧
      Inventory.getterFor? (surface.inventory.declarationsOf declaration.symbol.key)
        declaration = some getter ∧
      ∃ item, surface.item declaration.id = .ok item ∧ surface.item getter.id = .ok item := by
  have hfound : surface.signatures.primary? declaration.id = some primary := by
    simp [Signatures.primary?, hlookup, hprimary]
  obtain ⟨hpair, hform⟩ := (Inventory.groupAccessors_grouped h.grouped).paired _ _ hfound
  obtain ⟨setter, hsetter, hid, -, getter, hgetter, hfor, hgetterId, -⟩ :=
    Inventory.mem_allPairs_getterFor hpair
  obtain rfl := h.sound.eq_of_id_eq hsetter hdeclaration hid
  change getter.id = primary.id at hgetterId
  have hknown := (Inventory.mem_declarationsOf.mp hgetter).1
  have hend := Inventory.primary?_primary h.grouped h.sound.distinct hfound
  obtain ⟨item, hitem, hown, -⟩ := h.itemOf hkeys hknown (hgetterId ▸ hend)
  refine ⟨getter, hknown, hgetterId, hfor, item, ?_, hown⟩
  exact item_eq_of_lookup (h.coherent _ _ hlookup) hlookup
    (.inr ⟨primary, hprimary, hform⟩) (hgetterId ▸ hitem)

/-- Release tags are inherited.  An ancillary declaration shares the item of its
primary.  Any other declaration has the tag that it declares if it is from outside of
the package, and otherwise the first tag that is declared on the way up from it, or is
public; it is marked as having the tag of its parent exactly if it has it. -/
theorem analyze_inherits (h : analyze graph router = .ok surface) (hkeys : graph.PlainKeys)
    (hdeclaration : declaration ∈ surface.inventory.allDeclarations) :
    ∃ signature item, surface.signature (.int declaration.id) = .ok signature ∧
      surface.item declaration.id = .ok item ∧
      match signature.primary with
      | some primary =>
          surface.inventory.isAncillary declaration = true ∧
          ∃ getter ∈ surface.inventory.allDeclarations, getter.id = primary.id ∧
            Inventory.getterFor? (surface.inventory.declarationsOf declaration.symbol.key)
              declaration = some getter ∧
            surface.item getter.id = .ok item
      | none =>
          surface.inventory.isAncillary declaration = false ∧
          item.declaredTag = graph.declaredTag declaration ∧
          (declaration.symbol.external = true →
            item.effectiveTag = graph.declaredTag declaration) ∧
          (declaration.symbol.external = false →
            ∃ line, surface.inventory.Lineage declaration line ∧
              item.effectiveTag = graph.firstTag line) ∧
          (item.sameAsParent = true ↔
            ∃ owner ∈ surface.inventory.allDeclarations, declaration.parent = some owner.id ∧
              ∃ above, surface.item owner.id = .ok above ∧
                above.effectiveTag = item.effectiveTag) := by
  obtain ⟨entities, itemized, remarked, hsteps⟩ := analyze_steps h
  obtain ⟨signature, hlookup, hsignature, hancillary⟩ := hsteps.signature_known hdeclaration
  cases hprimary : signature.primary with
  | some primary =>
      rw [hprimary] at hancillary
      obtain ⟨getter, hgetter, hid, hfor, item, hitem, hown⟩ :=
        hsteps.item_ancillary hkeys hdeclaration hlookup hprimary
      refine ⟨signature, item, hsignature, hitem, ?_⟩
      rw [hprimary]
      exact ⟨hancillary, getter, hgetter, hid, hfor, hown⟩
  | none =>
      rw [hprimary] at hancillary
      obtain ⟨item, -, hitem, hof⟩ := hsteps.itemOf hkeys hdeclaration
        (by simp [Signatures.primary?, hlookup, hprimary])
      have hsame := hsteps.sameAsParent_iff hdeclaration hof
      refine ⟨signature, item, hsignature, hitem, ?_⟩
      rw [hprimary]
      refine ⟨hancillary, ?_, ?_, hof.inherited, hsame⟩
      · obtain ⟨⟨parent, -, rfl⟩, -⟩ := hof
        rfl
      · intro hexternal
        obtain ⟨⟨parent, -, rfl⟩, -⟩ := hof
        simp [apiItem, effectiveTag, hexternal, ModuleGraph.declaredTag]

/-- A class with a getter, whose type has a property, and a setter; then a class from
outside of the package, with a property. -/
def heirsFile : SourceFile where
  path := .text "index.d.ts"
  text := "class A get x{y} set x{z} class B v".toList
  root := .mk .sourceFile 0 35 0 .null
    ((Inventory.accessorFile .parameter).root.children ++
      [.mk .classDeclaration 26 35 14 .null
        [.mk .classKeyword 26 31 15 .null [], .mk .identifier 32 33 16 .null [],
        .mk .propertySignature 34 35 17 .null [.mk .identifier 34 35 18 .null []]]])

/-- The first class is beta and its getter alpha; the property of the other class is
internal. -/
def heirsPackage : ModuleGraph where
  packageName := .text "heirs"
  files := [heirsFile]
  symbols := [("A", false), ("B", true)].zipWith (fun (name, external) node =>
    { key := .text name
      localName := .text name
      declarations := [⟨heirsFile, [heirsFile.root], node⟩]
      external := external }) heirsFile.root.children
  exports := [(.text "A", .text "A")]
  docFlags := [(1, { releaseTag := .beta }), (4, { releaseTag := .alpha }),
    (17, { releaseTag := .internal })]

theorem analyze_inherits_heirs :
    heirsPackage.PlainKeys ∧ ∃ surface inner item line,
      analyze heirsPackage {} = .ok surface ∧
      surface.inventory.allDeclarations.map surface.tagOf =
        [.beta, .alpha, .alpha, .alpha, .untagged, .internal] ∧
      inner ∈ surface.inventory.allDeclarations ∧ inner.symbol.name = .text "y" ∧
      surface.item inner.id = .ok item ∧ surface.inventory.Lineage inner line ∧
      item.effectiveTag = heirsPackage.firstTag line ∧ heirsPackage.firstTag line = .alpha := by
  have hkeys : heirsPackage.PlainKeys := by
    intro entry hentry
    simp only [heirsPackage, heirsFile, Inventory.accessorFile, Node.children,
      List.cons_append, List.nil_append, List.zipWith_cons_cons, List.zipWith_nil_left,
      List.mem_cons, List.not_mem_nil, or_false] at hentry
    rcases hentry with rfl | rfl
    · exact ⟨"A", rfl, by decide⟩
    · exact ⟨"B", rfl, by decide⟩
  have hrun : (do
      let surface ← analyze heirsPackage {}
      let inner ← pick surface.inventory.allDeclarations 2
      let item ← surface.item inner.id
      let signature ← surface.signature (.int inner.id)
      pure (surface.inventory.allDeclarations.map surface.tagOf, inner.symbol.name,
        inner.symbol.external, signature.primary.isNone, item.effectiveTag)) =
        .ok ([.beta, .alpha, .alpha, .alpha, .untagged, .internal], .text "y", false, true,
          .alpha) := by
    cbv
  simp only [bind_eq_ok, pure_eq_ok, pick_eq_ok, Prod.mk.injEq] at hrun
  obtain ⟨surface, hanalyze, inner, hinner, item, hitem, signature, hsignature, htags, hname,
    hlocal, hprimary, htag⟩ := hrun
  have hinner := List.mem_of_getElem? hinner
  obtain ⟨found, own, hfound, hown, hinherits⟩ := analyze_inherits hanalyze hkeys hinner
  obtain rfl := Except.ok.inj (hsignature.symm.trans hfound)
  obtain rfl := Except.ok.inj (hitem.symm.trans hown)
  rw [Option.isNone_iff_eq_none.mp hprimary] at hinherits
  obtain ⟨-, -, -, hlineage, -⟩ := hinherits
  obtain ⟨line, hline, hfirst⟩ := hlineage hlocal
  exact ⟨hkeys, surface, inner, item, line, hanalyze, htags, hinner, hname, hitem, hline, hfirst,
    hfirst ▸ htag⟩

end Surface

end ApiSurface
