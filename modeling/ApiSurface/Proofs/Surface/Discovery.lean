import ApiSurface.Proofs.Surface.Analysis
import ApiSurface.Proofs.Surface.Validation

/-!
# Discovered entities

The entities of a package are found by following references from its exports.
Naming and sorting change neither what they stand for nor the names under which
they are exported.  Where no check complains, and every export has a name, all
symbols that are found this way are exported, so that all of them are checked.
-/

namespace ApiSurface

/-! ## Following references -/

theorem visit_forall {outgoing : EntityId → List EntityId} {P : EntityId → Prop}
    {unseen pending : List EntityId} (hpending : ∀ id ∈ pending, P id)
    (hstep : ∀ id ∈ unseen, P id → ∀ next ∈ outgoing id, P next) :
    ∀ id ∈ visit outgoing unseen pending, P id := by
  fun_induction visit outgoing unseen pending with
  | case1 => simp
  | case2 unseen first rest hunseen ih =>
      obtain ⟨hfirst, hrest⟩ := List.forall_mem_cons.mp hpending
      refine List.forall_mem_cons.mpr ⟨hfirst, ih ?_ ?_⟩
      · exact List.forall_mem_append.mpr ⟨hstep first hunseen hfirst, hrest⟩
      · exact fun id hid => hstep id (List.mem_of_mem_erase hid)
  | case3 unseen first rest _ ih =>
      exact ih (List.forall_mem_cons.mp hpending).2 hstep

theorem discover_forall {outgoing : EntityId → List EntityId} {P : EntityId → Prop}
    {all exported : List EntityId} (hexported : ∀ id ∈ exported, P id)
    (hstep : ∀ id ∈ all, P id → ∀ next ∈ outgoing id, P next) :
    ∀ id ∈ discover outgoing all exported, P id := by
  intro id hid
  rcases List.mem_append.mp (List.mem_eraseDups.mp hid) with hid | hid
  · exact hexported id hid
  · exact visit_forall hexported hstep id hid

private theorem eraseDups_nodup (values : List EntityId) : values.eraseDups.Nodup := by
  induction hlength : values.length using Nat.strong_induction_on generalizing values with
  | _ length ih =>
      cases values with
      | nil => simp
      | cons first rest =>
          have hshorter : (rest.filter fun other => !other == first).length < length := by
            have hfilter := List.length_filter_le (fun other => !other == first) rest
            simp only [List.length_cons] at hlength
            omega
          rw [List.eraseDups_cons, List.nodup_cons]
          refine ⟨?_, ih _ hshorter _ rfl⟩
          simp [List.mem_eraseDups]

theorem discover_nodup (outgoing : EntityId → List EntityId)
    (all exported : List EntityId) : (discover outgoing all exported).Nodup :=
  eraseDups_nodup _

/-! ## Names and order -/

def Entity.unnamed (entity : Entity) : Entity := entity.setName .null

private theorem Entity.unnamed_eq_iff {one other : Entity} :
    one.unnamed = other.unnamed ↔
      one.subject = other.subject ∧ one.exportNames = other.exportNames := by
  simp [unnamed, setName]

variable {named entities : List Entity}

theorem Entity.exists_of_unnamed (hunnamed : named.map unnamed = entities.map unnamed)
    {entity : Entity} (h : entity ∈ named) : ∃ other ∈ entities,
      other.subject = entity.subject ∧ other.exportNames = entity.exportNames := by
  have hmem : entity.unnamed ∈ entities.map unnamed :=
    hunnamed ▸ List.mem_map_of_mem h
  obtain ⟨other, hother, hsame⟩ := List.mem_map.mp hmem
  exact ⟨other, hother, unnamed_eq_iff.mp hsame⟩

private theorem Naming.assign_unnamed {globals used : List Key}
    (h : assign globals used entities = .ok named) :
    named.map Entity.unnamed = entities.map Entity.unnamed := by
  induction entities generalizing used named with
  | nil =>
      cases h
      rfl
  | cons entity rest ih =>
      simp only [assign, bind_eq_ok] at h
      obtain ⟨ideal, -, h⟩ := h
      split at h
      all_goals
        simp only [bind_eq_ok, pure_eq_ok] at h
        obtain ⟨others, hothers, rfl⟩ := h
        rw [List.map_cons, List.map_cons, ih hothers]
        rfl

theorem Naming.nameAll_unnamed {globals : List Key} (h : nameAll globals entities = .ok named) :
    named.map Entity.unnamed = entities.map Entity.unnamed := by
  obtain ⟨used, -, h⟩ := bind_eq_ok.mp h
  exact assign_unnamed h

theorem sortByKey_perm {α : Type} {key : α → Except Fault Text}
    {values sorted : List α} (h : sortByKey key values = .ok sorted) :
    sorted.Perm values := by
  simp only [sortByKey, bind_eq_ok, pure_eq_ok] at h
  obtain ⟨keyed, hkeyed, rfl⟩ := h
  have hvalues : keyed.map Prod.snd = values := by
    have hpairs := mapM_eq_ok hkeyed
    clear hkeyed
    induction hpairs with
    | nil => rfl
    | cons hpair _ ih =>
        simp only [bind_eq_ok, pure_eq_ok] at hpair
        obtain ⟨text, -, rfl⟩ := hpair
        rw [List.map_cons, ih]
  rw [← hvalues]
  exact (List.mergeSort_perm keyed _).map Prod.snd

/-! ## The entities of a package -/

theorem Entity.foldl_addExportName (names : List Label) (entity : Entity) :
    (names.foldl addExportName entity).subject = entity.subject ∧
    ((names ≠ [] ∨ entity.exported = true) →
      (names.foldl addExportName entity).exported = true) := by
  induction names generalizing entity with
  | nil => simp
  | cons name rest ih =>
      obtain ⟨hsubject, hexported⟩ := ih (entity.addExportName name)
      refine ⟨hsubject, fun _ => hexported (.inr ?_)⟩
      unfold exported addExportName Label.insert
      split
      · rename_i hamong
        cases hnames : entity.exportNames with
        | nil => simp [hnames, Label.among] at hamong
        | cons _ _ => rfl
      · simp

namespace Inventory

variable {inventory : Inventory}

variable {key : Key} {subject : Subject}

theorem symbol?_key {symbol : Symbol} (h : inventory.symbol? key = some symbol) :
    symbol.key = key := by
  simpa using List.find?_some h

theorem import?_key {entry : LabelledImport} (h : inventory.import? key = some entry) :
    entry.key = key := by
  simpa using List.find?_some h

theorem subject?_id {id : EntityId} (h : inventory.subject? id = some subject) :
    subject.id = id := by
  cases id with
  | symbol key =>
      obtain ⟨symbol, hsymbol, rfl⟩ := Option.map_eq_some_iff.mp h
      exact congrArg EntityId.symbol (symbol?_key hsymbol)
  | imported key =>
      obtain ⟨entry, hentry, rfl⟩ := Option.map_eq_some_iff.mp h
      exact congrArg EntityId.imported (import?_key hentry)

theorem lookup_eq_ok {key : Datum} (h : inventory.lookup key = .ok subject) :
    ∃ name, key.key? = some name ∧
      ((∃ symbol, inventory.symbol? name = some symbol ∧ subject = symbol.subject) ∨
        ∃ entry, inventory.symbol? name = none ∧
          inventory.import? name = some entry ∧ subject = entry.subject) := by
  simp only [lookup, bind_eq_ok] at h
  obtain ⟨name, hname, h⟩ := h
  refine ⟨name, ?_, ?_⟩
  · unfold Datum.key at hname
    split at hname
    · rename_i hkey
      rw [hkey, Except.ok.inj hname]
    · cases hname
  · split at h
    · rename_i _ symbol hsymbol
      exact .inl ⟨symbol, hsymbol, (pure_eq_ok.mp h).symm⟩
    · rename_i entry hsymbol hentry
      exact .inr ⟨entry, hsymbol, hentry, (pure_eq_ok.mp h).symm⟩
    · cases h

theorem lookup_known {key : Datum} (h : inventory.lookup key = .ok subject) :
    inventory.subject? subject.id = some subject := by
  obtain ⟨name, -, ⟨symbol, hsymbol, rfl⟩ | ⟨entry, -, hentry, rfl⟩⟩ := lookup_eq_ok h
  · have hkey := symbol?_key hsymbol
    simp only [Symbol.subject, Subject.id, subject?]
    rw [show symbol.label.key = name from hkey, hsymbol]
    rfl
  · have hkey := import?_key hentry
    simp only [LabelledImport.subject, Subject.id, subject?]
    rw [show entry.label.key = name from hkey, hentry]
    rfl

theorem subject?_of_mem_entityIds (h : .symbol key ∈ inventory.entityIds) :
    ∃ subject, inventory.subject? (.symbol key) = some subject := by
  have hsome : (inventory.symbol? key).isSome = true := by
    rw [symbol?, List.find?_isSome]
    simpa [entityIds] using h
  obtain ⟨symbol, hsymbol⟩ := Option.isSome_iff_exists.mp hsome
  exact ⟨symbol.subject, by rw [subject?, hsymbol]; rfl⟩

end Inventory

def ExportedAmong (entities : List Entity) (id : EntityId) : Prop :=
  ∃ entity ∈ entities, entity.subject.id = id ∧ entity.exported = true

variable {inventory : Inventory} {exported : List (Option Label × EntityId)}
  {ids : List EntityId}

theorem mem_collectEntities {entity : Entity}
    (h : entity ∈ collectEntities inventory exported ids) :
    entity.subject.id ∈ ids ∧
      inventory.subject? entity.subject.id = some entity.subject := by
  obtain ⟨id, hid, h⟩ := List.mem_filterMap.mp h
  obtain ⟨subject, hsubject, rfl⟩ := Option.map_eq_some_iff.mp h
  rw [(Entity.foldl_addExportName _ _).1, Inventory.subject?_id hsubject]
  exact ⟨hid, hsubject⟩

theorem collectEntities_ids :
    (collectEntities inventory exported ids).map (fun entity => entity.subject.id) =
      ids.filter fun id => (inventory.subject? id).isSome := by
  unfold collectEntities
  induction ids with
  | nil => rfl
  | cons id rest ih =>
      cases hsubject : inventory.subject? id with
      | none => simpa [hsubject] using ih
      | some subject =>
          simp only [List.filterMap_cons, hsubject, Option.map_some, List.map_cons,
            (Entity.foldl_addExportName _ _).1, Inventory.subject?_id hsubject,
            Option.isSome_some, List.filter_cons_of_pos, ih]

private theorem exportedAmong_collectEntities {name : Label} {id : EntityId}
    {subject : Subject} (hid : id ∈ ids) (hexported : (some name, id) ∈ exported)
    (hsubject : inventory.subject? id = some subject) :
    ExportedAmong (collectEntities inventory exported ids) id := by
  refine ⟨_, List.mem_filterMap.mpr ⟨id, hid, by rw [hsubject]; rfl⟩, ?_, ?_⟩
  · rw [(Entity.foldl_addExportName _ _).1, Inventory.subject?_id hsubject]
  · refine (Entity.foldl_addExportName _ _).2 (.inl (List.ne_nil_of_mem
      (List.mem_filterMap.mpr ⟨(some name, id), ?_, rfl⟩)))
    simp [hexported]

private theorem ExportedAmong.of_unnamed {id : EntityId}
    (hunnamed : named.map Entity.unnamed = entities.map Entity.unnamed)
    (h : ExportedAmong entities id) : ExportedAmong named id := by
  obtain ⟨entity, hentity, hid, hexported⟩ := h
  obtain ⟨other, hother, hsubject, hnames⟩ :=
    Entity.exists_of_unnamed hunnamed.symm hentity
  exact ⟨other, hother, hsubject ▸ hid,
    by simpa [Entity.exported, hnames] using hexported⟩

private theorem resolveExports_named {entries : List (Datum × Datum)}
    (h : entries.mapM (resolveExport inventory) = .ok exported)
    (hpresent : ∀ entry ∈ entries, entry.1.present = true) :
    ∀ id ∈ exported.map Prod.snd, ∃ label, (some label, id) ∈ exported := by
  intro id hid
  obtain ⟨⟨name, found⟩, hmem, rfl⟩ := List.mem_map.mp hid
  obtain ⟨entry, hentry, hresolved⟩ := exists_of_mem_mapM h hmem
  obtain ⟨-, hnamed, -⟩ := resolveExport_eq_ok hresolved
  obtain ⟨label, rfl⟩ := Option.isSome_iff_exists.mp (hnamed.trans (hpresent entry hentry))
  exact ⟨label, hmem⟩

private theorem resolveEntities_eq_ok {graph : ModuleGraph} {references : References}
    (h : resolveEntities graph inventory references = .ok entities)
    (hnames : ∀ entry ∈ graph.exports, entry.1.present = true) :
    ∃ first : List EntityId,
      (∀ entity ∈ entities,
        entity.subject.id ∈ discover (references.outgoing inventory)
          inventory.entityIds first ∧
        inventory.subject? entity.subject.id = some entity.subject) ∧
      ∀ id ∈ first, ∀ subject, inventory.subject? id = some subject →
        ExportedAmong entities id := by
  simp only [resolveEntities, bind_eq_ok] at h
  obtain ⟨exported, hexported, hnamed⟩ := h
  have hunnamed := Naming.nameAll_unnamed hnamed
  refine ⟨(exported.map Prod.snd).eraseDups, ?_, ?_⟩
  · intro entity hentity
    obtain ⟨other, hother, hsubject, -⟩ := Entity.exists_of_unnamed hunnamed hentity
    rw [← hsubject]
    exact mem_collectEntities hother
  · intro id hid subject hsubject
    obtain ⟨label, hlabel⟩ :=
      resolveExports_named hexported hnames id (List.mem_eraseDups.mp hid)
    refine .of_unnamed hunnamed (exportedAmong_collectEntities ?_ hlabel hsubject)
    exact List.mem_eraseDups.mpr (List.mem_append_left _ hid)

/-! ## Analyses without complaints -/

namespace Surface

/-- Where no check complains and every export has a name, all symbols among the
entities were checked: those that are exported directly, and from there on
those they refer to. -/
theorem Steps.checked {graph : ModuleGraph} {router : Router} {surface : Surface}
    {entities : List Entity} {itemized remarked : Router}
    (h : Steps graph router surface entities itemized remarked)
    (hquiet : surface.router.Quiet)
    (hlocal : ∀ entry ∈ graph.symbols, entry.external = false)
    (hnames : ∀ entry ∈ graph.exports, entry.1.present = true) :
    ∀ entity ∈ surface.entities, ∀ key, entity.subject.id = .symbol key →
      (surface.draft entities).Checked key := by
  have hsymbols : ∀ key symbol, surface.inventory.symbol? key = some symbol →
      symbol.external = false := fun _ _ hsymbol =>
    Inventory.symbol?_local h.declared hlocal hsymbol
  have hchecks : ∀ key, ExportedAmong entities (.symbol key) →
      (surface.draft entities).Checked key := by
    rintro key ⟨entity, hentity, hid, hexported⟩
    have hruns := (checkEntities_quietly [] entities _ _ _ h.checksRun).2 hquiet
    exact hruns rfl entity hentity key hid hexported (hsymbols key)
  obtain ⟨first, hfound, hfirst⟩ := resolveEntities_eq_ok h.resolved hnames
  have hexported : ∀ id ∈ discover (surface.references.outgoing surface.inventory)
      surface.inventory.entityIds first, ∀ key, id = .symbol key →
      ∀ subject, surface.inventory.subject? id = some subject →
      ExportedAmong entities id := by
    refine discover_forall (fun id hid key _ => hfirst id hid) ?_
    intro id hid hbefore next hnext key hkey subject hsubject
    subst hkey
    cases id with
    | imported _ => cases hnext
    | symbol source =>
        -- The symbol was checked, and so were its references.
        obtain ⟨declaration, hdeclaration, hnext⟩ := List.mem_flatMap.mp hnext
        obtain ⟨member, hmember, hrefers⟩ := List.mem_flatMap.mp hnext
        obtain ⟨known, hknown⟩ := Inventory.subject?_of_mem_entityIds hid
        have hchecked := hchecks source (hbefore source rfl known hknown)
        obtain ⟨symbol, hsymbol, -⟩ := Option.map_eq_some_iff.mp hsubject
        obtain ⟨⟨entity, hentity, hexported⟩, -⟩ := hchecked.compatible member
          (Declaration.mem_walkAll.mpr ⟨declaration, hdeclaration, hmember⟩)
          _ hrefers key symbol rfl hsymbol (hsymbols key symbol hsymbol)
        exact ⟨entity, List.mem_of_find?_eq_some hentity,
          by simpa using List.find?_some hentity, hexported⟩
  intro entity hentity key hid
  have hmem : entity ∈ entities := (sortByKey_perm h.sorted).mem_iff.mp hentity
  obtain ⟨hdiscovered, hsubject⟩ := hfound entity hmem
  exact hchecks key (hid ▸ hexported _ hdiscovered key hid _ hsubject)

end Surface

end ApiSurface
