import ApiSurface.Proofs.Surface.Forest
import ApiSurface.Proofs.Surface.Naming

/-!
# The names of a package

The entities of a package are named in the order in which they are discovered.
Whether that succeeds can be read off the exports: it fails where two exports of
different things have one name.  If it succeeds, the names are free of
collisions.
-/

namespace ApiSurface

theorem Inventory.exportTarget_known {inventory : Inventory} {entry : Datum × Datum}
    {id : EntityId} (h : inventory.exportTarget entry = .ok id) :
    ∃ subject, inventory.subject? id = some subject := by
  simp only [exportTarget, bind_eq_ok] at h
  obtain ⟨subject, hlookup, h⟩ := h
  have hid : subject.id = id := by
    split at h
    · rename_i key hkey
      split at h
      · cases h
      · exact hkey.trans (pure_eq_ok.mp h)
    · rename_i key hkey
      exact hkey.trans (pure_eq_ok.mp h)
  exact ⟨subject, hid ▸ lookup_known hlookup⟩

theorem labelImports_eq_ok {table : SymbolTable} {earlier : List Label}
    {entries : List ImportEntry} {imports : List LabelledImport}
    (h : labelImports table earlier entries = .ok imports) :
    ∀ entry ∈ imports, (∃ given ∈ entries, entry.source = given.source) ∧
      ∀ symbol ∈ table.symbols, symbol.key ≠ entry.key := by
  induction entries generalizing earlier imports with
  | nil =>
      cases h
      simp
  | cons first rest ih =>
      simp only [labelImports, bind_eq_ok] at h
      obtain ⟨label, -, h⟩ := h
      split at h
      · cases h
      · rename_i hfresh
        simp only [bind_eq_ok, pure_eq_ok] at h
        obtain ⟨others, hothers, rfl⟩ := h
        refine List.forall_mem_cons.mpr ⟨⟨⟨first, by simp, rfl⟩, fun symbol hsymbol hkey =>
          hfresh ?_⟩, fun entry hentry => ?_⟩
        · rw [Bool.or_eq_true]
          right
          rw [SymbolTable.find?, List.find?_isSome]
          exact ⟨symbol, hsymbol, decide_eq_true hkey⟩
        · obtain ⟨⟨given, hgiven, hsource⟩, hnone⟩ := ih hothers entry hentry
          exact ⟨⟨given, by simp [hgiven], hsource⟩, hnone⟩

structure ModuleGraph.TextNames (graph : ModuleGraph) : Prop where
  symbols : ∀ entry ∈ graph.symbols, ∃ text, entry.localName = .text text
  imports : ∀ entry ∈ graph.imports, ∃ path name,
    entry.source.modulePath = .text path ∧ entry.source.exportName = .text name

theorem Import.localName_text {source : Import} {path name : String}
    (hpath : source.modulePath = .text path) (hname : source.exportName = .text name) :
    ∃ text, source.localName = .ok (.text text) := by
  unfold localName topName
  rw [hpath, hname]
  split
  · split
    · exact ⟨_, rfl⟩
    · exact ⟨_, rfl⟩
  · exact ⟨name, rfl⟩

theorem Inventory.localName_text {graph : ModuleGraph} {inventory : Inventory}
    (hdeclared : ofGraph graph = .ok inventory) (htexts : graph.TextNames)
    {id : EntityId} {subject : Subject} (h : inventory.subject? id = some subject) :
    ∃ text, subject.localName = .ok (.text text) := by
  cases id with
  | symbol key =>
      obtain ⟨symbol, hsymbol, rfl⟩ := Option.map_eq_some_iff.mp h
      obtain ⟨text, htext⟩ := (ofGraph_forest hdeclared).entered.name_text
        htexts.symbols symbol (List.mem_of_find?_eq_some hsymbol)
      exact ⟨text, congrArg Except.ok htext⟩
  | imported key =>
      obtain ⟨entry, hentry, rfl⟩ := Option.map_eq_some_iff.mp h
      simp only [ofGraph, bind_eq_ok, pure_eq_ok] at hdeclared
      obtain ⟨_, -, imports, himports, rfl⟩ := hdeclared
      obtain ⟨⟨given, hgiven, hsource⟩, -⟩ := labelImports_eq_ok himports entry
        (List.mem_of_find?_eq_some hentry)
      obtain ⟨path, name, hpath, hname⟩ := htexts.imports given hgiven
      rw [← hsource] at hpath hname
      exact Import.localName_text hpath hname

namespace Naming

theorem mem_foldl_addExportName {names : List Label} {entity : Entity} :
    (∀ name ∈ (names.foldl Entity.addExportName entity).exportNames,
      name ∈ entity.exportNames ∨ name ∈ names) ∧
    ∀ key, key ∈ exportKeys entity ∨ key ∈ names.map Label.key →
      key ∈ exportKeys (names.foldl Entity.addExportName entity) := by
  induction names generalizing entity with
  | nil => simp
  | cons first rest ih =>
      obtain ⟨hnames, hkeys⟩ := @ih (entity.addExportName first)
      have hadded : ∀ name ∈ (entity.addExportName first).exportNames,
          name ∈ entity.exportNames ∨ name = first := by
        simp only [Entity.addExportName, Label.insert]
        split <;> simp_all
      have hkept : ∀ key, key ∈ exportKeys entity ∨ key = first.key →
          key ∈ exportKeys (entity.addExportName first) := by
        simp only [exportKeys, Entity.addExportName, Label.insert]
        split
        · rename_i hamong
          rintro key (hkey | rfl)
          · exact hkey
          · simpa [Label.among] using hamong
        · intro key hkey
          rw [List.map_append, List.mem_append]
          exact hkey.imp_right (by simp [·])
      constructor
      · intro name hname
        rcases hnames name hname with hname | hname
        · exact (hadded name hname).imp_right (by simp [·])
        · exact .inr (by simp [hname])
      · intro key hkey
        rw [List.map_cons, List.mem_cons, ← or_assoc] at hkey
        exact hkeys key (hkey.imp_left (hkept key))

variable {globals : List Key} {graph : ModuleGraph} {inventory : Inventory}
  {references : References} {exported : List (Option Label × EntityId)}
  {ids : List EntityId}

theorem exportNames_collectEntities {entity : Entity}
    (h : entity ∈ collectEntities inventory exported ids) :
    (∀ name ∈ entity.exportNames, (some name, entity.subject.id) ∈ exported) ∧
    ∀ name, (some name, entity.subject.id) ∈ exported →
      name.key ∈ exportKeys entity := by
  obtain ⟨id, -, h⟩ := List.mem_filterMap.mp h
  obtain ⟨subject, hsubject, rfl⟩ := Option.map_eq_some_iff.mp h
  rw [(Entity.foldl_addExportName _ _).1, Inventory.subject?_id hsubject]
  have hlisted : ∀ name, name ∈ (exported.filter fun entry => entry.2 = id).filterMap
      Prod.fst ↔ (some name, id) ∈ exported := by
    intro name
    simp only [List.mem_filterMap, List.mem_filter, decide_eq_true_eq, Prod.exists]
    constructor
    · rintro ⟨_, _, ⟨hmem, rfl⟩, rfl⟩
      exact hmem
    · intro hmem
      exact ⟨_, _, ⟨hmem, rfl⟩, rfl⟩
  constructor
  · intro name hname
    rcases mem_foldl_addExportName.1 name hname with hname | hname
    · cases hname
    · exact (hlisted name).mp hname
  · intro name hname
    exact mem_foldl_addExportName.2 _
      (.inr (List.mem_map_of_mem ((hlisted name).mpr hname)))

def SharedExport (exported : List (Option Label × EntityId)) : Prop :=
  ∃ one other : Label, ∃ first second, (some one, first) ∈ exported ∧
    (some other, second) ∈ exported ∧ first ≠ second ∧ one.key = other.key

private theorem shared_collectEntities
    (hexports : graph.exports.mapM (resolveExport inventory) = .ok exported)
    (hids : ∀ id ∈ exported.map Prod.snd, id ∈ ids) :
    Shared (collectEntities inventory exported ids) ↔ SharedExport exported := by
  have hentity : ∀ name id, (some name, id) ∈ exported →
      ∃ entity ∈ collectEntities inventory exported ids, entity.subject.id = id := by
    intro name id hmem
    obtain ⟨entry, -, hresolved⟩ := exists_of_mem_mapM hexports hmem
    obtain ⟨subject, hsubject⟩ :=
      Inventory.exportTarget_known (resolveExport_eq_ok hresolved).1
    have hid : id ∈ (collectEntities inventory exported ids).map
        fun entity => entity.subject.id := by
      rw [collectEntities_ids, List.mem_filter]
      exact ⟨hids id (List.mem_map_of_mem hmem), by simp [hsubject]⟩
    simpa using hid
  constructor
  · rintro ⟨one, hone, other, hother, hne, key, hkey, hkey'⟩
    obtain ⟨first, hfirst, rfl⟩ := List.mem_map.mp hkey
    obtain ⟨second, hsecond, hsame⟩ := List.mem_map.mp hkey'
    exact ⟨first, second, _, _, (exportNames_collectEntities hone).1 first hfirst,
      (exportNames_collectEntities hother).1 second hsecond, hne, hsame.symm⟩
  · rintro ⟨one, other, first, second, hone, hother, hne, hsame⟩
    obtain ⟨left, hleft, rfl⟩ := hentity one first hone
    obtain ⟨right, hright, rfl⟩ := hentity other second hother
    exact ⟨left, hleft, right, hright, hne, one.key,
      (exportNames_collectEntities hleft).2 one hone,
      hsame ▸ (exportNames_collectEntities hright).2 other hother⟩

theorem proper_collectEntities
    (hexports : graph.exports.mapM (resolveExport inventory) = .ok exported) :
    ∀ entity ∈ collectEntities inventory exported ids, Proper entity := by
  intro entity hentity name hname
  have hmem := (exportNames_collectEntities hentity).1 name hname
  obtain ⟨entry, -, hresolved⟩ := exists_of_mem_mapM hexports hmem
  obtain ⟨-, hpresent, hlabel⟩ := resolveExport_eq_ok hresolved
  obtain ⟨hdatum, hkey⟩ := Label.ofDatum_eq_ok.mp (hlabel name rfl)
  refine ⟨hdatum ▸ hkey, ?_⟩
  rw [hdatum]
  cases hentry : entry.1 <;> simp_all [Datum.isNull, Datum.present]

private theorem idealName_ok {entity : Entity} (hproper : Proper entity)
    (hlocal : ∃ text, entity.localName = .ok (.text text)) :
    ∃ ideal, idealName entity = .ok ideal := by
  obtain ⟨text, htext⟩ := hlocal
  rcases idealName_eq hproper with ⟨name, -, -, hname⟩ | ⟨-, hname⟩
  · exact ⟨name, hname⟩
  · refine ⟨Label.ofText text, ?_⟩
    rw [hname, htext]
    rfl

private theorem Chosen.isNull_eq_false {entities earlier : List Entity} {entity : Entity}
    (hproper : Proper entity)
    (hlocal : ∃ text, entity.localName = .ok (.text text))
    (h : Chosen globals entities earlier entity) : entity.name.isNull = false := by
  obtain ⟨ideal, hideal, hkept, hnumbered⟩ := h
  have hthere : ideal.datum.isNull = false := by
    cases hideal with
    | single only _ => exact (hproper ideal (by simp [only])).2
    | own _ isLocal labelled =>
        obtain ⟨text, htext⟩ := hlocal
        rw [isLocal] at htext
        rw [(Label.ofDatum_eq_ok.mp labelled).1, Except.ok.inj htext]
        rfl
  by_cases hkeeps : Keeps globals entity ideal
  · rw [hkept hkeeps, hthere]
  · obtain ⟨count, hname, -⟩ := hnumbered hkeeps
    rw [hname]
    cases count with
    | zero => exact hthere
    | succ count => rfl

/-! ## Naming the entities of a package -/

/-- The entities of a package before they are named, in the order of discovery. -/
def discovered (inventory : Inventory) (references : References)
    (exported : List (Option Label × EntityId)) : List Entity :=
  collectEntities inventory exported
    (discover (references.outgoing inventory) inventory.entityIds
      (exported.map Prod.snd).eraseDups)

theorem resolveEntities_eq
    (hexports : graph.exports.mapM (resolveExport inventory) = .ok exported) :
    resolveEntities graph inventory references =
      nameAll (graph.globalNames.map Label.key)
        (discovered inventory references exported) := by
  simp only [resolveEntities, hexports, bind, Except.bind]
  rfl

theorem discovered_nodup :
    ((discovered inventory references exported).map
      fun entity => entity.subject.id).Nodup := by
  rw [discovered, collectEntities_ids]
  exact (discover_nodup _ _ _).filter _

theorem shared_discovered
    (hexports : graph.exports.mapM (resolveExport inventory) = .ok exported) :
    Shared (discovered inventory references exported) ↔ SharedExport exported := by
  refine shared_collectEntities hexports fun id hid => ?_
  exact List.mem_eraseDups.mpr (List.mem_append_left _ (List.mem_eraseDups.mpr hid))

theorem discovered_localName (hdeclared : Inventory.ofGraph graph = .ok inventory)
    (htexts : graph.TextNames) {entity : Entity}
    (h : entity ∈ discovered inventory references exported) :
    ∃ text, entity.localName = .ok (.text text) :=
  Inventory.localName_text hdeclared htexts (mem_collectEntities h).2

/-- The names of a package.  Naming complains about an export exactly if two
exports of different things have one name, and where names are texts it does not
fail otherwise.  After an analysis the names are free of collisions. -/
theorem analyze_collisionFree (hdeclared : Inventory.ofGraph graph = .ok inventory)
    (hreferred : inventory.references graph = .ok references)
    (hexports : graph.exports.mapM (resolveExport inventory) = .ok exported) :
    ((∃ name, resolveEntities graph inventory references =
        .error (.defect (.duplicateExport name))) ↔ SharedExport exported) ∧
    (graph.TextNames →
      ((∃ fault, resolveEntities graph inventory references = .error fault) ↔
        SharedExport exported)) ∧
    ∀ router surface, Surface.analyze graph router = .ok surface →
      ∃ named, named.Perm surface.entities ∧
        named.map Entity.unnamed =
          (discovered inventory references exported).map Entity.unnamed ∧
        CollisionFree (graph.globalNames.map Label.key) named ∧
        (graph.TextNames → ∀ entity ∈ named, entity.name.isNull = false) := by
  have hproper : ∀ entity ∈ discovered inventory references exported, Proper entity :=
    proper_collectEntities hexports
  have hduplicate : (∃ name, resolveEntities graph inventory references =
      .error (.defect (.duplicateExport name))) ↔ SharedExport exported := by
    rw [resolveEntities_eq hexports, nameAll_eq_error_iff discovered_nodup,
      shared_discovered hexports]
  refine ⟨hduplicate, fun htexts => ⟨?_, ?_⟩, fun router surface hanalyze => ?_⟩
  · rintro ⟨fault, hfault⟩
    by_contra hshared
    rw [← shared_discovered hexports] at hshared
    obtain ⟨named, hnamed⟩ := nameAll_ok discovered_nodup hshared fun entity hentity =>
      idealName_ok (hproper entity hentity) (discovered_localName hdeclared htexts hentity)
    rw [resolveEntities_eq hexports, hnamed] at hfault
    cases hfault
  · intro hshared
    obtain ⟨name, hname⟩ := hduplicate.mpr hshared
    exact ⟨_, hname⟩
  · obtain ⟨named, itemized, remarked, hsteps⟩ := Surface.analyze_steps hanalyze
    obtain rfl := Except.ok.inj (hdeclared.symm.trans hsteps.declared)
    obtain rfl := Except.ok.inj (hreferred.symm.trans hsteps.referred)
    have hnamed := hsteps.resolved
    rw [resolveEntities_eq hexports] at hnamed
    have hunnamed := nameAll_unnamed hnamed
    have hfree := nameAll_collisionFree hproper discovered_nodup hnamed
    refine ⟨named, (sortByKey_perm hsteps.sorted).symm, hunnamed, hfree, ?_⟩
    intro htexts entity hentity
    obtain ⟨other, hother, hsubject, hnames⟩ := Entity.exists_of_unnamed hunnamed hentity
    obtain ⟨earlier, later, hsplit⟩ := List.append_of_mem hentity
    refine (hfree.chosen earlier entity later hsplit).isNull_eq_false ?_ ?_
    · rw [Proper, ← hnames]
      exact hproper other hother
    · rw [Entity.localName, ← hsubject]
      exact discovered_localName hdeclared htexts hother

/-- A class that mentions an import, a second class and a third one. -/
def crowdedFile : SourceFile where
  path := .text "index.d.ts"
  text := "X I Y W".toList
  root := .mk .sourceFile 0 7 0 .null
    [.mk .classDeclaration 0 3 1 .null
      [.mk .identifier 0 1 2 .null [], .mk .identifier 2 3 3 .null []],
    .mk .classDeclaration 4 5 4 .null [.mk .identifier 4 5 5 .null []],
    .mk .classDeclaration 6 7 6 .null [.mk .identifier 6 7 7 .null []]]

def crowdedPackage : ModuleGraph where
  packageName := .text "crowd"
  files := [crowdedFile]
  symbols := (crowdedFile.root.children.zip ["X", "Y", "X_1"]).map fun entry =>
    { key := .text entry.2
      localName := .text entry.2
      declarations := [⟨crowdedFile, [crowdedFile.root], entry.1⟩] }
  imports := [{ key := .text "I", source :=
    { kind := .named, modulePath := .text "lib", exportName := .text "X" } }]
  bindings := [(3, .text "I")]
  exports := [(.text "A", .text "X"), (.text "B", .text "X"), (.text "X", .text "Y"),
    (.text "default", .text "X_1")]
  globalNames := [.ofText "X_2"]

/-- The first class gives way to the second one, the third one to the first, and
the import to all of them and to a global name. -/
theorem analyze_collisionFree_crowded :
    ∃ inventory references exported surface,
      Inventory.ofGraph crowdedPackage = .ok inventory ∧
      inventory.references crowdedPackage = .ok references ∧
      crowdedPackage.exports.mapM (resolveExport inventory) = .ok exported ∧
      Surface.analyze crowdedPackage {} = .ok surface ∧
      surface.entities.map Entity.nameText = ["X", "X_1", "X_1_1", "X_3"] ∧
      ∃ named, named.Perm surface.entities ∧
        CollisionFree [.text "X_2"] named ∧
        ∀ entity ∈ named, entity.name.isNull = false := by
  have hrun : (do
      let inventory ← Inventory.ofGraph crowdedPackage
      let references ← inventory.references crowdedPackage
      let exported ← crowdedPackage.exports.mapM (resolveExport inventory)
      let surface ← Surface.analyze crowdedPackage {}
      pure (surface.entities.map Entity.nameText)) =
        .ok ["X", "X_1", "X_1_1", "X_3"] := by
    cbv
  simp only [bind_eq_ok, pure_eq_ok] at hrun
  obtain ⟨inventory, hdeclared, references, hreferred, exported, hexports, surface,
    hanalyze, hnames⟩ := hrun
  have htexts : crowdedPackage.TextNames := by
    constructor
    · intro entry hentry
      obtain ⟨pair, -, rfl⟩ := List.mem_map.mp hentry
      exact ⟨pair.2, rfl⟩
    · simp [crowdedPackage]
  obtain ⟨named, hperm, -, hfree, hthere⟩ :=
    (analyze_collisionFree hdeclared hreferred hexports).2.2 _ _ hanalyze
  exact ⟨inventory, references, exported, surface, hdeclared, hreferred, hexports,
    hanalyze, hnames, named, hperm, hfree, hthere htexts⟩

def anonymousFile : SourceFile where
  path := .text "index.d.ts"
  text := "f".toList
  root := .mk .sourceFile 0 1 0 .null
    [.mk .functionDeclaration 0 1 1 .null [.mk .identifier 0 1 2 .null []]]

/-- A function without a name of its own, the default export of the package. -/
def anonymousPackage : ModuleGraph where
  packageName := .text "anonymous"
  files := [anonymousFile]
  symbols := [{
    key := .text "f"
    localName := .text "default"
    declarations := anonymousFile.root.children.map
      fun node => ⟨anonymousFile, [anonymousFile.root], node⟩ }]
  exports := [(.text "default", .text "f")]

/-- An entity does not keep its ideal name `default`, although it is exported
under it and the name is not global. -/
theorem default_not_kept :
    ∃ surface entity ideal, Surface.analyze anonymousPackage {} = .ok surface ∧
      entity ∈ surface.entities ∧ Ideal entity ideal ∧
      ideal.key ∈ exportKeys entity ∧
      ideal.key ∉ anonymousPackage.globalNames.map Label.key ∧
      entity.name = .text "default_1" ∧ entity.name ≠ ideal.datum := by
  have hrun : (do
      let surface ← Surface.analyze anonymousPackage {}
      pure (surface.entities.map fun entity : Entity =>
        (entity.name, entity.localName, entity.exportNames))) =
      .ok [(Datum.text "default_1", .ok (Datum.text "default"),
        [Label.ofText "default"])] := by
    cbv
  simp only [bind_eq_ok, pure_eq_ok] at hrun
  obtain ⟨surface, hanalyze, hentities⟩ := hrun
  obtain ⟨entity, rest, hsplit, hfields, -⟩ := List.map_eq_cons_iff.mp hentities
  simp only [Prod.mk.injEq] at hfields
  obtain ⟨hname, hlocal, hexported⟩ := hfields
  refine ⟨surface, entity, Label.ofText "default", hanalyze, by simp [hsplit],
    .own ?_ hlocal rfl, ?_, by simp [anonymousPackage], hname, ?_⟩
  · rw [hexported]
    rintro single hsingle
    rw [← (List.cons.inj hsingle).1]
    rfl
  · simp [exportKeys, hexported]
  · rw [hname]
    simp [Label.ofText]

end Naming

end ApiSurface
