import ApiSurface.Proofs.Surface.Names
import ApiSurface.Proofs.Surface.Reachable
import ApiSurface.Proofs.Surface.SortKeys

/-!
# The order of exports

The same exports in another order lead to the same entities, with the same
export names and ideal names, although they are discovered in another order.  If
every entity gets its ideal name for one order of the exports, it gets it for
every other order as well, and the entities end up in the same order.
-/

namespace ApiSurface

/-! ## What does not depend on exports -/

theorem Inventory.collectTargets_exports (graph : ModuleGraph)
    (exports : List (Datum × Datum)) (inventory : Inventory) (own : Key) :
    ∀ (nodes : List Node) (found : List EntityId),
      collectTargets { graph with exports := exports } inventory own found nodes =
        collectTargets graph inventory own found nodes
  | [], _ => rfl
  | node :: rest, found => by
      simp only [collectTargets, collectTargets_exports graph exports inventory own rest]
      rfl

private theorem Inventory.references_exports (graph : ModuleGraph)
    (exports : List (Datum × Datum)) (inventory : Inventory) :
    inventory.references { graph with exports := exports } =
      inventory.references graph := by
  simp only [references, referencesOf, collectTargets_exports]

variable {next : EntityId}

private theorem Inventory.references_denoted {graph : ModuleGraph} {inventory : Inventory}
    {references : References} (hdeclared : ofGraph graph = .ok inventory)
    (hreferred : inventory.references graph = .ok references) {number : Nat}
    (h : next ∈ references.of number) :
    ∃ key, inventory.Denotes key next := by
  cases hfound : references.lookup number with
  | none => simp [References.of, hfound] at h
  | some targets =>
      simp only [References.of, hfound, Option.getD_some] at h
      obtain ⟨declaration, -, hentry⟩ :=
        exists_of_mem_mapM hreferred (Entries.mem_of_lookup hfound)
      simp only [bind_eq_ok, pure_eq_ok, Prod.mk.injEq] at hentry
      obtain ⟨_, htargets, -, rfl⟩ := hentry
      rcases (mem_collectTargets htargets next).mp h with h | ⟨-, node, -, bound, -, h⟩
      · cases h
      · obtain ⟨key, -, hdenotes⟩ := target_denotes hdeclared h
        exact ⟨key, hdenotes⟩

theorem Inventory.outgoing_denoted {graph : ModuleGraph} {inventory : Inventory}
    {references : References} (hdeclared : ofGraph graph = .ok inventory)
    (hreferred : inventory.references graph = .ok references) {id : EntityId}
    (h : next ∈ references.outgoing inventory id) : ∃ key, inventory.Denotes key next := by
  cases id with
  | imported key => cases h
  | symbol key =>
      simp only [References.outgoing, List.mem_flatMap] at h
      obtain ⟨_, -, member, -, h⟩ := h
      exact references_denoted hdeclared hreferred h

private theorem Inventory.outgoing_known {graph : ModuleGraph} {inventory : Inventory}
    {references : References} (hdeclared : ofGraph graph = .ok inventory)
    (hreferred : inventory.references graph = .ok references) {id : EntityId}
    (h : next ∈ references.outgoing inventory id) : next ∈ inventory.entityIds := by
  obtain ⟨key, hdenotes⟩ := outgoing_denoted hdeclared hreferred h
  exact hdenotes.mem_entityIds

/-! ## Discovery -/

theorem discover_of_subset {outgoing : EntityId → List EntityId}
    {all first second : List EntityId} (hknown : ∀ id ∈ second, id ∈ all)
    (hclosed : ∀ id next, next ∈ outgoing id → next ∈ all)
    (hsubset : ∀ id ∈ first, id ∈ second) :
    ∀ id ∈ discover outgoing all first, id ∈ discover outgoing all second := by
  refine discover_forall (fun id hid => ?_) fun id _ hid next hnext => ?_
  · exact List.mem_eraseDups.mpr (List.mem_append_left _ (hsubset id hid))
  · exact discover_closed hknown hid hnext (hclosed id next hnext)

section Reordered

variable {graph : ModuleGraph} {inventory : Inventory} {references : References}
  {exports : List (Datum × Datum)} {exported reexported : List (Option Label × EntityId)}

theorem mem_exported (hmem : ∀ entry ∈ exports, entry ∈ graph.exports)
    (hexports : graph.exports.mapM (resolveExport inventory) = .ok exported)
    (hreexports : exports.mapM (resolveExport inventory) = .ok reexported) :
    ∀ entry ∈ reexported, entry ∈ exported := by
  intro entry hentry
  obtain ⟨given, hgiven, hresolved⟩ := exists_of_mem_mapM hreexports hentry
  obtain ⟨other, hother, hsame⟩ :=
    exists_right_of_forall₂ (mapM_eq_ok hexports) (hmem given hgiven)
  cases hsame.symm.trans hresolved
  exact hother

private theorem mem_reachedIds (hdeclared : Inventory.ofGraph graph = .ok inventory)
    (hreferred : inventory.references graph = .ok references)
    (hexports : graph.exports.mapM (resolveExport inventory) = .ok exported)
    (hmem : ∀ entry ∈ reexported, entry ∈ exported) :
    ∀ id ∈ reachedIds inventory references reexported,
      id ∈ reachedIds inventory references exported := by
  refine discover_of_subset (fun id hid => ?_) (fun id next hnext => ?_) fun id hid => ?_
  · obtain ⟨_, -, _, -, hdenotes⟩ := resolveExports_denote hexports id hid
    exact hdenotes.mem_entityIds
  · exact Inventory.outgoing_known hdeclared hreferred hnext
  · rw [List.mem_eraseDups, List.mem_map] at hid ⊢
    obtain ⟨entry, hentry, rfl⟩ := hid
    exact ⟨entry, hmem entry hentry, rfl⟩

end Reordered

namespace Naming

/-! ## Entities that are alike -/

/-- Two entities stand for the same and are exported under the same names. -/
structure Alike (one other : Entity) : Prop where
  subject : one.subject = other.subject
  exported : ∀ key, key ∈ exportKeys one ↔ key ∈ exportKeys other

private theorem exportKeys_foldl_nodup {names : List Label} {entity : Entity}
    (h : (exportKeys entity).Nodup) :
    (exportKeys (names.foldl Entity.addExportName entity)).Nodup := by
  induction names generalizing entity with
  | nil => exact h
  | cons name rest ih =>
      apply ih
      simp only [exportKeys, Entity.addExportName, Label.insert]
      split
      · exact h
      · rename_i hnew
        simp only [Label.among, List.any_eq_true, decide_eq_true_eq, not_exists, not_and] at hnew
        rw [List.map_append, List.nodup_append]
        refine ⟨h, by simp, ?_⟩
        rintro _ hkey _ hname rfl
        obtain ⟨old, hold, hsame⟩ := List.mem_map.mp hkey
        simp only [List.map_cons, List.map_nil, List.mem_singleton] at hname
        exact hnew old hold (hsame.trans hname)

theorem Ideal.idealName {entity : Entity} {ideal : Label} (hproper : Proper entity)
    (h : Ideal entity ideal) : Naming.idealName entity = .ok ideal := by
  rcases idealName_eq hproper with ⟨name, hnames, hkey, hname⟩ | ⟨hnames, hname⟩
  · cases h with
    | single only _ =>
        obtain rfl : ideal = name := by simpa [only] using hnames
        exact hname
    | own unnamed _ _ => exact absurd (unnamed name hnames) hkey
  · cases h with
    | single only named => exact absurd (hnames ideal only) named
    | own _ isLocal labelled =>
        rw [hname, isLocal]
        exact labelled

variable {one other : Entity}

theorem Alike.symm (h : Alike one other) : Alike other one :=
  ⟨h.subject.symm, fun key => (h.exported key).symm⟩

theorem Alike.single (h : Alike one other) (hone : (exportKeys one).Nodup)
    (hother : (exportKeys other).Nodup) {name : Label} (hname : one.exportNames = [name]) :
    ∃ same, other.exportNames = [same] ∧ same.key = name.key := by
  have hperm : (exportKeys other).Perm [name.key] := by
    rw [← show exportKeys one = [name.key] by simp [exportKeys, hname]]
    exact (List.perm_ext_iff_of_nodup hother hone).mpr fun key => (h.exported key).symm
  have hkeys := List.perm_singleton.mp hperm
  obtain ⟨same, _, hsplit, hkey, hrest⟩ := List.map_eq_cons_iff.mp hkeys
  rw [List.map_eq_nil_iff.mp hrest] at hsplit
  exact ⟨same, hsplit, hkey⟩

theorem Alike.ideal {one other : Entity} (h : Alike one other)
    (hone : (exportKeys one).Nodup) (hother : (exportKeys other).Nodup) {ideal : Label}
    (hideal : Ideal one ideal) : ∃ same, Ideal other same ∧ same.key = ideal.key := by
  cases hideal with
  | single only named =>
      obtain ⟨same, hsame, hkey⟩ := h.single hone hother only
      exact ⟨same, .single hsame (hkey ▸ named), hkey⟩
  | own unnamed isLocal labelled =>
      refine ⟨ideal, .own (fun single hsingle => ?_) ?_ labelled, rfl⟩
      · obtain ⟨same, hsame, hkey⟩ := h.symm.single hother hone hsingle
        rw [← hkey]
        exact unnamed same hsame
      · rw [Entity.localName, ← h.subject]
        exact isLocal

/-! ## Names in two orders -/

/-- Entities of a package that have got their names, in the order in which these
were given. -/
structure Settled (globals : List Key) (named : List Entity) : Prop where
  ids : (named.map fun entity => entity.subject.id).Nodup
  keys : ∀ entity ∈ named, (exportKeys entity).Nodup
  proper : ∀ entity ∈ named, Proper entity
  free : CollisionFree globals named

variable {globals : List Key} {named renamed : List Entity}

theorem Settled.ideal (h : Settled globals named) {entity : Entity} (hentity : entity ∈ named) :
    ∃ ideal, Ideal entity ideal := by
  obtain ⟨earlier, later, hsplit⟩ := List.append_of_mem hentity
  obtain ⟨ideal, hideal, -⟩ := h.free.chosen earlier entity later hsplit
  exact ⟨ideal, hideal⟩

theorem Settled.name_ne (h : Settled globals named) (hone : one ∈ named)
    (hother : other ∈ named) (hne : one.subject.id ≠ other.subject.id) :
    one.name.key? ≠ other.name.key? := by
  have hsymm : Std.Symm fun one other : Entity => one.name.key? ≠ other.name.key? :=
    ⟨fun _ _ hne => hne.symm⟩
  exact h.free.distinct.forall hone hother fun hsame => hne (hsame ▸ rfl)

/-- One step in another order: an entity whose counterpart was given its ideal
name gets this name too, because the earlier ones have the names of their
counterparts, and these are different. -/
theorem Settled.name_of_alike (h : Settled globals named) (hagain : Settled globals renamed)
    {earlier later : List Entity} (hsplit : renamed = earlier ++ other :: later)
    (hearlier : ∀ entity ∈ earlier, ∃ before ∈ named, Alike before entity ∧
      entity.name.key? = before.name.key?)
    (hothers : ∀ entity ∈ renamed, ∃ before ∈ named, Alike before entity)
    (hone : one ∈ named) (halike : Alike one other) {ideal : Label}
    (hideal : Ideal one ideal) (hname : one.name = ideal.datum) :
    other.name.key? = one.name.key? := by
  have hother : other ∈ renamed := by simp [hsplit]
  have hkey : one.name.key? = some ideal.key := by
    rw [hname]
    exact hideal.key (h.proper one hone)
  obtain ⟨same, hsame, hkeys⟩ :=
    halike.ideal (h.keys one hone) (hagain.keys other hother) hideal
  obtain ⟨chosen, hchosen, hkept, hnumbered⟩ := hagain.free.chosen earlier other later hsplit
  have hproper := hagain.proper other hother
  obtain rfl : chosen = same := by
    have hnames := (hchosen.idealName hproper).symm.trans (hsame.idealName hproper)
    exact Except.ok.inj hnames
  have hchosenKey := hchosen.key hproper
  by_cases hkeeps : Keeps globals other chosen
  · rw [hkept hkeeps, hchosenKey, hkey, hkeys]
  · obtain ⟨count, hcandidate, -, hsmaller⟩ := hnumbered hkeeps
    obtain ⟨_, hallowed, hdefault, hglobal⟩ := h.free.allowed one hone
    obtain rfl := Option.some.inj (hkey.symm.trans hallowed)
    have hfree : Free globals renamed earlier chosen.key := by
      rw [hkeys]
      refine ⟨hdefault, hglobal, fun entity hentity hexported => ?_,
        fun entity hentity hgiven => ?_⟩
      · obtain ⟨before, hbefore, hsame⟩ := hothers entity hentity
        by_cases hid : one.subject.id = before.subject.id
        · have : entity = other := List.inj_on_of_nodup_map hagain.ids hentity hother
            (by rw [← hsame.subject, ← hid, halike.subject])
          subst this
          exact hkeeps ⟨hkeys ▸ hexported, hkeys ▸ hglobal, hkeys ▸ hdefault⟩
        · obtain ⟨name, hmem, hexport⟩ :=
            List.mem_map.mp ((hsame.exported ideal.key).mpr hexported)
          exact h.free.foreign one hone before hbefore hid name hmem (hexport ▸ hkey)
      · obtain ⟨before, hbefore, hsame, hnames⟩ := hearlier entity hentity
        refine h.name_ne hone hbefore (fun hid => ?_) (by rw [hkey, ← hnames, hgiven])
        have hids := hagain.ids
        rw [hsplit, List.map_append, List.nodup_append] at hids
        refine hids.2.2 entity.subject.id (List.mem_map_of_mem hentity)
          other.subject.id (by simp) ?_
        rw [← hsame.subject, ← hid, halike.subject]
    cases count with
    | zero => rw [hcandidate, candidate, hchosenKey, hkey, hkeys]
    | succ count => exact absurd hfree (hsmaller 0 (by omega))

private theorem Settled.idealName_of_alike (h : Settled globals named)
    (hagain : Settled globals renamed) (hone : one ∈ named) (hother : other ∈ renamed)
    (halike : Alike one other) :
    ∃ ideal same, idealName one = .ok ideal ∧ idealName other = .ok same ∧
      same.key = ideal.key := by
  obtain ⟨ideal, hideal⟩ := h.ideal hone
  obtain ⟨same, hsame, hkey⟩ :=
    halike.ideal (h.keys one hone) (hagain.keys other hother) hideal
  exact ⟨ideal, same, hideal.idealName (h.proper one hone),
    hsame.idealName (hagain.proper other hother), hkey⟩

theorem Settled.names_of_alike (h : Settled globals named) (hagain : Settled globals renamed)
    (hothers : ∀ entity ∈ renamed, ∃ before ∈ named, Alike before entity)
    (hideal : ∀ entity ∈ named, ∃ ideal, Ideal entity ideal ∧ entity.name = ideal.datum)
    (hone : one ∈ named) (hother : other ∈ renamed) (halike : Alike one other) :
    other.name.key? = one.name.key? := by
  obtain ⟨earlier, later, hsplit⟩ := List.append_of_mem hother
  -- The induction is on how many entities are named before.
  induction hlength : earlier.length using Nat.strong_induction_on
    generalizing earlier later one other with
  | _ length ih =>
      obtain ⟨ideal, hname⟩ := hideal one hone
      refine h.name_of_alike hagain hsplit (fun entity hentity => ?_) hothers hone halike
        hname.1 hname.2
      have hmem : entity ∈ renamed := by simp [hsplit, hentity]
      obtain ⟨before, hbefore, hsame⟩ := hothers entity hmem
      obtain ⟨first, last, rfl⟩ := List.append_of_mem hentity
      refine ⟨before, hbefore, hsame, ih first.length ?_ hbefore hmem hsame first
        (last ++ other :: later) ?_ rfl⟩
      · simp only [List.length_append, List.length_cons] at hlength
        omega
      · simp [hsplit]

/-! ## Packages with the same exports -/

section Packages

variable {graph : ModuleGraph} {inventory : Inventory} {references : References}
  {exported reexported : List (Option Label × EntityId)}

private theorem exportKeys_discovered {entity : Entity}
    (h : entity ∈ discovered inventory references exported) : (exportKeys entity).Nodup := by
  obtain ⟨id, -, h⟩ := List.mem_filterMap.mp h
  obtain ⟨subject, -, rfl⟩ := Option.map_eq_some_iff.mp h
  exact exportKeys_foldl_nodup (by simp [exportKeys])

private theorem settled_of_nameAll
    (hexports : graph.exports.mapM (resolveExport inventory) = .ok exported)
    (h : nameAll globals (discovered inventory references exported) = .ok named) :
    Settled globals named := by
  have hunnamed := nameAll_unnamed h
  have hproper : ∀ entity ∈ discovered inventory references exported, Proper entity :=
    proper_collectEntities hexports
  have hids := congrArg (List.map fun entity : Entity => entity.subject.id) hunnamed
  rw [List.map_map, List.map_map] at hids
  refine ⟨?_, ?_, ?_, nameAll_collisionFree hproper discovered_nodup h⟩
  · rw [show named.map (fun entity => entity.subject.id) =
      (discovered inventory references exported).map (fun entity => entity.subject.id)
      from hids]
    exact discovered_nodup
  all_goals
    intro entity hentity
    obtain ⟨other, hother, -, hnames⟩ := Entity.exists_of_unnamed hunnamed hentity
  · rw [exportKeys, ← hnames]
    exact exportKeys_discovered hother
  · rw [Proper, ← hnames]
    exact hproper other hother

theorem exported_of_mem {one other : Entity}
    (hmem : ∀ entry ∈ exported, entry ∈ reexported)
    (hone : one ∈ discovered inventory references exported)
    (hother : other ∈ discovered inventory references reexported)
    (hid : one.subject.id = other.subject.id) {key : Key} (hkey : key ∈ exportKeys one) :
    key ∈ exportKeys other := by
  obtain ⟨name, hname, rfl⟩ := List.mem_map.mp hkey
  have hlisted := (exportNames_collectEntities hone).1 name hname
  rw [hid] at hlisted
  exact (exportNames_collectEntities hother).2 name (hmem _ hlisted)

private theorem exists_alike (hdeclared : Inventory.ofGraph graph = .ok inventory)
    (hreferred : inventory.references graph = .ok references)
    (hexports : graph.exports.mapM (resolveExport inventory) = .ok exported)
    (hmem : ∀ entry, entry ∈ exported ↔ entry ∈ reexported) {other : Entity}
    (hother : other ∈ discovered inventory references reexported) :
    ∃ one ∈ discovered inventory references exported, Alike one other := by
  obtain ⟨hid, hsubject⟩ := mem_collectEntities hother
  have hlisted : other.subject.id ∈ (discovered inventory references exported).map
      fun entity => entity.subject.id := by
    rw [discovered, collectEntities_ids, List.mem_filter]
    refine ⟨?_, by simp [hsubject]⟩
    exact mem_reachedIds hdeclared hreferred hexports (fun entry => (hmem entry).mpr) _ hid
  obtain ⟨one, hone, hsame⟩ := List.mem_map.mp hlisted
  refine ⟨one, hone, ?_, fun key => ⟨?_, ?_⟩⟩
  · have hown := (mem_collectEntities hone).2
    rw [hsame, hsubject] at hown
    exact (Option.some.inj hown).symm
  · exact exported_of_mem (fun entry => (hmem entry).mp) hone hother hsame
  · exact exported_of_mem (fun entry => (hmem entry).mpr) hother hone hsame.symm

end Packages

end Naming

def Entity.entry (entity : Entity) : Subject × Datum := (entity.subject, entity.name)

namespace Surface

open Naming

variable {graph : ModuleGraph} {exports : List (Datum × Datum)} {router later : Router}
  {surface again : Surface}

theorem analyze_settled (h : analyze graph router = .ok surface) :
    ∃ exported named,
      graph.exports.mapM (resolveExport surface.inventory) = .ok exported ∧
      named.map Entity.unnamed =
        (discovered surface.inventory surface.references exported).map Entity.unnamed ∧
      Settled (graph.globalNames.map Label.key) named ∧
      sortEntities named = .ok surface.entities := by
  obtain ⟨named, _, _, hsteps⟩ := analyze_steps h
  have hresolved := hsteps.resolved
  simp only [resolveEntities, bind_eq_ok] at hresolved
  obtain ⟨exported, hexports, hnamed⟩ := hresolved
  exact ⟨exported, named, hexports, nameAll_unnamed hnamed,
    settled_of_nameAll hexports hnamed, hsteps.sorted⟩

/-- Every entity has a counterpart when the exports are listed otherwise. -/
theorem exists_counterpart (hmem : ∀ entry, entry ∈ exports ↔ entry ∈ graph.exports)
    (h : analyze graph router = .ok surface)
    (hagain : analyze { graph with exports := exports } later = .ok again) :
    ∀ other ∈ again.entities, ∃ one ∈ surface.entities, Alike one other := by
  intro other hother
  obtain ⟨_, _, _, hsteps⟩ := analyze_steps h
  obtain ⟨_, _, _, hsteps'⟩ := analyze_steps hagain
  obtain ⟨exported, named, hexports, hunnamed, -, hsorted⟩ := analyze_settled h
  obtain ⟨reexported, renamed, hreexports, hunnamed', -, hsorted'⟩ := analyze_settled hagain
  -- Only the exports differ.
  have hinventory : again.inventory = surface.inventory :=
    Except.ok.inj (hsteps'.declared.symm.trans hsteps.declared)
  have hreferred := hsteps'.referred
  rw [Inventory.references_exports, hinventory, hsteps.referred] at hreferred
  rw [hinventory, ← Except.ok.inj hreferred] at hunnamed'
  rw [hinventory] at hreexports
  have hentries : ∀ entry, entry ∈ exported ↔ entry ∈ reexported := by
    refine fun entry => ⟨fun hentry => ?_, fun hentry => ?_⟩
    · exact mem_exported (fun entry => (hmem entry).mpr) hreexports hexports entry hentry
    · exact mem_exported (fun entry => (hmem entry).mp) hexports hreexports entry hentry
  obtain ⟨found, hfound, hsubject, hnames⟩ := Entity.exists_of_unnamed hunnamed'
    ((sortByKey_perm hsorted').mem_iff.mp hother)
  obtain ⟨before, hbefore, halike⟩ :=
    exists_alike hsteps.declared hsteps.referred hexports hentries hfound
  obtain ⟨one, hone, hsubject', hnames'⟩ := Entity.exists_of_unnamed hunnamed.symm hbefore
  refine ⟨one, (sortByKey_perm hsorted).mem_iff.mpr hone, ?_, fun key => ?_⟩
  · rw [hsubject', halike.subject, hsubject]
  · have hkeys := halike.exported key
    rwa [exportKeys, exportKeys, ← hnames', hnames] at hkeys

theorem perm_of_counterparts {α : Type} {aspect : Entity → α} (id : α → EntityId)
    {entities others : List Entity}
    (hentities : (entities.map fun entity => id (aspect entity)).Nodup)
    (hothers : (others.map fun entity => id (aspect entity)).Nodup)
    (hback : ∀ other ∈ others, ∃ one ∈ entities, aspect one = aspect other)
    (hforth : ∀ one ∈ entities, ∃ other ∈ others, aspect other = aspect one) :
    (others.map aspect).Perm (entities.map aspect) := by
  have hdistinct : ∀ {list : List Entity},
      (list.map fun entity => id (aspect entity)).Nodup → (list.map aspect).Nodup := by
    intro list hlist
    apply List.Nodup.of_map id
    rwa [List.map_map]
  refine (List.perm_ext_iff_of_nodup (hdistinct hothers) (hdistinct hentities)).mpr ?_
  intro value
  simp only [List.mem_map]
  constructor
  · rintro ⟨other, hother, rfl⟩
    exact hback other hother
  · rintro ⟨one, hone, rfl⟩
    exact hforth one hone

private theorem sortEntities_unique {named renamed sorted resorted : List Entity}
    (hsorted : sortEntities named = .ok sorted)
    (hresorted : sortEntities renamed = .ok resorted)
    (hperm : (resorted.map Entity.entry).Perm (sorted.map Entity.entry))
    (hnames : ∀ one ∈ sorted, ∀ other ∈ sorted, one.name = other.name → one = other)
    (htexts : ∀ entity ∈ sorted, ∃ text, entity.name = .text text ∧ '*' ∉ text.toList) :
    resorted.map Entity.entry = sorted.map Entity.entry := by
  have hordered : ∀ {values sorted : List Entity}, sortEntities values = .ok sorted →
      (sorted.map Entity.entry).Pairwise fun one other => ∃ first second,
        sortKeyOf one.2 = .ok first ∧ sortKeyOf other.2 = .ok second ∧
        Text.precedes first second = true :=
    fun h => List.pairwise_map.mpr (sortByKey_pairwise h)
  refine hperm.eq_of_pairwise ?_ (hordered hresorted) (hordered hsorted)
  rintro one other hone hother ⟨first, second, hfirst, hsecond, hbefore⟩
    ⟨second', first', hsecond', hfirst', hafter⟩
  obtain rfl := Except.ok.inj (hfirst.symm.trans hfirst')
  obtain rfl := Except.ok.inj (hsecond.symm.trans hsecond')
  obtain rfl := Text.precedes_antisymm hbefore hafter
  obtain ⟨left, hleft, rfl⟩ := List.mem_map.mp (hperm.mem_iff.mp hone)
  obtain ⟨right, hright, rfl⟩ := List.mem_map.mp hother
  obtain ⟨text, htext, hplain⟩ := htexts left hleft
  obtain ⟨text', htext', -⟩ := htexts right hright
  simp only [Entity.entry, htext, htext', sortKeyOf_text] at hfirst hsecond
  have hsame := sortKey_injective hplain
    (Except.ok.inj (hfirst.trans hsecond.symm))
  rw [hnames left hleft right hright (by rw [htext, htext', String.toList_inj.mp hsame])]

private theorem alike_of_id (hmem : ∀ entry, entry ∈ exports ↔ entry ∈ graph.exports)
    (h : analyze graph router = .ok surface)
    (hagain : analyze { graph with exports := exports } later = .ok again)
    {one other : Entity} (hone : one ∈ surface.entities) (hother : other ∈ again.entities)
    (hid : other.subject.id = one.subject.id) : Alike one other := by
  obtain ⟨same, hsame, halike⟩ := exists_counterpart hmem h hagain other hother
  have : same = one := List.inj_on_of_nodup_map (entities_nodup h) hsame hone
    (by rw [halike.subject, hid])
  exact this ▸ halike

theorem name_of_alike (hmem : ∀ entry, entry ∈ exports ↔ entry ∈ graph.exports)
    (h : analyze graph router = .ok surface)
    (hagain : analyze { graph with exports := exports } later = .ok again)
    (hideal : ∀ entity ∈ surface.entities,
      ∃ ideal, idealName entity = .ok ideal ∧ entity.name = ideal.datum)
    {one other : Entity} (hone : one ∈ surface.entities) (hother : other ∈ again.entities)
    (halike : Alike one other) {text : String} (htext : one.name = .text text) :
    other.name = one.name := by
  obtain ⟨_, named, -, -, hsettled, hsorted⟩ := analyze_settled h
  obtain ⟨_, renamed, -, -, hsettled', hsorted'⟩ := analyze_settled hagain
  have hnamed := fun entity => (sortByKey_perm hsorted).mem_iff (a := entity)
  have hrenamed := fun entity => (sortByKey_perm hsorted').mem_iff (a := entity)
  have hkeys := hsettled.names_of_alike hsettled' (fun entity hentity => ?_)
    (fun entity hentity => ?_) ((hnamed one).mp hone) ((hrenamed other).mp hother) halike
  · rw [htext] at hkeys ⊢
    exact Datum.key?_eq_text.mp hkeys
  · obtain ⟨before, hbefore, hsame⟩ :=
      exists_counterpart hmem h hagain entity ((hrenamed entity).mpr hentity)
    exact ⟨before, (hnamed before).mp hbefore, hsame⟩
  · obtain ⟨ideal, hname, hgiven⟩ := hideal entity ((hnamed entity).mpr hentity)
    exact ⟨ideal, idealName_ideal (hsettled.proper entity hentity) hname, hgiven⟩

/-- The order in which exports are listed decides neither what the entities are,
nor under which names they are exported, nor which names are ideal for them.  If
for one order all entities get their ideal names, and these contain no asterisk,
then the names and the order of the entities are the same for any other order. -/
theorem analyze_exports_perm (hperm : exports.Perm graph.exports)
    (h : analyze graph router = .ok surface)
    (hagain : analyze { graph with exports := exports } later = .ok again) :
    (again.entities.map Entity.subject).Perm (surface.entities.map Entity.subject) ∧
    (∀ one ∈ surface.entities, ∀ other ∈ again.entities,
      other.subject.id = one.subject.id →
      (∀ key, key ∈ exportKeys other ↔ key ∈ exportKeys one) ∧
      ∃ ideal same, idealName one = .ok ideal ∧ idealName other = .ok same ∧
        same.key = ideal.key) ∧
    ((∀ entity ∈ surface.entities,
        ∃ ideal, idealName entity = .ok ideal ∧ entity.name = ideal.datum) →
      (∀ entity ∈ surface.entities, ∃ text, entity.name = .text text ∧ '*' ∉ text.toList) →
      again.entities.map (fun entity => (entity.subject, entity.name)) =
        surface.entities.map fun entity => (entity.subject, entity.name)) := by
  have hmem : ∀ entry, entry ∈ exports ↔ entry ∈ graph.exports := fun _ => hperm.mem_iff
  have hback := exists_counterpart hmem h hagain
  have hforth : ∀ one ∈ surface.entities, ∃ other ∈ again.entities, Alike other one :=
    exists_counterpart (fun entry => (hmem entry).symm) hagain h
  obtain ⟨_, named, -, -, hsettled, hsorted⟩ := analyze_settled h
  obtain ⟨_, renamed, -, -, hsettled', hsorted'⟩ := analyze_settled hagain
  have hnamed := fun entity => (sortByKey_perm hsorted).mem_iff (a := entity)
  have hrenamed := fun entity => (sortByKey_perm hsorted').mem_iff (a := entity)
  refine ⟨?_, fun one hone other hother hid => ?_, fun hideal htexts => ?_⟩
  · apply perm_of_counterparts Subject.id (entities_nodup h) (entities_nodup hagain)
    · intro other hother
      obtain ⟨one, hone, halike⟩ := hback other hother
      exact ⟨one, hone, halike.subject⟩
    · intro one hone
      obtain ⟨other, hother, halike⟩ := hforth one hone
      exact ⟨other, hother, halike.subject⟩
  · have halike := alike_of_id hmem h hagain hone hother hid
    exact ⟨fun key => (halike.exported key).symm, hsettled.idealName_of_alike hsettled'
      ((hnamed one).mp hone) ((hrenamed other).mp hother) halike⟩
  · have hnames : ∀ one ∈ surface.entities, ∀ other ∈ again.entities, Alike one other →
        one.entry = other.entry := by
      intro one hone other hother halike
      obtain ⟨text, htext, -⟩ := htexts one hone
      have hname := name_of_alike hmem h hagain hideal hone hother halike htext
      simp [Entity.entry, halike.subject, hname]
    refine sortEntities_unique hsorted hsorted' ?_ (fun one hone other hother hname => ?_) htexts
    · apply perm_of_counterparts (fun entry => entry.1.id) (entities_nodup h)
        (entities_nodup hagain)
      · intro other hother
        obtain ⟨one, hone, halike⟩ := hback other hother
        exact ⟨one, hone, hnames one hone other hother halike⟩
      · intro one hone
        obtain ⟨other, hother, halike⟩ := hforth one hone
        exact ⟨other, hother, (hnames one hone other hother halike.symm).symm⟩
    · by_contra hne
      refine hsettled.name_ne ((hnamed one).mp hone) ((hnamed other).mp hother) ?_
        (by rw [hname])
      exact fun hid => hne (List.inj_on_of_nodup_map (entities_nodup h) hone hother hid)

def filedFile : SourceFile where
  path := .text "index.d.ts"
  text := "b I _b A".toList
  root := .mk .sourceFile 0 8 0 .null
    [.mk .classDeclaration 0 3 1 .null
      [.mk .identifier 0 1 2 .null [], .mk .identifier 2 3 3 .null []],
    .mk .classDeclaration 4 6 4 .null [.mk .identifier 4 6 5 .null []],
    .mk .classDeclaration 7 8 6 .null [.mk .identifier 7 8 7 .null []]]

def filedPackage : ModuleGraph where
  packageName := .text "filed"
  files := [filedFile]
  symbols := (filedFile.root.children.zip ["b", "_b", "A"]).map fun entry =>
    { key := .text entry.2
      localName := .text entry.2
      declarations := [⟨filedFile, [filedFile.root], entry.1⟩] }
  imports := [{ key := .text "I", source :=
    { kind := .named, modulePath := .text "lib", exportName := .text "I" } }]
  bindings := [(3, .text "I")]
  exports := [(.text "b", .text "b"), (.text "_b", .text "_b"), (.text "A", .text "A")]

theorem analyze_exports_perm_filed :
    ∃ surface again, analyze filedPackage {} = .ok surface ∧
      analyze { filedPackage with exports := filedPackage.exports.reverse } {} = .ok again ∧
      surface.entities.map Entity.nameText = ["A", "b", "_b", "I"] ∧
      (again.entities.map Entity.subject).Perm (surface.entities.map Entity.subject) ∧
      again.entities.map (fun entity => (entity.subject, entity.name)) =
        surface.entities.map fun entity => (entity.subject, entity.name) := by
  have hrun : (do
      let surface ← analyze filedPackage {}
      let _ ← analyze { filedPackage with exports := filedPackage.exports.reverse } {}
      pure (surface.entities.map Entity.nameText,
        surface.entities.map fun entity : Entity => (entity.name, idealName entity))) =
      .ok (["A", "b", "_b", "I"], ["A", "b", "_b", "I"].map fun text =>
        (Datum.text text, .ok (Label.ofText text))) := by
    cbv
  simp only [bind_eq_ok, pure_eq_ok, Prod.mk.injEq] at hrun
  obtain ⟨surface, hanalyze, again, hagain, htexts, hnames⟩ := hrun
  have hentity : ∀ entity ∈ surface.entities, ∃ text ∈ ["A", "b", "_b", "I"],
      entity.name = .text text ∧ idealName entity = .ok (Label.ofText text) := by
    intro entity hentity
    have hmem := List.mem_map_of_mem (f := fun entity : Entity =>
      (entity.name, idealName entity)) hentity
    rw [hnames] at hmem
    obtain ⟨text, htext, hsame⟩ := List.mem_map.mp hmem
    simp only [Prod.mk.injEq] at hsame
    exact ⟨text, htext, hsame.1.symm, hsame.2.symm⟩
  obtain ⟨hperm, -, hsorted⟩ :=
    analyze_exports_perm (List.reverse_perm _) hanalyze hagain
  refine ⟨surface, again, hanalyze, hagain, htexts, hperm, hsorted ?_ ?_⟩
  · intro entity hmem
    obtain ⟨text, -, hname, hideal⟩ := hentity entity hmem
    exact ⟨_, hideal, hname⟩
  · intro entity hmem
    obtain ⟨text, htext, hname, -⟩ := hentity entity hmem
    have hplain : ∀ text ∈ ["A", "b", "_b", "I"], '*' ∉ text.toList := by decide
    exact ⟨text, hname, hplain text htext⟩

end Surface

end ApiSurface
