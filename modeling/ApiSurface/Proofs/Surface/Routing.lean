import ApiSurface.Proofs.Report.Messages
import ApiSurface.Proofs.Surface.Attachment
import ApiSurface.Proofs.Surface.Inheritance
import ApiSurface.Proofs.Surface.Recording

/-!
# Where the messages of declarations are shown

A setter belongs to the first getter of its symbol, and its messages are shown with
those of the getter.  Every declaration is shown once in this way, by itself or by the
getter it belongs to, so that going through all declarations shows every message of a
declaration once.
-/

namespace ApiSurface

theorem mapM_eq_ok_map {ε α β : Type} {f : α → Except ε β} {g : α → β} {values : List α}
    (h : ∀ value ∈ values, f value = .ok (g value)) : values.mapM f = .ok (values.map g) := by
  induction values with
  | nil => rfl
  | cons value rest ih =>
      rw [List.mapM_cons, h value (by simp), ih fun other hother => h other (by simp [hother])]
      rfl

theorem filter_append_filter_perm {α : Type} {first second : α → Bool} {values : List α}
    (h : ∀ value, first value = true → second value = false) :
    (values.filter first ++ values.filter second).Perm
      (values.filter fun value => first value || second value) := by
  refine .trans (.of_eq ?_) (List.filter_append_perm first _)
  rw [List.filter_filter, List.filter_filter]
  congr 1
  · exact List.filter_congr fun value _ => by cases first value <;> simp
  · refine List.filter_congr fun value _ => ?_
    cases hfirst : first value with
    | false => simp
    | true => simp [h value hfirst]

/-! ## Messages and keys -/

theorem Message.key_unique {message : Message} {key other : Key}
    (hkey : message.concerns key = true) (hother : message.concerns other = true) :
    key = other := by
  simp only [concerns, Bool.and_eq_true, decide_eq_true_eq] at hkey hother
  exact Option.some.inj (hkey.2.symm.trans hother.2)

theorem Router.forReview_perm (router : Router) {keys : List Key} (hkeys : keys.Nodup) :
    (router.forReview keys).Perm (router.messages.filter fun message =>
      keys.any message.concerns && message.addToReport) := by
  induction keys with
  | nil => simp [forReview]
  | cons key rest ih =>
      obtain ⟨hnew, hrest⟩ := List.nodup_cons.mp hkeys
      rw [forReview, List.flatMap_cons]
      refine ((List.Perm.refl _).append (ih hrest)).trans ?_
      refine (filter_append_filter_perm fun message hmessage => ?_).trans (.of_eq ?_)
      · rw [Bool.and_eq_false_iff]
        refine .inl (Bool.eq_false_iff.mpr fun hany => ?_)
        obtain ⟨other, hother, hconcerns⟩ := List.any_eq_true.mp hany
        have hkey := (Bool.and_eq_true_iff.mp hmessage).1
        exact hnew (Message.key_unique hkey hconcerns ▸ hother)
      · refine List.filter_congr fun message _ => ?_
        rw [List.any_cons, Bool.and_or_distrib_right]

/-! ## Who shows whom -/

namespace Signatures

variable {signatures : Signatures} {inventory : Inventory}

/-- The declarations whose messages are shown at a declaration. -/
def shownAt (entry : Nat × Signature) : List Nat :=
  if entry.2.isAncillary then [] else entry.1 :: entry.2.ancillaries.map Mention.id

theorem Exclusive.shownAt_perm (h : Exclusive inventory (fun _ => False) signatures) :
    (signatures.flatMap shownAt).Perm (signatures.map Prod.fst) := by
  have hsplit : signatures.flatMap shownAt = signatures.flatMap fun entry =>
      (if entry.2.isAncillary then [] else [entry.1]) ++
        entry.2.ancillaries.map Mention.id := by
    refine List.flatMap_congr fun entry hentry => ?_
    unfold shownAt
    split
    · rename_i hancillary
      have hnone : entry.2.ancillaries = [] := by
        by_contra hlists
        exact h.apart entry.1 entry.2
          ((Entries.lookup_eq_some_iff_mem h.distinct).mpr hentry) hlists hancillary
      rw [hnone]
      rfl
    · rfl
  have hfree : ∀ entries : Signatures,
      (entries.flatMap fun entry => if entry.2.isAncillary then [] else [entry.1]) =
        (entries.filter fun entry => !entry.2.isAncillary).map Prod.fst := by
    intro entries
    induction entries with
    | nil => rfl
    | cons entry rest ih =>
        rw [List.flatMap_cons, ih, List.filter_cons]
        cases entry.2.isAncillary <;> rfl
  -- The lists hold each ancillary declaration once.
  have hlisted : signatures.listed.Perm
      ((signatures.filter fun entry => entry.2.isAncillary).map Prod.fst) := by
    refine (List.perm_ext_iff_of_nodup h.once
      (h.distinct.sublist (List.filter_sublist.map _))).mpr fun id => ?_
    rw [h.mem_listed, List.mem_map]
    constructor
    · intro hprimary
      cases hlookup : signatures.lookup id with
      | none => simp [primary?, hlookup] at hprimary
      | some signature =>
          refine ⟨(id, signature), List.mem_filter.mpr
            ⟨(Entries.lookup_eq_some_iff_mem h.distinct).mp hlookup, ?_⟩, rfl⟩
          rwa [← h.coherent.isAncillary_eq hlookup] at hprimary
    · rintro ⟨⟨id, signature⟩, hentry, rfl⟩
      obtain ⟨hmem, hancillary⟩ := List.mem_filter.mp hentry
      have hlookup := (Entries.lookup_eq_some_iff_mem h.distinct).mpr hmem
      rwa [h.coherent.isAncillary_eq hlookup] at hancillary
  rw [hsplit]
  refine (List.flatMap_append_perm _ _ _).symm.trans ?_
  rw [hfree]
  refine ((List.Perm.refl _).append hlisted).trans ?_
  rw [← List.map_append]
  refine .map _ (List.perm_append_comm.trans ?_)
  exact List.filter_append_perm _ _

end Signatures

/-! ## All messages of a surface -/

namespace Surface

variable {graph : ModuleGraph} {router : Router} {surface : Surface}

private theorem reviewMessages_shownAt {id : Nat} {signature : Signature}
    (hlookup : surface.signatures.lookup id = some signature) :
    surface.reviewMessages (.int id) = .ok (surface.router.forReview
      ((Signatures.shownAt (id, signature)).map fun other : Nat => .whole other)) := by
  cases hancillary : signature.isAncillary with
  | false =>
      rw [reviewMessages_eq hlookup hancillary]
      simp [Signatures.shownAt, hancillary, Function.comp_def]
  | true =>
      simp [reviewMessages, signature_int, hlookup, bind, Except.bind, hancillary,
        Signatures.shownAt, Router.forReview, pure, Except.pure]

def Names (surface : Surface) (value : Datum) : Prop :=
  value = .null ∨ ∃ declaration ∈ surface.inventory.allDeclarations,
    value.key? = some (.whole declaration.id)

private theorem reviewMessages_perm (hgrouped : Signatures.Exclusive surface.inventory
      (fun _ => False) surface.signatures)
    (hnames : ∀ message ∈ surface.router.messages, surface.Names message.declaration) :
    ∃ groups, surface.inventory.allDeclarations.mapM
        (fun declaration => surface.reviewMessages (.int declaration.id)) = .ok groups ∧
      groups.flatten.Perm (surface.router.messages.filter fun message =>
        !message.declaration.isNull && message.addToReport) := by
  have hshown : ∀ entry ∈ surface.signatures, surface.reviewMessages (.int entry.1) =
      .ok (surface.router.forReview
        ((Signatures.shownAt entry).map fun other : Nat => .whole other)) :=
    fun entry hentry => reviewMessages_shownAt
      ((Entries.lookup_eq_some_iff_mem hgrouped.distinct).mpr hentry)
  have hids : surface.inventory.allDeclarations.mapM
      (fun declaration => surface.reviewMessages (.int declaration.id)) =
        surface.signatures.mapM fun entry => surface.reviewMessages (.int entry.1) := by
    have hmap := congrArg (List.mapM fun id : Nat => surface.reviewMessages (.int id))
      hgrouped.numbers
    rw [List.mapM_map, List.mapM_map] at hmap
    exact hmap.symm
  have hkeys : ((surface.signatures.map Prod.fst).map fun id : Nat => Key.whole id).Nodup :=
    hgrouped.distinct.map fun one other h => by simpa using h
  refine ⟨_, hids.trans (mapM_eq_ok_map hshown), ?_⟩
  -- All groups together go through the numbers that are shown, each of them once.
  have hgroups : (surface.signatures.map fun entry => surface.router.forReview
      ((Signatures.shownAt entry).map fun other : Nat => .whole other)).flatten =
        surface.router.forReview ((surface.signatures.flatMap Signatures.shownAt).map
          fun other : Nat => .whole other) := by
    rw [← List.flatMap_def]
    simp only [Router.forReview, List.map_flatMap, List.flatMap_map, List.flatMap_assoc]
  rw [hgroups]
  refine ((hgrouped.shownAt_perm.map _).flatMap_right _).trans ?_
  refine (surface.router.forReview_perm hkeys).trans (.of_eq ?_)
  refine List.filter_congr fun message hmessage => ?_
  congr 1
  rcases hnames message hmessage with hnull | ⟨declaration, hdeclaration, hkey⟩
  · simp [Message.concerns, hnull, Datum.isNull]
  · have hid : declaration.id ∈ surface.signatures.map Prod.fst := by
      rw [hgrouped.numbers]
      exact List.mem_map_of_mem hdeclaration
    have hpresent : message.declaration.isNull = false := by
      cases hdatum : message.declaration with
      | null => simp [hdatum, Datum.key?] at hkey
      | _ => rfl
    rw [hpresent, List.any_eq_true.mpr]
    · rfl
    · exact ⟨_, List.mem_map_of_mem hid, by simp [Message.concerns, hpresent, hkey]⟩

def adding (surface : Surface) (later : List Message) : Surface :=
  { surface with
    router := { surface.router with messages := surface.router.messages ++ later } }

theorem Steps.names {entities : List Entity} {itemized remarked : Router}
    (h : Steps graph router surface entities itemized remarked)
    (hrouter : ∀ message ∈ router.messages, surface.Names message.declaration) :
    ∀ message ∈ surface.router.messages, surface.Names message.declaration := by
  obtain ⟨items, remarks, hremarked, hitems, hremarks⟩ := h.remarked_eq
  obtain ⟨-, checks, hchecks, result, hstand, -⟩ := checkEntities_adds _ _ _ _ _ h.checksRun
  have hnamed : ∀ messages : List Message,
      Issue.StandAt surface.inventory.allDeclarations (messages.map Message.issue) →
      ∀ message ∈ messages, surface.Names message.declaration := by
    intro messages hstands message hmessage
    obtain ⟨declaration, hdeclaration, hid⟩ := hstands _ (List.mem_map_of_mem hmessage)
    refine .inr ⟨declaration, hdeclaration, ?_⟩
    rw [show message.declaration = .int declaration.id from hid.number]
    rfl
  rw [hchecks, hremarked]
  simp only [List.forall_mem_append]
  refine ⟨⟨hrouter, hnamed items hitems.1, fun message hmessage => ?_⟩, hnamed checks hstand⟩
  have hissue : message.issue ∈ graph.remarks.map surface.inventory.remarkIssue :=
    hremarks ▸ List.mem_map_of_mem hmessage
  obtain ⟨remark, -, hremark⟩ := List.mem_map.mp hissue
  have hdeclaration : message.declaration =
      (surface.inventory.remarkIssue remark).declaration := by
    rw [hremark]
    rfl
  rw [hdeclaration, Inventory.remarkIssue]
  dsimp only
  split
  · rename_i declaration haround
    obtain ⟨site, -, haround⟩ := Option.bind_eq_some_iff.mp haround
    obtain ⟨node, -, hat⟩ := List.exists_of_findSome?_eq_some haround
    exact .inr ⟨declaration, List.mem_of_find?_eq_some hat, rfl⟩
  · exact .inl rfl

theorem Steps.signature_accessor {entities : List Entity} {itemized remarked : Router}
    (h : Steps graph router surface entities itemized remarked) {declaration : Declaration}
    (hdeclaration : declaration ∈ surface.inventory.allDeclarations) :
    ∃ signature, surface.signature (.int declaration.id) = .ok signature ∧
      signature.Coherent ∧
      signature.isAncillary = surface.inventory.isAncillary declaration ∧
      ∀ primary, signature.primary = some primary →
        ((surface.declarationsOf declaration.symbol.key).find? fun sibling =>
          sibling.kind = .getAccessor).map Declaration.id = some primary.id := by
  have hdistinct := Inventory.ids_nodup h.declared
  obtain ⟨signature, hlookup, hsignature, hancillary⟩ := h.signature_known hdeclaration
  have hcoherent := h.coherent _ _ hlookup
  refine ⟨signature, hsignature, hcoherent, hcoherent.trans hancillary.symm,
    fun primary hprimary => ?_⟩
  have hfound : surface.signatures.primary? declaration.id = some primary := by
    simp [Signatures.primary?, hlookup, hprimary]
  have hpair := ((Inventory.groupAccessors_grouped h.grouped).paired _ _ hfound).1
  obtain ⟨setter, hsetter, hid, hkind, getter, -, hgetter, hgetterId, -⟩ :=
    Inventory.mem_allPairs_getterFor hpair
  obtain rfl : setter = declaration :=
    List.inj_on_of_nodup_map hdistinct hsetter hdeclaration hid
  have hfind : (surface.declarationsOf setter.symbol.key).find? (fun sibling =>
      sibling.kind = .getAccessor) = some getter := by
    rw [← hgetter, Inventory.getterFor?]
    refine List.find?_congr fun sibling hsibling => ?_
    by_cases hself : sibling.id = setter.id
    · have hsame := List.inj_on_of_nodup_map hdistinct
        (Inventory.mem_declarationsOf.mp hsibling).1 hsetter hself
      simp [hsame, hkind]
    · simp [hself]
  rw [hfind]
  exact congrArg some hgetterId

/-- Grouping accessors never fails.  A declaration is ancillary exactly if it is a
setter whose symbol has a getter, and then belongs to the first one.  Going through all
declarations shows every message that names one and belongs into the report once, also
among messages that are recorded before or after the analysis. -/
theorem messages_routed_once (graph : ModuleGraph) :
    (∀ inventory, Inventory.ofGraph graph = .ok inventory →
      ∃ signatures, inventory.groupAccessors graph = .ok signatures) ∧
    ∀ router surface, analyze graph router = .ok surface →
      (∀ declaration ∈ surface.inventory.allDeclarations, ∃ signature,
        surface.signature (.int declaration.id) = .ok signature ∧
        signature.isAncillary = signature.primary.isSome ∧
        (signature.isAncillary = true ↔ declaration.kind = .setAccessor ∧
          ∃ getter ∈ surface.declarationsOf declaration.symbol.key,
            getter.kind = .getAccessor) ∧
        ∀ primary, signature.primary = some primary →
          ((surface.declarationsOf declaration.symbol.key).find? fun sibling =>
            sibling.kind = .getAccessor).map Declaration.id = some primary.id) ∧
      ∀ later, (∀ message ∈ router.messages ++ later, surface.Names message.declaration) →
        ∃ groups, surface.inventory.allDeclarations.mapM (fun declaration =>
            (surface.adding later).reviewMessages (.int declaration.id)) = .ok groups ∧
          groups.flatten.Perm ((surface.router.messages ++ later).filter fun message =>
            !message.declaration.isNull && message.addToReport) := by
  refine ⟨fun inventory hdeclared => ?_, fun router surface h => ?_⟩
  · obtain ⟨signatures, hgrouped, -⟩ := Inventory.groupAccessors_succeeds hdeclared
    exact ⟨signatures, hgrouped⟩
  obtain ⟨entities, itemized, remarked, hsteps⟩ := analyze_steps h
  refine ⟨fun declaration hdeclaration => ?_, fun later hnames => ?_⟩
  · obtain ⟨signature, hsignature, hcoherent, hancillary, hprimary⟩ :=
      hsteps.signature_accessor hdeclaration
    refine ⟨signature, hsignature, hcoherent, ?_, hprimary⟩
    rw [hancillary, Inventory.isAncillary, Bool.and_eq_true, List.any_eq_true]
    simp only [decide_eq_true_eq]
    rfl
  · obtain ⟨hearlier, hlater⟩ := List.forall_mem_append.mp hnames
    exact reviewMessages_perm
      (Inventory.groupAccessors_exclusive hsteps.declared hsteps.grouped)
      (List.forall_mem_append.mpr ⟨hsteps.names hearlier, hlater⟩)

/-- A class with a getter and a setter that has documentation of its own. -/
def documentedPackage : ModuleGraph :=
  { Inventory.accessorPackage .parameter with
    docFlags := [(9, { documented := .bool true })] }

/-- A message about the setter that is recorded after the analysis. -/
def setterNote : Message :=
  { id := .text "note", text := .text "Nobody writes this.", declaration := .int 4 }

/-- Both messages about the setter are shown at the getter. -/
theorem messages_routed_once_accessors :
    ∃ surface setter groups, analyze documentedPackage {} = .ok surface ∧
      setter ∈ surface.inventory.allDeclarations ∧ setter.id = 4 ∧
      surface.inventory.allDeclarations.mapM (fun declaration =>
        (surface.adding [setterNote]).reviewMessages (.int declaration.id)) = .ok groups ∧
      (groups.map fun messages => messages.map Message.id) =
        [[.text "ae-missing-release-tag"],
          [.text "ae-setter-with-docs", .text "note"], [], []] ∧
      groups.flatten.Perm ((surface.router.messages ++ [setterNote]).filter fun message =>
        !message.declaration.isNull && message.addToReport) := by
  have hrun : (do
      let surface ← analyze documentedPackage {}
      let setter ← pick surface.inventory.allDeclarations 3
      let groups ← surface.inventory.allDeclarations.mapM fun declaration : Declaration =>
        (surface.adding [setterNote]).reviewMessages (.int declaration.id)
      pure (setter.id, groups.map fun messages : List Message => messages.map Message.id)) =
      .ok (4, [[.text "ae-missing-release-tag"],
        [.text "ae-setter-with-docs", .text "note"], [], []]) := by
    cbv
  simp only [bind_eq_ok, pure_eq_ok, pick_eq_ok, Prod.mk.injEq] at hrun
  obtain ⟨surface, hanalyze, setter, hsetter, groups, hgroups, hid, hids⟩ := hrun
  have hsetter := List.mem_of_getElem? hsetter
  have hnames : ∀ message ∈ ({} : Router).messages ++ [setterNote],
      surface.Names message.declaration := by
    intro message hmessage
    obtain rfl : message = setterNote := by simpa using hmessage
    exact .inr ⟨setter, hsetter, by rw [hid]; rfl⟩
  obtain ⟨found, hfound, hperm⟩ :=
    ((messages_routed_once documentedPackage).2 {} surface hanalyze).2 [setterNote] hnames
  obtain rfl := Except.ok.inj (hgroups.symm.trans hfound)
  exact ⟨surface, setter, groups, hanalyze, hsetter, hid, hgroups, hids, hperm⟩

end Surface

end ApiSurface
