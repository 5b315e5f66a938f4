import ApiSurface.Proofs.Surface.Items
import ApiSurface.Surface.Validation

/-!
# Checks without complaints

Three kinds of messages complain about references: the symbol referred to is
not exported, it is less visible than what refers to it, or its declarations
differ in their tags.  Checks only ever add messages.  Hence when there is no
complaint in the end, none was recorded on the way, and each check has
established what it looks for.
-/

namespace ApiSurface

/-! ## Recording -/

theorem Router.judge_id {router : Router} {issue : Issue} {message : Message}
    (h : router.judge issue = .ok message) : message.id = issue.id := by
  simp only [judge, bind_eq_ok, pure_eq_ok] at h
  obtain ⟨rule, -, rfl⟩ := h
  rfl

theorem record_eq_ok {issue : Issue} {before after : Router} {result : Unit}
    (h : (record issue).run before = .ok (result, after)) :
    ∃ message, before.judge issue = .ok message ∧ before.add message = after := by
  simp only [record, run_bind_eq_ok, run_liftM_eq_ok] at h
  obtain ⟨router, _, hget, message, _, ⟨hjudge, rfl⟩, hset⟩ := h
  cases hget
  cases hset
  exact ⟨message, hjudge, rfl⟩

/-! ## Quiet runs -/

def complaintIds : List String :=
  ["ae-forgotten-export", "ae-incompatible-release-tags",
    "ae-different-release-tags"]

def Router.Quiet (router : Router) : Prop :=
  ∀ message ∈ router.messages, ∀ id ∈ complaintIds, message.id ≠ .text id

/-- Runs of an action keep the messages that are there, and those that end
without complaints establish `post`. -/
def Quietly {α : Type} (action : Inspecting α) (post : α → Prop) : Prop :=
  ∀ before result after, action.run before = .ok (result, after) →
    before.messages ⊆ after.messages ∧ (after.Quiet → post result)

namespace Quietly

variable {α β : Type}

theorem mono {action : Inspecting α} {post weaker : α → Prop}
    (h : Quietly action post) (hle : ∀ result, post result → weaker result) :
    Quietly action weaker := by
  intro before result after hrun
  obtain ⟨hgrows, hpost⟩ := h before result after hrun
  exact ⟨hgrows, fun hquiet => hle result (hpost hquiet)⟩

theorem pure {value : α} {post : α → Prop} (h : post value) :
    Quietly (Pure.pure value) post := by
  intro before result after hrun
  obtain ⟨rfl, rfl⟩ := run_pure_eq_ok.mp hrun
  exact ⟨List.Subset.refl _, fun _ => h⟩

theorem bind {first : Inspecting α} {next : α → Inspecting β}
    {middle : α → Prop} {post : β → Prop} (hfirst : Quietly first middle)
    (hnext : ∀ produced,
      Quietly (next produced) fun result => middle produced → post result) :
    Quietly (first >>= next) post := by
  intro before result after hrun
  obtain ⟨produced, between, hrunFirst, hrunNext⟩ := run_bind_eq_ok.mp hrun
  obtain ⟨hgrows, hmiddle⟩ := hfirst _ _ _ hrunFirst
  obtain ⟨hgrowsNext, hpost⟩ := hnext _ _ _ _ hrunNext
  refine ⟨fun _ hmem => hgrowsNext (hgrows hmem), fun hquiet => ?_⟩
  exact hpost hquiet (hmiddle fun message hmem => hquiet message (hgrowsNext hmem))

theorem lift (value : Except Fault α) :
    Quietly (liftM value) fun result => value = .ok result := by
  intro before result after hrun
  obtain ⟨hvalue, rfl⟩ := run_liftM_eq_ok.mp hrun
  exact ⟨List.Subset.refl _, fun _ => hvalue⟩

theorem record (issue : Issue) :
    Quietly (record issue) fun _ => ∀ id ∈ complaintIds, issue.id ≠ .text id := by
  intro before result after hrun
  obtain ⟨message, hjudge, rfl⟩ := record_eq_ok hrun
  refine ⟨List.subset_append_left _ _, fun hquiet id hid => ?_⟩
  rw [← Router.judge_id hjudge]
  exact hquiet message (by simp [Router.add]) id hid

theorem complaint {issue : Issue} (id : String) (hid : id ∈ complaintIds)
    (hissue : issue.id = .text id) : Quietly (ApiSurface.record issue) fun _ => False :=
  (record issue).mono fun _ hallowed => hallowed id hid hissue

theorem mapM {f : α → Inspecting β} {post : α → β → Prop} {values : List α}
    (h : ∀ value ∈ values, Quietly (f value) (post value)) :
    Quietly (values.mapM f) fun _ =>
      ∀ value ∈ values, ∃ result, post value result := by
  induction values with
  | nil =>
      rw [List.mapM_nil]
      exact .pure (by simp)
  | cons value values ih =>
      rw [List.mapM_cons]
      refine (h value (by simp)).bind fun result => ?_
      refine (ih fun other hother => h other (by simp [hother])).bind fun _ => ?_
      refine .pure fun hothers hresult other hother => ?_
      rcases List.mem_cons.mp hother with rfl | hother
      · exact ⟨result, hresult⟩
      · exact hothers other hother

end Quietly

namespace Surface

variable {surface : Surface}

/-! ## The declarations of one symbol -/

theorem checkReleaseTag_quietly (name : Datum) (declarations : List Declaration) :
    Quietly (checkReleaseTag surface name declarations) fun _ =>
      ∀ declaration ∈ declarations, ∃ item, surface.ownItem declaration = .ok item := by
  unfold checkReleaseTag
  refine (Quietly.mapM fun declaration _ =>
    Quietly.lift (surface.ownItem declaration)).bind fun items => ?_
  split
  · refine (Quietly.lift _).bind fun first => ?_
    exact (Quietly.record _).mono fun _ _ _ howned => howned
  · exact .pure id

private theorem checkUnderscores_quietly (first : Declaration) (names : List Label) :
    Quietly (checkUnderscores first names) fun _ => True := by
  induction names with
  | nil => exact .pure trivial
  | cons name rest ih =>
      unfold checkUnderscores
      refine (Quietly.lift _).bind fun text => ?_
      split
      · refine (Quietly.record _).bind fun _ => ?_
        exact ih.mono fun _ _ _ _ => trivial
      · exact ih.mono fun _ _ _ => trivial

private theorem checkUnderscore_quietly (entity : Entity) (key : Key)
    (declarations : List Declaration) :
    Quietly (checkUnderscore surface entity key declarations) fun _ => True := by
  unfold checkUnderscore
  refine (Quietly.lift _).bind fun highest => ?_
  split
  · refine (Quietly.lift _).bind fun first => ?_
    exact (checkUnderscores_quietly _ _).mono fun _ _ _ _ => trivial
  · exact .pure fun _ => trivial

private theorem checkSameTag_quietly (expected : ReleaseTag)
    (declarations : List Declaration) :
    Quietly (checkSameTag surface expected declarations) fun _ =>
      ∀ declaration ∈ declarations, ∀ item,
        surface.ownItem declaration = .ok item → item.effectiveTag = expected := by
  induction declarations with
  | nil => exact .pure (by simp)
  | cons declaration rest ih =>
      unfold checkSameTag
      refine (Quietly.lift _).bind fun item => ?_
      have hcons : item.effectiveTag = expected →
          (∀ other ∈ rest, ∀ item, surface.ownItem other = .ok item →
            item.effectiveTag = expected) →
          surface.ownItem declaration = .ok item →
          ∀ other ∈ declaration :: rest, ∀ item,
            surface.ownItem other = .ok item → item.effectiveTag = expected := by
        intro htag hrest hitem other hother found hfound
        rcases List.mem_cons.mp hother with rfl | hother
        · rw [hitem] at hfound
          rw [← Except.ok.inj hfound, htag]
        · exact hrest other hother found hfound
      split
      · refine (Quietly.complaint "ae-different-release-tags" (by simp [complaintIds])
          rfl).bind fun _ => ?_
        exact ih.mono fun _ _ hfalse => hfalse.elim
      · rename_i htag
        exact ih.mono fun _ => hcons (by simpa using htag)

private theorem checkConsistency_quietly (declarations : List Declaration) :
    Quietly (checkConsistency surface declarations) fun _ =>
      ∀ one ∈ declarations, ∀ other ∈ declarations, ∀ item found,
        surface.ownItem one = .ok item → surface.ownItem other = .ok found →
        item.effectiveTag = found.effectiveTag := by
  unfold checkConsistency
  split
  · rename_i first second rest
    refine (Quietly.lift _).bind fun expected => ?_
    refine (checkSameTag_quietly _ _).mono fun _ hsame hfirst => ?_
    have hall : ∀ declaration ∈ first :: second :: rest, ∀ item,
        surface.ownItem declaration = .ok item →
        item.effectiveTag = expected.effectiveTag := by
      intro declaration hdeclaration item hitem
      rcases List.mem_cons.mp hdeclaration with rfl | hdeclaration
      · rw [hfirst] at hitem
        rw [Except.ok.inj hitem]
      · exact hsame declaration hdeclaration item hitem
    intro one hone other hother item found hitem hfound
    rw [hall one hone item hitem, hall other hother found hfound]
  · rename_i hfew
    refine .pure fun one hone other hother item found hitem hfound => ?_
    -- At most one declaration is left.
    have hsame : one = other := by
      match declarations, hone, hother with
      | [single], hone, hother =>
          rw [List.mem_singleton.mp hone, List.mem_singleton.mp hother]
      | first :: second :: rest, _, _ => exact absurd rfl (hfew first second rest)
    rw [hsame, hfound] at hitem
    rw [Except.ok.inj hitem]

/-! ## References -/

/-- A reference from something with a tag is to nothing that the package
declares, or to an exported symbol that is at least as visible. -/
def Compatible (surface : Surface) (tag : ReleaseTag) (id : EntityId) : Prop :=
  ∀ key symbol, id = .symbol key → surface.inventory.symbol? key = some symbol →
    symbol.external = false →
    (∃ entity, surface.entity? id = some entity ∧ entity.exported = true) ∧
    ∃ highest, surface.maxReleaseTag key = .ok highest ∧ tag.rank ≤ highest.rank

private theorem checkReference_quietly (declaration : Declaration) (tag : ReleaseTag)
    (warned : List EntityId) (id : EntityId) :
    Quietly (checkReference surface declaration tag warned id) fun result =>
      warned = [] → result = [] ∧ Compatible surface tag id := by
  unfold checkReference
  cases id with
  | imported key => exact .pure fun hwarned => ⟨hwarned, fun _ _ hid => by cases hid⟩
  | symbol key =>
      dsimp only
      cases hsymbol : surface.inventory.symbol? key with
      | none =>
          refine .pure fun hwarned => ⟨hwarned, fun other symbol hid hfound => ?_⟩
          cases hid
          rw [hsymbol] at hfound
          cases hfound
      | some symbol =>
          dsimp only
          split
          · rename_i hexternal
            refine .pure fun hwarned => ⟨hwarned, fun other found hid hfound => ?_⟩
            cases hid
            rw [hsymbol] at hfound
            simp [← Option.some.inj hfound, hexternal]
          · split
            · rename_i hexported
              refine (Quietly.lift _).bind fun highest => ?_
              have hcompatible : tag.rank ≤ highest.rank →
                  surface.maxReleaseTag key = .ok highest →
                  Compatible surface tag (.symbol key) := by
                intro hrank hmax other found hid _ _
                cases hid
                refine ⟨?_, highest, hmax, hrank⟩
                cases hentity : surface.entity? (.symbol key) with
                | none => simp [hentity] at hexported
                | some entity => exact ⟨entity, rfl, by simpa [hentity] using hexported⟩
              split
              · refine (Quietly.complaint "ae-incompatible-release-tags"
                  (by simp [complaintIds]) rfl).bind fun _ => ?_
                exact .pure False.elim
              · rename_i hrank
                exact .pure fun hmax hwarned =>
                  ⟨hwarned, hcompatible (Nat.not_lt.mp hrank) hmax⟩
            · split
              · rename_i hcontains
                refine .pure fun hwarned => ?_
                simp [hwarned] at hcontains
              · refine (Quietly.lift _).bind fun entryPoint => ?_
                refine (Quietly.complaint "ae-forgotten-export"
                  (by simp [complaintIds]) rfl).bind fun _ => ?_
                exact .pure False.elim

private theorem checkReferences_quietly (declaration : Declaration) (tag : ReleaseTag)
    (warned ids : List EntityId) :
    Quietly (checkReferences surface declaration tag warned ids) fun result =>
      warned = [] → result = [] ∧ ∀ id ∈ ids, Compatible surface tag id := by
  induction ids generalizing warned with
  | nil => exact .pure fun hwarned => ⟨hwarned, by simp⟩
  | cons id rest ih =>
      unfold checkReferences
      refine (checkReference_quietly declaration tag warned id).bind fun next => ?_
      refine (ih next).mono fun result hrest hfirst hwarned => ?_
      obtain ⟨hnext, hcompatible⟩ := hfirst hwarned
      obtain ⟨hresult, hothers⟩ := hrest hnext
      exact ⟨hresult, List.forall_mem_cons.mpr ⟨hcompatible, hothers⟩⟩

private theorem checkDeclarations_quietly (warned : List EntityId)
    (declarations : List Declaration) :
    Quietly (checkDeclarations surface warned declarations) fun result =>
      warned = [] → result = [] ∧ ∀ declaration ∈ declarations,
        ∀ id ∈ surface.references.of declaration.id,
          Compatible surface (surface.tagOf declaration) id := by
  induction declarations generalizing warned with
  | nil => exact .pure fun hwarned => ⟨hwarned, by simp⟩
  | cons declaration rest ih =>
      unfold checkDeclarations
      refine (Quietly.lift _).bind fun item => ?_
      refine (checkReferences_quietly declaration item.effectiveTag warned
        (surface.references.of declaration.id)).bind fun next => ?_
      refine (ih next).mono fun result hrest hfirst hitem hwarned => ?_
      obtain ⟨hnext, hcompatible⟩ := hfirst hwarned
      obtain ⟨hresult, hothers⟩ := hrest hnext
      rw [← tagOf_eq hitem] at hcompatible
      exact ⟨hresult, List.forall_mem_cons.mpr ⟨hcompatible, hothers⟩⟩

/-! ## Entities -/

/-- What is known of a symbol that was checked without complaints. -/
structure Checked (surface : Surface) (key : Key) : Prop where
  owned : ∀ declaration ∈ surface.declarationsOf key,
    ∃ item, surface.ownItem declaration = .ok item
  same : ∀ one ∈ surface.declarationsOf key, ∀ other ∈ surface.declarationsOf key,
    ∀ item found, surface.ownItem one = .ok item →
      surface.ownItem other = .ok found → item.effectiveTag = found.effectiveTag
  compatible : ∀ declaration ∈ Declaration.walkAll (surface.declarationsOf key),
    ∀ id ∈ surface.references.of declaration.id,
      Compatible surface (surface.tagOf declaration) id

/-- The symbols of exported entities are checked, unless they are external. -/
def ChecksEntity (surface : Surface) (entity : Entity) : Prop :=
  ∀ key, entity.subject.id = .symbol key → entity.exported = true →
    (∀ symbol, surface.inventory.symbol? key = some symbol →
      symbol.external = false) →
    surface.Checked key

private theorem checkEntity_quietly (warned : List EntityId) (entity : Entity) :
    Quietly (checkEntity surface warned entity) fun result =>
      warned = [] → result = [] ∧ surface.ChecksEntity entity := by
  unfold checkEntity
  cases hsubject : entity.subject with
  | imported label source =>
      refine .pure fun hwarned => ⟨hwarned, fun key hid => ?_⟩
      rw [hsubject] at hid
      cases hid
  | symbol label name =>
      dsimp only
      split
      · rename_i hskipped
        refine .pure fun hwarned => ⟨hwarned, fun key hid hexported hlocal => ?_⟩
        rw [hsubject, Subject.id, EntityId.symbol.injEq] at hid
        rw [hid, hexported] at hskipped
        cases hsymbol : surface.inventory.symbol? key with
        | none => simp [hsymbol] at hskipped
        | some symbol => simp [hsymbol, hlocal symbol hsymbol] at hskipped
      · refine (checkReleaseTag_quietly name _).bind fun _ => ?_
        refine (checkUnderscore_quietly entity label.key _).bind fun _ => ?_
        refine (checkConsistency_quietly _).bind fun _ => ?_
        refine (checkDeclarations_quietly warned _).mono ?_
        intro result hcompatible hsame _ howned hwarned
        obtain ⟨hresult, hcompatible⟩ := hcompatible hwarned
        refine ⟨hresult, fun key hid _ _ => ?_⟩
        rw [hsubject, Subject.id, EntityId.symbol.injEq] at hid
        exact hid ▸ ⟨howned, hsame, hcompatible⟩

theorem checkEntities_quietly (warned : List EntityId) (entities : List Entity) :
    Quietly (checkEntities surface warned entities) fun _ =>
      warned = [] → ∀ entity ∈ entities, surface.ChecksEntity entity := by
  induction entities generalizing warned with
  | nil => exact .pure (by simp)
  | cons entity rest ih =>
      unfold checkEntities
      refine (checkEntity_quietly warned entity).bind fun next => ?_
      refine (ih next).mono fun _ hrest hfirst hwarned => ?_
      obtain ⟨hnext, hentity⟩ := hfirst hwarned
      exact List.forall_mem_cons.mpr ⟨hentity, hrest hnext⟩

/-! ## The most visible tag -/

theorem maxReleaseTag_le {key : Key} {highest : ReleaseTag} {bound : Nat}
    (h : surface.maxReleaseTag key = .ok highest)
    (hbound : ∀ declaration ∈ surface.declarationsOf key,
      (surface.tagOf declaration).rank ≤ bound) : highest.rank ≤ bound := by
  refine foldlM_preserves (fun tag => tag.rank ≤ bound) ?_ (Nat.zero_le _) h
  intro state declaration next hdeclaration hstate hnext
  simp only [bind_eq_ok, pure_eq_ok] at hnext
  obtain ⟨item, hitem, rfl⟩ := hnext
  split
  · rw [← tagOf_eq hitem]
    exact hbound declaration hdeclaration
  · exact hstate

end Surface

end ApiSurface
