import ApiSurface.Proofs.Trim.Policy
import ApiSurface.Trim

/-!
# Plans carry out the policy

Keeping a declaration collects its closure, and following links rescues until
nothing is left to be rescued.  So a plan keeps the least set of numbers that
obeys the rules of the policy.  The one thing that can keep a plan from being
made is a message rule that cannot be applied, and only when a rescue has to be
reported.
-/

namespace ApiSurface.TrimPlan

open Surface (Closure)

variable {surface : Surface}

/-! ## Keeping collects closures -/

/-- The numbers in the closures of some declarations, and those among the
declarations in the closures whose bodies are written. -/
structure Collects (surface : Surface) (threshold : ReleaseTag)
    (chosen : Declaration → Prop) (ids : List Nat)
    (followed : List Declaration) : Prop where
  kept : ∀ id, id ∈ ids ↔
    ∃ outer, chosen outer ∧ id ∈ surface.closureIds threshold outer
  written : ∀ inner, inner ∈ followed ↔
    ∃ outer, chosen outer ∧ Closure surface threshold outer inner ∧
      surface.isStub inner = false

mutual

theorem keep_collects (hsound : surface.Sound) (threshold : ReleaseTag) :
    (declaration : Declaration) →
    declaration ∈ surface.inventory.allDeclarations →
    ∃ ids followed, keep surface threshold declaration = .ok (ids, followed) ∧
      Collects surface threshold (· = declaration) ids followed
  | .mk id site symbol parent members, hdeclared => by
      obtain ⟨item, hitem⟩ := hsound.known _ hdeclared
      have hstub := Surface.isStub_eq hitem
      have hfound := hsound.declaration_eq hdeclared
      change surface.declaration (.int id) = .ok _ at hfound
      change surface.item id = .ok item at hitem
      cases hpreapproved : item.isPreapproved with
      | true =>
          rw [hpreapproved] at hstub
          refine ⟨[id], [], ?_, ?_, ?_⟩
          · simp [keep, hfound, hitem, hpreapproved, bind, Except.bind, pure,
              Except.pure]
          · intro number
            rw [exists_eq_left, Surface.mem_closureIds_iff]
            simp [hstub, Declaration.id]
          · intro inner
            rw [exists_eq_left, Surface.closure_iff]
            simp only [hstub, List.not_mem_nil, false_iff]
            rintro ⟨rfl | ⟨hbody, -⟩, hwritten⟩
            · simp [hstub] at hwritten
            · cases hbody
      | false =>
          rw [hpreapproved] at hstub
          obtain ⟨ids, followed, hkeep, hcollects⟩ :=
            keepMembers_collects hsound threshold members fun member hmember =>
              Declaration.mem_walkAll_member hdeclared hmember
          refine ⟨id :: ids, .mk id site symbol parent members :: followed,
            ?_, ?_, ?_⟩
          · simp [keep, hfound, hitem, hpreapproved, hkeep, bind, Except.bind, pure,
              Except.pure]
          · intro number
            simp only [List.mem_cons, hcollects.kept, exists_eq_left]
            rw [Surface.mem_closureIds_iff]
            simp [hstub, Declaration.id, Declaration.members, and_assoc]
          · intro inner
            simp only [List.mem_cons, hcollects.written, exists_eq_left]
            rw [Surface.closure_iff]
            simp only [hstub, Declaration.members, true_and, and_assoc]
            constructor
            · rintro (rfl | ⟨member, hmember, htag, hclosure, hbody⟩)
              · exact ⟨.inl rfl, hstub⟩
              · exact ⟨.inr ⟨member, hmember, htag, hclosure⟩, hbody⟩
            · rintro ⟨rfl | ⟨member, hmember, htag, hclosure⟩, hbody⟩
              · exact .inl rfl
              · exact .inr ⟨member, hmember, htag, hclosure, hbody⟩

theorem keepMembers_collects (hsound : surface.Sound) (threshold : ReleaseTag) :
    (members : List Declaration) →
    (∀ member ∈ members, member ∈ surface.inventory.allDeclarations) →
    ∃ ids followed,
      keepMembers surface threshold members = .ok (ids, followed) ∧
      Collects surface threshold (fun member => member ∈ members ∧
        (surface.tagOf member).reaches threshold = true) ids followed
  | [], _ => ⟨[], [], rfl, by simp, by simp⟩
  | member :: rest, hdeclared => by
      obtain ⟨item, hitem⟩ := hsound.known member (hdeclared member (by simp))
      have htag := Surface.tagOf_eq hitem
      obtain ⟨others, later, hrest, hcollects⟩ :=
        keepMembers_collects hsound threshold rest fun other hother =>
          hdeclared other (by simp [hother])
      cases hreaches : item.effectiveTag.reaches threshold with
      | true =>
          obtain ⟨ids, followed, hkeep, hhere⟩ :=
            keep_collects hsound threshold member (hdeclared member (by simp))
          refine ⟨ids ++ others, followed ++ later, ?_, ?_, ?_⟩
          · simp [keepMembers, hitem, hreaches, hkeep, hrest, bind, Except.bind,
              pure, Except.pure]
          · intro id
            simp [hhere.kept, hcollects.kept, htag, hreaches, or_and_right,
              exists_or, and_assoc]
          · intro inner
            simp [hhere.written, hcollects.written, htag, hreaches,
              or_and_right, exists_or, and_assoc]
      | false =>
          refine ⟨others, later, ?_, ?_, ?_⟩
          · simp [keepMembers, hitem, hreaches, hrest, bind, Except.bind, pure,
              Except.pure]
          · intro id
            simp [hcollects.kept, htag, hreaches, or_and_right, exists_or,
              and_assoc]
          · intro inner
            simp [hcollects.written, htag, hreaches, or_and_right, exists_or,
              and_assoc]

end

/-! ## Candidates and links -/

theorem mem_candidates {declaration : Declaration} :
    declaration ∈ candidates surface ↔ surface.Listed declaration := by
  rw [candidates, List.mem_flatMap, Surface.Listed, Surface.entity?_isSome_iff]
  constructor
  · rintro ⟨entity, hentity, hmem⟩
    cases hsubject : entity.subject with
    | symbol label name =>
        rw [hsubject] at hmem
        obtain ⟨hdeclared, hkey⟩ := Inventory.mem_declarationsOf.mp hmem
        exact ⟨hdeclared, entity, hentity, by rw [hsubject, hkey, Subject.id]⟩
    | imported label source => simp [hsubject] at hmem
  · rintro ⟨hdeclared, entity, hentity, hid⟩
    refine ⟨entity, hentity, ?_⟩
    cases hsubject : entity.subject with
    | symbol label name =>
        rw [hsubject, Subject.id, EntityId.symbol.injEq] at hid
        exact Inventory.mem_declarationsOf.mpr ⟨hdeclared, hid.symm⟩
    | imported label source =>
        rw [hsubject, Subject.id] at hid
        cases hid

theorem mem_rescuable {id : EntityId} {target : Declaration} :
    target ∈ rescuable surface id ↔
      id = .symbol target.symbol.key ∧
      (∃ symbol, surface.inventory.symbol? target.symbol.key = some symbol ∧
        symbol.external = false) ∧
      surface.Listed target := by
  cases id with
  | imported key => simp [rescuable]
  | symbol key =>
      rw [rescuable]
      cases hsymbol : surface.inventory.symbol? key with
      | none =>
          simp only [List.not_mem_nil, EntityId.symbol.injEq, false_iff]
          rintro ⟨rfl, ⟨symbol, hfound, -⟩, -⟩
          simp [hsymbol] at hfound
      | some symbol =>
          dsimp only
          split
          · rename_i hexcluded
            simp only [List.not_mem_nil, EntityId.symbol.injEq, false_iff]
            rintro ⟨rfl, ⟨found, hfound, hlocal⟩, -, hentity⟩
            obtain rfl : symbol = found := by simpa [hsymbol] using hfound
            rw [hlocal, Bool.false_or] at hexcluded
            simp [Option.isNone_iff_eq_none.mp hexcluded] at hentity
          · rename_i hincluded
            simp only [Bool.or_eq_true, not_or, Bool.not_eq_true,
              Option.isNone_eq_false_iff] at hincluded
            rw [Surface.declarationsOf, Inventory.mem_declarationsOf,
              EntityId.symbol.injEq]
            constructor
            · rintro ⟨hdeclared, rfl⟩
              exact ⟨rfl, ⟨symbol, hsymbol, hincluded.1⟩, hdeclared, hincluded.2⟩
            · rintro ⟨rfl, -, hdeclared, -⟩
              exact ⟨hdeclared, rfl⟩

theorem mem_links {source : Declaration} {link : Link} :
    link ∈ links surface source ↔
      link.source = source ∧ surface.Refers source link.target := by
  obtain ⟨first, target⟩ := link
  simp only [links, List.mem_flatMap, List.mem_map, mem_rescuable, Link.mk.injEq]
  constructor
  · rintro ⟨id, hid, target, ⟨rfl, hlocal, hlisted⟩, rfl, rfl⟩
    exact ⟨rfl, hid, hlocal, hlisted⟩
  · rintro ⟨rfl, hid, hlocal, hlisted⟩
    exact ⟨_, hid, target, ⟨rfl, hlocal, hlisted⟩, rfl, rfl⟩

/-! ## Following links rescues until nothing is left -/

def rescueId : Datum := .text "ae-incompatible-trim"

def keptIds (plan : TrimPlan) : Set Nat := {id | id ∈ plan.kept}

/-- What is rescued is kept although it is below the threshold, and every
rescue is reported once. -/
structure Reported (surface : Surface) (plan : TrimPlan) : Prop where
  kept : ∀ id ∈ plan.rescued, id ∈ plan.kept
  below : ∀ id ∈ plan.rescued,
    ∃ declaration ∈ surface.inventory.allDeclarations, declaration.id = id ∧
      (surface.tagOf declaration).below plan.tier.threshold = true
  once : plan.rescued.Nodup
  messages : plan.messages.map Message.declaration =
    plan.rescued.map fun id => .int id
  messageIds : ∀ message ∈ plan.messages, message.id = rescueId

/-- The state of following links.  What is kept was reached by rescues, the
waiting links start at what is kept, and every other link that starts there
leads to something kept. -/
structure Following (surface : Surface) (plan : TrimPlan) (unkept : List Nat)
    (queue : List Link) : Prop where
  reached : Surface.Reached surface plan.tier.threshold plan.keptIds
  missing : ∀ declaration ∈ surface.inventory.allDeclarations,
    declaration.id ∈ unkept ↔ declaration.id ∉ plan.kept
  waiting : ∀ link ∈ queue,
    link.source ∈ surface.inventory.allDeclarations ∧
    link.source.id ∈ plan.kept ∧ surface.isStub link.source = false ∧
    surface.Refers link.source link.target
  covered : ∀ source ∈ surface.inventory.allDeclarations,
    source.id ∈ plan.kept → surface.isStub source = false →
    ∀ target, surface.Refers source target →
    ⟨source, target⟩ ∈ queue ∨ target.id ∈ plan.kept
  reported : Reported surface plan

variable {plan : TrimPlan} {unkept : List Nat} {link : Link} {rest : List Link}

theorem Following.declared (h : Following surface plan unkept (link :: rest)) :
    link.target ∈ surface.inventory.allDeclarations :=
  (h.waiting link (by simp)).2.2.2.2.2.1

theorem Following.skip (h : Following surface plan unkept (link :: rest))
    (hkept : link.target.id ∉ unkept) : Following surface plan unkept rest where
  reached := h.reached
  missing := h.missing
  waiting := fun other hother => h.waiting other (by simp [hother])
  covered := by
    intro source hdeclared hsource hbody target hrefers
    rcases h.covered source hdeclared hsource hbody target hrefers with hqueue | hdone
    · rcases List.mem_cons.mp hqueue with rfl | hqueue
      · rw [h.missing _ h.declared, not_not] at hkept
        exact .inr hkept
      · exact .inl hqueue
    · exact .inr hdone
  reported := h.reported

def rescue (plan : TrimPlan) (target : Nat) (ids : List Nat)
    (message : Message) : TrimPlan :=
  { plan with
    kept := plan.kept ++ ids
    rescued := plan.rescued ++ [target]
    messages := plan.messages ++ [message] }

variable {ids : List Nat} {followed : List Declaration} {message : Message}

theorem Following.below (h : Following surface plan unkept (link :: rest))
    (hmissing : link.target.id ∈ unkept) :
    (surface.tagOf link.target).below plan.tier.threshold = true :=
  h.reached.below_of_missing (h.waiting link (by simp)).2.2.2.2.2
    ((h.missing _ h.declared).mp hmissing)

private theorem Following.rescue_reported
    (h : Following surface plan unkept (link :: rest))
    (hmissing : link.target.id ∈ unkept) (hself : link.target.id ∈ ids)
    (hmessage : message.declaration = .int link.target.id)
    (hid : message.id = rescueId) :
    Reported surface (plan.rescue link.target.id ids message) where
  kept := by
    intro id hrescued
    rcases List.mem_append.mp hrescued with hbefore | hnew
    · exact List.mem_append_left _ (h.reported.kept id hbefore)
    · rw [List.mem_singleton.mp hnew]
      exact List.mem_append_right _ hself
  below := by
    intro id hrescued
    rcases List.mem_append.mp hrescued with hbefore | hnew
    · exact h.reported.below id hbefore
    · rw [List.mem_singleton.mp hnew]
      exact ⟨link.target, h.declared, rfl, h.below hmissing⟩
  once := by
    refine List.nodup_append.mpr ⟨h.reported.once, by simp, ?_⟩
    rintro first hfirst second hsecond rfl
    rw [List.mem_singleton.mp hsecond] at hfirst
    exact (h.missing _ h.declared).mp hmissing (h.reported.kept _ hfirst)
  messages := by
    simp [rescue, h.reported.messages, hmessage]
  messageIds := by
    intro other hother
    rcases List.mem_append.mp hother with hbefore | hnew
    · exact h.reported.messageIds other hbefore
    · rw [List.mem_singleton.mp hnew, hid]

theorem Following.rescue (hsound : surface.Sound)
    (h : Following surface plan unkept (link :: rest))
    (hmissing : link.target.id ∈ unkept)
    (hcollects : Collects surface
      (plan.tier.threshold.least (surface.tagOf link.target))
      (· = link.target) ids followed)
    (hmessage : message.declaration = .int link.target.id)
    (hid : message.id = rescueId) :
    Following surface (plan.rescue link.target.id ids message)
      (remaining unkept link.target.id ids)
      (rest ++ followed.flatMap (links surface)) := by
  obtain ⟨hdeclared, hsource, hbody, hrefers⟩ := h.waiting link (by simp)
  have htarget := (h.missing _ h.declared).mp hmissing
  have hids : ∀ id, id ∈ ids ↔ id ∈ surface.closureIds
      (plan.tier.threshold.least (surface.tagOf link.target)) link.target := by
    intro id
    rw [hcollects.kept, exists_eq_left]
  have hself : link.target.id ∈ ids :=
    (hids _).mpr (Surface.mem_closureIds_self link.target)
  refine ⟨?_, ?_, ?_, ?_, h.rescue_reported hmissing hself hmessage hid⟩
  · have hunion : (plan.rescue link.target.id ids message).keptIds =
        plan.keptIds ∪ surface.closureIds
          (plan.tier.threshold.least (surface.tagOf link.target)) link.target := by
      ext id
      simp [keptIds, TrimPlan.rescue, hids]
    rw [hunion]
    exact .rescue h.reached hdeclared hsource hbody hrefers htarget
  · intro declaration hdeclaration
    simp only [remaining, List.mem_filter, h.missing declaration hdeclaration,
      TrimPlan.rescue, List.mem_append, not_or, Bool.and_eq_true,
      decide_eq_true_eq, Bool.not_eq_true', List.contains_eq_mem,
      decide_eq_false_iff_not]
    constructor
    · rintro ⟨hunkept, -, hnew⟩
      exact ⟨hunkept, hnew⟩
    · rintro ⟨hunkept, hnew⟩
      exact ⟨hunkept, fun heq => hnew (heq ▸ hself), hnew⟩
  · intro other hother
    rcases List.mem_append.mp hother with hrest | hnew
    · obtain ⟨hother, hkept, hrefers⟩ := h.waiting other (by simp [hrest])
      exact ⟨hother, List.mem_append_left _ hkept, hrefers⟩
    · obtain ⟨source, hfollowed, hlink⟩ := List.mem_flatMap.mp hnew
      obtain ⟨rfl, hrefers⟩ := mem_links.mp hlink
      obtain ⟨outer, rfl, hclosure, hbody⟩ := (hcollects.written _).mp hfollowed
      refine ⟨hclosure.mem_allDeclarations h.declared, List.mem_append_right _ ?_,
        hbody, hrefers⟩
      exact (hids _).mpr ⟨_, hclosure, rfl⟩
  · intro source hdeclared hkept hbody target hrefers
    rcases List.mem_append.mp hkept with hbefore | hnew
    · rcases h.covered source hdeclared hbefore hbody target hrefers with
        hqueue | hdone
      · rcases List.mem_cons.mp hqueue with rfl | hqueue
        · exact .inr (List.mem_append_right _ hself)
        · exact .inl (List.mem_append_left _ hqueue)
      · exact .inr (List.mem_append_left _ hdone)
    · have hclosure := Surface.closure_of_id_mem hsound h.declared hdeclared
        ((hids _).mp hnew)
      refine .inl (List.mem_append_right _ (List.mem_flatMap.mpr ⟨source, ?_, ?_⟩))
      · exact (hcollects.written source).mpr ⟨_, rfl, hclosure, hbody⟩
      · exact mem_links.mpr ⟨rfl, hrefers⟩

/-! ## Running the queue -/

theorem judge_rescueIssue {router : Router} {rule : LogLevel × Bool}
    (hrule : ruleFor router.rules rescueId = .ok rule) (tier : Tier)
    (link : Link) (tag : ReleaseTag) :
    ∃ message, router.judge (rescueIssue tier link tag) = .ok message ∧
      message.declaration = .int link.target.id ∧ message.id = rescueId := by
  have hid : (rescueIssue tier link tag).id = rescueId := rfl
  refine ⟨{ id := rescueId
            text := (rescueIssue tier link tag).text
            location := (rescueIssue tier link tag).location
            declaration := .int link.target.id
            exportName := (rescueIssue tier link tag).exportName
            level := rule.1
            addToReport := rule.2 }, ?_, rfl, rfl⟩
  rw [Router.judge, hid, hrule]
  rfl

theorem follow_completes (hsound : surface.Sound) {rule : LogLevel × Bool}
    (hrule : ruleFor surface.router.rules rescueId = .ok rule)
    {queue : List Link} (h : Following surface plan unkept queue) :
    ∃ result unkept', follow surface plan unkept queue = .ok result ∧
      result.tier = plan.tier ∧ Following surface result unkept' [] := by
  -- A rescue leaves fewer numbers unkept, a link that is passed over fewer links.
  induction hsize : unkept.length using Nat.strong_induction_on
    generalizing plan unkept queue with
  | _ size ihSize =>
      induction queue with
      | nil => exact ⟨plan, unkept, by rw [follow], rfl, h⟩
      | cons link rest ihRest =>
          rw [follow]
          split
          · rename_i hmissing
            obtain ⟨item, hitem⟩ := hsound.known _ h.declared
            obtain ⟨message, hjudge, hdeclaration, hid⟩ :=
              judge_rescueIssue hrule plan.tier link item.effectiveTag
            obtain ⟨ids, followed, hkeep, hcollects⟩ := keep_collects hsound
              (plan.tier.threshold.least item.effectiveTag) link.target h.declared
            rw [← Surface.tagOf_eq hitem] at hcollects
            have hsmaller := remaining_length_lt ids hmissing
            obtain ⟨result, unkept', hresult, htier, hdone⟩ :=
              ihSize _ (hsize ▸ hsmaller)
                (h.rescue hsound hmissing hcollects hdeclaration hid) rfl
            refine ⟨result, unkept', ?_, htier, hdone⟩
            simp only [hsound.declaration_eq h.declared, hitem, hjudge, hkeep, bind,
              Except.bind]
            exact hresult
          · rename_i hkept
            exact ihRest (h.skip hkept)

theorem follow_of_kept {queue : List Link}
    (h : ∀ link ∈ queue, link.target.id ∉ unkept) :
    follow surface plan unkept queue = .ok plan := by
  induction queue with
  | nil => rw [follow]
  | cons link rest ih =>
      rw [follow, dif_neg (h link (by simp))]
      exact ih fun other hother => h other (by simp [hother])

theorem follow_without_rule (hsound : surface.Sound) {fault : Fault}
    (hrule : ruleFor surface.router.rules rescueId = .error fault)
    {queue : List Link} (h : Following surface plan unkept queue)
    (hneeded : ∃ link ∈ queue, link.target.id ∈ unkept) :
    follow surface plan unkept queue = .error fault := by
  induction queue with
  | nil => simp at hneeded
  | cons link rest ih =>
      rw [follow]
      split
      · obtain ⟨item, hitem⟩ := hsound.known _ h.declared
        have hid : (rescueIssue plan.tier link item.effectiveTag).id = rescueId :=
          rfl
        simp only [hsound.declaration_eq h.declared, hitem, Router.judge, hid, hrule,
          bind, Except.bind]
      · rename_i hkept
        obtain ⟨other, hother, hmissing⟩ := hneeded
        rcases List.mem_cons.mp hother with rfl | hother
        · exact absurd hmissing hkept
        · exact ih (h.skip hkept) ⟨other, hother, hmissing⟩

/-! ## Making plans -/

def Chosen (surface : Surface) (tier : Tier) (declaration : Declaration) : Prop :=
  surface.Listed declaration ∧
    (surface.tagOf declaration).reaches tier.threshold = true

theorem keptIds_start {tier : Tier} {kept : List Nat}
    (hcollects : Collects surface tier.threshold (Chosen surface tier) kept
      followed) :
    keptIds { tier := tier, kept := kept } =
      surface.visibleIds tier.threshold := by
  ext id
  refine (hcollects.kept id).trans ?_
  simp only [Chosen, and_assoc]
  rfl

private theorem start_following (hsound : surface.Sound) {tier : Tier} {kept : List Nat}
    (hcollects : Collects surface tier.threshold (Chosen surface tier) kept
      followed) :
    Following surface { tier := tier, kept := kept }
      ((surface.inventory.allDeclarations.map Declaration.id).filter
        fun id => !kept.contains id)
      (followed.flatMap (links surface)) where
  reached := by
    rw [keptIds_start hcollects]
    exact .start
  missing := by
    intro declaration hdeclared
    simp only [List.mem_filter, List.contains_eq_mem, Bool.not_eq_true',
      decide_eq_false_iff_not, and_iff_right_iff_imp]
    exact fun _ => List.mem_map_of_mem hdeclared
  waiting := by
    intro link hlink
    obtain ⟨source, hfollowed, hlink⟩ := List.mem_flatMap.mp hlink
    obtain ⟨rfl, hrefers⟩ := mem_links.mp hlink
    obtain ⟨outer, ⟨hlisted, hreaches⟩, hclosure, hbody⟩ :=
      (hcollects.written _).mp hfollowed
    refine ⟨hclosure.mem_allDeclarations hlisted.1, ?_, hbody, hrefers⟩
    exact (hcollects.kept _).mpr ⟨outer, ⟨hlisted, hreaches⟩, _, hclosure, rfl⟩
  covered := by
    intro source hdeclared hkept hbody target hrefers
    obtain ⟨outer, hchosen, hmem⟩ := (hcollects.kept _).mp hkept
    have hclosure :=
      Surface.closure_of_id_mem hsound hchosen.1.1 hdeclared hmem
    refine .inl (List.mem_flatMap.mpr ⟨source, ?_, mem_links.mpr ⟨rfl, hrefers⟩⟩)
    exact (hcollects.written _).mpr ⟨outer, hchosen, hclosure, hbody⟩
  reported := ⟨by simp, by simp, by simp, by simp, by simp⟩

theorem make_starts (hsound : surface.Sound) (tier : Tier) :
    ∃ plan unkept queue, make surface tier = follow surface plan unkept queue ∧
      Following surface plan unkept queue ∧ plan.tier = tier ∧
      plan.keptIds = surface.visibleIds tier.threshold ∧
      plan.rescued = [] ∧ plan.messages = [] := by
  obtain ⟨kept, followed, hkeep, hcollects⟩ :=
    keepMembers_collects hsound tier.threshold (candidates surface)
      fun declaration hmem => (mem_candidates.mp hmem).1
  simp only [mem_candidates] at hcollects
  refine ⟨{ tier := tier, kept := kept }, _, _, ?_,
    start_following hsound hcollects, rfl, keptIds_start hcollects, rfl, rfl⟩
  rw [make, keepReaching, hkeep]
  rfl

/-- Links that lead to something missing are there unless what is kept is
settled. -/
theorem Following.settled_iff {queue : List Link}
    (h : Following surface plan unkept queue) :
    surface.Settled plan.keptIds ↔ ∀ link ∈ queue, link.target.id ∉ unkept := by
  constructor
  · intro hsettled link hlink
    obtain ⟨hdeclared, hkept, hbody, hrefers⟩ := h.waiting link hlink
    rw [h.missing _ hrefers.2.2.1, not_not]
    exact hsettled link.source hdeclared hkept hbody link.target hrefers
  · intro hqueue source hdeclared hkept hbody target hrefers
    rcases h.covered source hdeclared hkept hbody target hrefers with hlink | hdone
    · have htarget := hqueue _ hlink
      rwa [h.missing _ hrefers.2.2.1, not_not] at htarget
    · exact hdone

theorem make_of_settled (hsound : surface.Sound) {tier : Tier}
    (hsettled : surface.Settled (surface.visibleIds tier.threshold)) :
    ∃ plan, make surface tier = .ok plan ∧
      plan.keptIds = surface.visibleIds tier.threshold ∧
      plan.rescued = [] ∧ plan.messages = [] := by
  obtain ⟨plan, unkept, queue, hmake, hfollowing, -, hkept, hrescued, hmessages⟩ :=
    make_starts hsound tier
  rw [← hkept, hfollowing.settled_iff] at hsettled
  exact ⟨plan, hmake.trans (follow_of_kept hsettled), hkept, hrescued, hmessages⟩

theorem make_eq_error_iff (hsound : surface.Sound) {tier : Tier} {fault : Fault} :
    make surface tier = .error fault ↔
      ruleFor surface.router.rules rescueId = .error fault ∧
      ¬ surface.Settled (surface.visibleIds tier.threshold) := by
  obtain ⟨plan, unkept, queue, hmake, hfollowing, -, hkept, -, -⟩ :=
    make_starts hsound tier
  rw [hmake, ← hkept, hfollowing.settled_iff]
  constructor
  · intro herror
    have hneeded : ¬ ∀ link ∈ queue, link.target.id ∉ unkept := by
      intro hqueue
      rw [follow_of_kept hqueue] at herror
      cases herror
    refine ⟨?_, hneeded⟩
    cases hrule : ruleFor surface.router.rules rescueId with
    | ok rule =>
        obtain ⟨result, _, hresult, -⟩ := follow_completes hsound hrule hfollowing
        rw [hresult] at herror
        cases herror
    | error other =>
        rw [follow_without_rule hsound hrule hfollowing (by simpa using hneeded)]
          at herror
        rw [Except.error.inj herror]
  · rintro ⟨hrule, hneeded⟩
    exact follow_without_rule hsound hrule hfollowing (by simpa using hneeded)

theorem make_of_rule (hsound : surface.Sound) {rule : LogLevel × Bool}
    (hrule : ruleFor surface.router.rules rescueId = .ok rule) (tier : Tier) :
    ∃ plan, make surface tier = .ok plan := by
  cases hmake : make surface tier with
  | ok plan => exact ⟨plan, rfl⟩
  | error fault =>
      have hfault := ((make_eq_error_iff hsound).mp hmake).1
      rw [hrule] at hfault
      cases hfault

theorem make_finishes (hsound : surface.Sound) {tier : Tier} {plan : TrimPlan}
    (h : make surface tier = .ok plan) :
    plan.tier = tier ∧ surface.Reached tier.threshold plan.keptIds ∧
      surface.Settled plan.keptIds ∧ Reported surface plan := by
  obtain ⟨first, unkept, queue, hmake, hfollowing, rfl, hkept, -⟩ :=
    make_starts hsound tier
  rw [hmake] at h
  cases hrule : ruleFor surface.router.rules rescueId with
  | ok rule =>
      obtain ⟨result, _, hresult, htier, hdone⟩ :=
        follow_completes hsound hrule hfollowing
      obtain rfl : result = plan := by simpa [hresult] using h
      exact ⟨htier, htier ▸ hdone.reached, hdone.settled_iff.mpr (by simp),
        hdone.reported⟩
  | error fault =>
      by_cases hqueue : ∀ link ∈ queue, link.target.id ∉ unkept
      · obtain rfl : first = plan := by simpa [follow_of_kept hqueue] using h
        exact ⟨rfl, hfollowing.reached, hfollowing.settled_iff.mpr hqueue,
          hfollowing.reported⟩
      · rw [follow_without_rule hsound hrule hfollowing (by simpa using hqueue)] at h
        cases h

end ApiSurface.TrimPlan
