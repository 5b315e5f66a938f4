import ApiSurface.Proofs.Surface.Analysis
import ApiSurface.Proofs.Surface.Validation

/-!
# What the analysis records

The steps of an analysis only add messages, each for an issue.  For every step it is
said which issues these are: where they stand, and which of them are about symbols
that are not exported.  The symbols reported so far are passed on from reference to
reference, so that the reports of two steps put together are those of one step over
the references of both.
-/

namespace ApiSurface

namespace Declaration

theorem mem_walkAll_of_subset {all : List Declaration} {inner : Declaration}
    (some : List Declaration) (hsome : some ⊆ walkAll all) (h : inner ∈ walkAll some) :
    inner ∈ walkAll all := by
  obtain ⟨outer, houter, hinner⟩ := mem_walkAll.mp h
  exact (walkAll_sublist all (hsome houter)).subset hinner

end Declaration

/-! ## Adding messages -/

/-- What a message is about, without the rule that was applied to it. -/
def Message.issue (message : Message) : Issue :=
  { id := message.id
    text := message.text
    location := message.location
    declaration := message.declaration
    exportName := message.exportName }

theorem Router.judge_issue {router : Router} {issue : Issue} {message : Message}
    (h : router.judge issue = .ok message) : message.issue = issue := by
  simp only [judge, bind_eq_ok, pure_eq_ok] at h
  obtain ⟨rule, -, rfl⟩ := h
  rfl

/-- Runs of an action change no rules, and add messages for issues that satisfy `post`
together with the result. -/
def Adds {α : Type} (action : Inspecting α) (post : α → List Issue → Prop) : Prop :=
  ∀ before result after, action.run before = .ok (result, after) →
    after.rules = before.rules ∧ ∃ added, after.messages = before.messages ++ added ∧
      post result (added.map Message.issue)

namespace Adds

variable {α β : Type}

theorem mono {action : Inspecting α} {post weaker : α → List Issue → Prop}
    (h : Adds action post) (hle : ∀ result issues, post result issues → weaker result issues) :
    Adds action weaker := by
  intro before result after hrun
  obtain ⟨hrules, added, hmessages, hpost⟩ := h before result after hrun
  exact ⟨hrules, added, hmessages, hle _ _ hpost⟩

theorem pure {value : α} {post : α → List Issue → Prop} (h : post value []) :
    Adds (Pure.pure value) post := by
  intro before result after hrun
  obtain ⟨rfl, rfl⟩ := run_pure_eq_ok.mp hrun
  exact ⟨rfl, [], by simp, h⟩

theorem bind {first : Inspecting α} {next : α → Inspecting β}
    {middle : α → List Issue → Prop} {post : β → List Issue → Prop}
    (hfirst : Adds first middle)
    (hnext : ∀ produced earlier, middle produced earlier →
      Adds (next produced) fun result later => post result (earlier ++ later)) :
    Adds (first >>= next) post := by
  intro before result after hrun
  obtain ⟨produced, between, hrunFirst, hrunNext⟩ := run_bind_eq_ok.mp hrun
  obtain ⟨hrules, earlier, hearlier, hmiddle⟩ := hfirst _ _ _ hrunFirst
  obtain ⟨hrulesNext, later, hlater, hpost⟩ := hnext _ _ hmiddle _ _ _ hrunNext
  refine ⟨hrulesNext.trans hrules, earlier ++ later, ?_, by simpa using hpost⟩
  rw [hlater, hearlier, List.append_assoc]

theorem bind_lift {value : Except Fault α} {next : α → Inspecting β}
    {post : β → List Issue → Prop}
    (hnext : ∀ produced, value = .ok produced → Adds (next produced) post) :
    Adds (liftM value >>= next) post := by
  intro before result after hrun
  obtain ⟨produced, between, hlift, hrunNext⟩ := run_bind_eq_ok.mp hrun
  obtain ⟨hvalue, rfl⟩ := run_liftM_eq_ok.mp hlift
  exact hnext produced hvalue _ _ _ hrunNext

theorem record (issue : Issue) : Adds (record issue) fun _ issues => issues = [issue] := by
  intro before result after hrun
  obtain ⟨message, hjudge, rfl⟩ := record_eq_ok hrun
  exact ⟨rfl, [message], rfl, by simp [Router.judge_issue hjudge]⟩

private theorem mapM_lift {f : α → Except Fault β} {values : List α} :
    Adds (values.mapM fun value => (liftM (f value) : Inspecting β))
      fun _ issues => issues = [] := by
  induction values with
  | nil => exact .pure rfl
  | cons value rest ih =>
      rw [List.mapM_cons]
      refine .bind_lift fun _ _ => ih.bind fun _ earlier hearlier => .pure ?_
      simp [hearlier]

end Adds

/-! ## Issues that stand at declarations -/

namespace Issue

def isForgotten (issue : Issue) : Bool :=
  issue.id.key? = some (.text "ae-forgotten-export")

/-- The issue stands at a declaration: it has its number and its place in the source,
and an export name is a text. -/
structure At (declaration : Declaration) (issue : Issue) : Prop where
  number : issue.declaration = .int declaration.id
  place : issue.location = some declaration.site.location
  exportName : issue.exportName = .null ∨ ∃ text, issue.exportName = .text text

theorem at_issue (declaration : Declaration) (id text : String) :
    At declaration (declaration.issue id text) :=
  ⟨rfl, rfl, .inl rfl⟩

def StandAt (declarations : List Declaration) (issues : List Issue) : Prop :=
  ∀ issue ∈ issues, ∃ declaration ∈ declarations, At declaration issue

/-- The issues stand at some of the declarations, and none reports a symbol that is
not exported. -/
def Aside (declarations : List Declaration) (issues : List Issue) : Prop :=
  StandAt declarations issues ∧ issues.filter isForgotten = []

variable {declarations more : List Declaration} {first second : List Issue}

theorem StandAt.single {declaration : Declaration} {issue : Issue}
    (h : At declaration issue) : StandAt [declaration] [issue] := by
  simpa [StandAt] using h

theorem StandAt.append (hfirst : StandAt declarations first)
    (hsecond : StandAt declarations second) : StandAt declarations (first ++ second) :=
  List.forall_mem_append.mpr ⟨hfirst, hsecond⟩

theorem StandAt.mono (h : StandAt declarations first) (hmore : declarations ⊆ more) :
    StandAt more first := by
  intro issue hissue
  obtain ⟨declaration, hdeclaration, hstands⟩ := h issue hissue
  exact ⟨declaration, hmore hdeclaration, hstands⟩

theorem Aside.nil : Aside declarations [] := ⟨by simp [StandAt], rfl⟩

theorem Aside.append (hfirst : Aside declarations first)
    (hsecond : Aside declarations second) : Aside declarations (first ++ second) :=
  ⟨hfirst.1.append hsecond.1, by rw [List.filter_append, hfirst.2, hsecond.2]; rfl⟩

theorem Aside.mono (h : Aside declarations first) (hmore : declarations ⊆ more) :
    Aside more first :=
  ⟨h.1.mono hmore, h.2⟩

theorem Aside.single {declaration : Declaration} {issue : Issue} {id : String}
    (hstands : At declaration issue) (hid : issue.id = .text id)
    (hother : id ≠ "ae-forgotten-export") : Aside [declaration] [issue] := by
  refine ⟨.single hstands, ?_⟩
  simp [isForgotten, hid, Datum.key?, hother]

end Issue

open Issue (Aside StandAt)

theorem addApiItem_adds (graph : ModuleGraph) (signatures : Signatures) (items : ApiItems)
    (declaration : Declaration) :
    Adds (addApiItem graph signatures items declaration)
      fun _ issues => Aside [declaration] issues := by
  unfold addApiItem
  refine .bind_lift fun signature _ => ?_
  split
  · split
    · refine .bind (.record _) fun _ earlier hearlier => .pure ?_
      rw [hearlier]
      exact .single (Issue.at_issue _ _ _) rfl (by decide)
    · exact .pure .nil
  · refine .bind_lift fun parent _ => ?_
    split
    · refine .bind (.record _) fun _ earlier hearlier => .pure ?_
      rw [hearlier]
      exact .single (Issue.at_issue _ _ _) rfl (by decide)
    · exact .pure .nil

theorem apiItems_adds (graph : ModuleGraph) (signatures : Signatures) (items : ApiItems)
    (declarations : List Declaration) :
    Adds (apiItems graph signatures items declarations)
      fun _ issues => Aside declarations issues := by
  induction declarations generalizing items with
  | nil => exact .pure .nil
  | cons declaration rest ih =>
      refine .bind (addApiItem_adds graph signatures items declaration)
        fun items earlier hearlier => (ih items).mono fun _ later hlater => ?_
      exact (hearlier.mono (by simp)).append (hlater.mono (by simp))

namespace Surface

theorem recordAll_adds (issues : List Issue) :
    Adds (recordAll issues) fun _ added => added = issues := by
  induction issues with
  | nil => exact .pure rfl
  | cons issue rest ih =>
      refine .bind (.record issue) fun _ earlier hearlier => ih.mono fun _ later hlater => ?_
      rw [hearlier, hlater]
      rfl

theorem mem_of_firstDeclaration {declarations : List Declaration} {first : Declaration}
    (h : firstDeclaration declarations = .ok first) : [first] ⊆ declarations := by
  cases declarations with
  | nil => cases h
  | cons declaration rest =>
      cases h
      simp

variable {surface : Surface}

private theorem checkReleaseTag_adds (name : Datum) (declarations : List Declaration) :
    Adds (checkReleaseTag surface name declarations)
      fun _ issues => Aside declarations issues := by
  unfold checkReleaseTag
  refine .bind .mapM_lift fun items earlier hearlier => ?_
  subst hearlier
  split
  · refine .bind_lift fun first hfirst => (Adds.record _).mono fun _ issues hissues => ?_
    rw [hissues]
    refine Aside.mono ?_ (mem_of_firstDeclaration hfirst)
    exact .single (Issue.at_issue _ _ _) rfl (by decide)
  · exact .pure .nil

private theorem checkUnderscores_adds (first : Declaration) (names : List Label) :
    Adds (checkUnderscores first names) fun _ issues => Aside [first] issues := by
  induction names with
  | nil => exact .pure .nil
  | cons name rest ih =>
      unfold checkUnderscores
      refine .bind_lift fun text _ => ?_
      split
      · refine .bind (.record _) fun _ earlier hearlier => ih.mono fun _ later hlater => ?_
        rw [hearlier]
        exact (Aside.single ⟨rfl, rfl, .inr ⟨text, rfl⟩⟩ rfl (by decide)).append hlater
      · exact ih

theorem checkUnderscore_adds (entity : Entity) (key : Key) (declarations : List Declaration) :
    Adds (checkUnderscore surface entity key declarations)
      fun _ issues => Aside declarations issues := by
  unfold checkUnderscore
  refine .bind_lift fun highest _ => ?_
  split
  · refine .bind_lift fun first hfirst => ?_
    exact (checkUnderscores_adds first _).mono fun _ issues h =>
      h.mono (mem_of_firstDeclaration hfirst)
  · exact .pure .nil

theorem checkSameTag_adds (expected : ReleaseTag) (declarations : List Declaration) :
    Adds (checkSameTag surface expected declarations)
      fun _ issues => Aside declarations issues := by
  induction declarations with
  | nil => exact .pure .nil
  | cons declaration rest ih =>
      have hrest := ih.mono fun _ issues (h : Aside rest issues) =>
        h.mono (List.subset_cons_self declaration rest)
      unfold checkSameTag
      refine .bind_lift fun item _ => ?_
      split
      · refine .bind (.record _) fun _ earlier hearlier => hrest.mono fun _ later hlater => ?_
        rw [hearlier]
        exact ((Aside.single (Issue.at_issue _ _ _) rfl (by decide)).mono (by simp)).append hlater
      · exact hrest

private theorem checkConsistency_adds (declarations : List Declaration) :
    Adds (checkConsistency surface declarations)
      fun _ issues => Aside declarations issues := by
  unfold checkConsistency
  split
  · refine .bind_lift fun expected _ => ?_
    exact (checkSameTag_adds _ _).mono fun _ issues h => h.mono (List.subset_cons_self _ _)
  · exact .pure .nil

/-! ## Symbols that are not exported -/

/-- The symbol that is denoted, unless it is an import. -/
def symbolOf? (surface : Surface) : EntityId → Option Symbol
  | .symbol key => surface.inventory.symbol? key
  | .imported _ => none

def forgets (surface : Surface) (id : EntityId) : Bool :=
  (surface.symbolOf? id).any fun symbol =>
    !symbol.external && !((surface.entity? id).map Entity.exported).getD false

def givenName (surface : Surface) (id : EntityId) : Datum :=
  (((surface.entity? id).map Entity.name).getD .null).orElse
    (((surface.symbolOf? id).map Symbol.name).getD .null)

/-- Along some mentions, with the ids in `warned` reported before, these are reported,
and the ids in `result` are passed on. -/
structure Reports (surface : Surface) (warned : List EntityId)
    (mentions : List (Declaration × EntityId)) (result : List EntityId)
    (reports : List (Declaration × EntityId)) : Prop where
  distinct : (reports.map Prod.snd).Nodup
  passed : ∀ id, id ∈ result ↔ id ∈ warned ∨ id ∈ reports.map Prod.snd
  reported : ∀ id, id ∈ reports.map Prod.snd ↔
    surface.forgets id = true ∧ id ∉ warned ∧ id ∈ mentions.map Prod.snd
  first : ∀ report ∈ reports,
    mentions.find? (fun mention => mention.2 = report.2) = some report

theorem Reports.nil (warned : List EntityId) : Reports surface warned [] warned [] where
  distinct := by simp
  passed := by simp
  reported := by simp
  first := by simp

variable {warned result : List EntityId}

theorem Reports.append {between : List EntityId}
    {mentions later reports others : List (Declaration × EntityId)}
    (hfirst : Reports surface warned mentions between reports)
    (hsecond : Reports surface between later result others) :
    Reports surface warned (mentions ++ later) result (reports ++ others) where
  distinct := by
    rw [List.map_append, List.nodup_append]
    refine ⟨hfirst.distinct, hsecond.distinct, ?_⟩
    rintro id hid other hother rfl
    exact ((hsecond.reported id).mp hother).2.1 ((hfirst.passed id).mpr (.inr hid))
  passed := by
    intro id
    rw [hsecond.passed, hfirst.passed, List.map_append, List.mem_append, or_assoc]
  reported := by
    intro id
    simp only [List.map_append, List.mem_append, hsecond.reported, hfirst.passed,
      hfirst.reported]
    tauto
  first := by
    intro report hreport
    rw [List.find?_append]
    rcases List.mem_append.mp hreport with hreport | hreport
    · rw [hfirst.first report hreport]
      rfl
    · have hnone : mentions.find? (fun mention => mention.2 = report.2) = none := by
        rw [List.find?_eq_none]
        intro mention hmention hsame
        obtain ⟨hforgets, hnew, -⟩ :=
          (hsecond.reported report.2).mp (List.mem_map_of_mem hreport)
        have hsame : mention.2 = report.2 := by simpa using hsame
        refine hnew ((hfirst.passed _).mpr ?_)
        by_cases hwarned : report.2 ∈ warned
        · exact .inl hwarned
        · exact .inr ((hfirst.reported _).mpr
            ⟨hforgets, hwarned, List.mem_map.mpr ⟨mention, hmention, hsame⟩⟩)
      rw [hnone, hsecond.first report hreport]
      rfl

def Tells (surface : Surface) (report : Declaration × EntityId) (issue : Issue) : Prop :=
  ∃ entryPoint, surface.graph.entryPointFileName = .ok entryPoint ∧
    issue = forgottenExport report.1 (surface.givenName report.2) entryPoint

/-- What checking some mentions comes to: the issues stand at the declarations, and
those about symbols that are not exported are the reports, in their order. -/
def Accounts (surface : Surface) (declarations : List Declaration)
    (warned : List EntityId) (mentions : List (Declaration × EntityId))
    (result : List EntityId) (issues : List Issue) : Prop :=
  StandAt declarations issues ∧ ∃ reports,
    Reports surface warned mentions result reports ∧
      List.Forall₂ surface.Tells reports (issues.filter Issue.isForgotten)

theorem Accounts.nil {declarations : List Declaration} :
    Accounts surface declarations warned [] warned [] :=
  ⟨by simp [StandAt], [], .nil warned, .nil⟩

theorem Accounts.append {declarations : List Declaration} {between : List EntityId}
    {mentions later : List (Declaration × EntityId)} {first second : List Issue}
    (hfirst : Accounts surface declarations warned mentions between first)
    (hsecond : Accounts surface declarations between later result second) :
    Accounts surface declarations warned (mentions ++ later) result (first ++ second) := by
  obtain ⟨hstand, reports, hreports, htells⟩ := hfirst
  obtain ⟨hstand', others, hothers, htells'⟩ := hsecond
  refine ⟨hstand.append hstand', reports ++ others, hreports.append hothers, ?_⟩
  rw [List.filter_append]
  exact List.rel_append htells htells'

theorem Accounts.aside {declarations : List Declaration}
    {mentions : List (Declaration × EntityId)} {first second : List Issue}
    (hfirst : Aside declarations first)
    (hsecond : Accounts surface declarations warned mentions result second) :
    Accounts surface declarations warned mentions result (first ++ second) := by
  obtain ⟨hstand, reports, hreports, htells⟩ := hsecond
  refine ⟨hfirst.1.append hstand, reports, hreports, ?_⟩
  rwa [List.filter_append, hfirst.2, List.nil_append]

theorem Accounts.mono {declarations more : List Declaration}
    {mentions : List (Declaration × EntityId)} {issues : List Issue}
    (h : Accounts surface declarations warned mentions result issues)
    (hmore : declarations ⊆ more) :
    Accounts surface more warned mentions result issues :=
  ⟨h.1.mono hmore, h.2⟩

theorem Accounts.passed_over {declaration : Declaration} {id : EntityId} {issues : List Issue}
    (h : surface.forgets id = false ∨ id ∈ warned) (haside : Aside [declaration] issues) :
    Accounts surface [declaration] warned [(declaration, id)] warned issues := by
  refine ⟨haside.1, [], ⟨by simp, by simp, ?_, by simp⟩, by rw [haside.2]; exact .nil⟩
  intro other
  simp only [List.map_nil, List.not_mem_nil, List.map_cons, List.mem_singleton, false_iff]
  rintro ⟨hforgets, hnew, rfl⟩
  rcases h with h | h
  · rw [h] at hforgets
    cases hforgets
  · exact hnew h

theorem Accounts.report {declaration : Declaration} {id : EntityId} {entryPoint : String}
    (hforgets : surface.forgets id = true) (hnew : id ∉ warned)
    (hentry : surface.graph.entryPointFileName = .ok entryPoint) :
    Accounts surface [declaration] warned [(declaration, id)] (id :: warned)
      [forgottenExport declaration (surface.givenName id) entryPoint] := by
  refine ⟨.single (Issue.at_issue _ _ _), [(declaration, id)],
    ⟨by simp, by simp [or_comm], ?_, by simp⟩, ?_⟩
  · intro other
    simp only [List.map_cons, List.map_nil, List.mem_singleton]
    constructor
    · rintro rfl
      exact ⟨hforgets, hnew, rfl⟩
    · exact fun h => h.2.2
  · exact .cons ⟨entryPoint, hentry, rfl⟩ .nil

private theorem checkReference_adds (declaration : Declaration) (tag : ReleaseTag)
    (warned : List EntityId) (id : EntityId) :
    Adds (checkReference surface declaration tag warned id) fun result issues =>
      Accounts surface [declaration] warned [(declaration, id)] result issues := by
  unfold checkReference
  split
  · exact .pure (.passed_over (.inl rfl) .nil)
  · rename_i key
    split
    · rename_i hnone
      exact .pure (.passed_over (.inl (by simp [forgets, symbolOf?, hnone])) .nil)
    · rename_i symbol hsymbol
      dsimp only
      split
      · rename_i hexternal
        exact .pure (.passed_over
          (.inl (by simp [forgets, symbolOf?, hsymbol, hexternal])) .nil)
      · rename_i hlocal
        split
        · rename_i hexported
          have hkept : surface.forgets (.symbol key) = false := by
            simp only [forgets, symbolOf?, hsymbol, hexported]
            simp
          refine .bind_lift fun referenced _ => ?_
          split
          · refine .bind (.record _) fun _ earlier hearlier => .pure ?_
            rw [hearlier]
            exact .passed_over (.inl hkept) (.single (Issue.at_issue _ _ _) rfl (by decide))
          · exact .pure (.passed_over (.inl hkept) .nil)
        · rename_i hhidden
          split
          · rename_i hwarned
            exact .pure (.passed_over (.inr (by simpa using hwarned)) .nil)
          · rename_i hnew
            have hforgets : surface.forgets (.symbol key) = true := by
              simp only [forgets, symbolOf?, hsymbol, Option.any_some, Bool.and_eq_true,
                Bool.not_eq_true']
              exact ⟨Bool.eq_false_iff.mpr hlocal, Bool.eq_false_iff.mpr hhidden⟩
            have hname : surface.givenName (.symbol key) =
                (((surface.entity? (.symbol key)).map Entity.name).getD .null).orElse
                  symbol.name := by
              simp only [givenName, symbolOf?, hsymbol]
              rfl
            refine .bind_lift fun entryPoint hentry => ?_
            refine .bind (.record _) fun _ earlier hearlier => .pure ?_
            rw [hearlier, ← hname]
            exact .report hforgets (by simpa using hnew) hentry

def mentions (surface : Surface) (declarations : List Declaration) :
    List (Declaration × EntityId) :=
  declarations.flatMap fun declaration =>
    (surface.references.of declaration.id).map fun id => (declaration, id)

private theorem checkReferences_adds (declaration : Declaration) (tag : ReleaseTag)
    (warned ids : List EntityId) :
    Adds (checkReferences surface declaration tag warned ids) fun result issues =>
      Accounts surface [declaration] warned (ids.map fun id => (declaration, id)) result
        issues := by
  induction ids generalizing warned with
  | nil => exact .pure .nil
  | cons id rest ih =>
      refine .bind (checkReference_adds declaration tag warned id)
        fun between earlier hearlier => (ih between).mono fun result later hlater => ?_
      exact hearlier.append hlater

theorem checkDeclarations_adds (warned : List EntityId) (declarations : List Declaration) :
    Adds (checkDeclarations surface warned declarations) fun result issues =>
      Accounts surface declarations warned (surface.mentions declarations) result issues := by
  induction declarations generalizing warned with
  | nil => exact .pure .nil
  | cons declaration rest ih =>
      unfold checkDeclarations
      refine .bind_lift fun item _ => ?_
      refine .bind (checkReferences_adds declaration _ warned _)
        fun between earlier hearlier => (ih between).mono fun result later hlater => ?_
      exact (hearlier.mono (by simp)).append (hlater.mono (by simp))

/-- The declarations of an entity that are checked, at every depth: those of exported
symbols that are not from outside of the package. -/
def checked (surface : Surface) (entity : Entity) : List Declaration :=
  if entity.exported &&
      (surface.symbolOf? entity.subject.id).all fun symbol => !symbol.external then
    Declaration.walkAll (surface.declarationsOfEntity entity)
  else []

private theorem checkEntity_adds (warned : List EntityId) (entity : Entity) :
    Adds (checkEntity surface warned entity) fun result issues =>
      Accounts surface surface.inventory.allDeclarations warned
        (surface.mentions (surface.checked entity)) result issues := by
  unfold checkEntity
  split
  · rename_i hsubject
    have hnone : surface.checked entity = [] := by
      simp [checked, declarationsOfEntity, hsubject, Declaration.walkAll]
    rw [hnone]
    exact .pure .nil
  · rename_i label name hsubject
    dsimp only
    split
    · rename_i hskipped
      have hnone : surface.checked entity = [] := by
        rw [checked, if_neg]
        rw [hsubject]
        simp only [Subject.id, symbolOf?]
        cases hsymbol : surface.inventory.symbol? label.key with
        | none => simpa [hsymbol] using hskipped
        | some symbol =>
            simp only [hsymbol, Option.map_some, Option.getD_some, Bool.or_eq_true,
              Bool.not_eq_true'] at hskipped
            rcases hskipped with h | h <;> simp [h]
      rw [hnone]
      exact .pure .nil
    · rename_i hchecked
      have hwhole : surface.checked entity =
          Declaration.walkAll (surface.declarationsOf label.key) := by
        rw [checked, if_pos, declarationsOfEntity, hsubject]
        rw [hsubject]
        simp only [Subject.id, symbolOf?]
        cases hsymbol : surface.inventory.symbol? label.key with
        | none => simpa [hsymbol] using hchecked
        | some symbol => simpa [hsymbol] using hchecked
      have hown : surface.declarationsOf label.key ⊆ surface.inventory.allDeclarations :=
        fun declaration hdeclaration => (Inventory.mem_declarationsOf.mp hdeclaration).1
      rw [hwhole]
      refine .bind (checkReleaseTag_adds name _) fun _ tags htags => ?_
      refine .bind (checkUnderscore_adds entity label.key _) fun _ names hnames => ?_
      refine .bind (checkConsistency_adds _) fun _ others hothers => ?_
      refine (checkDeclarations_adds warned _).mono fun result issues hissues => ?_
      have hinner : Declaration.walkAll (surface.declarationsOf label.key) ⊆
          surface.inventory.allDeclarations :=
        fun _ => Declaration.mem_walkAll_of_subset _ hown
      exact .aside (htags.mono hown) (.aside (hnames.mono hown)
        (.aside (hothers.mono hown) (hissues.mono hinner)))

theorem checkEntities_adds (warned : List EntityId) (entities : List Entity) :
    Adds (checkEntities surface warned entities) fun _ issues => ∃ result,
      Accounts surface surface.inventory.allDeclarations warned
        (surface.mentions (entities.flatMap surface.checked)) result issues := by
  induction entities generalizing warned with
  | nil => exact .pure ⟨warned, .nil⟩
  | cons entity rest ih =>
      refine .bind (checkEntity_adds warned entity)
        fun between earlier hearlier => (ih between).mono fun _ later hlater => ?_
      obtain ⟨result, hlater⟩ := hlater
      refine ⟨result, ?_⟩
      rw [mentions, List.flatMap_cons, List.flatMap_append]
      exact hearlier.append hlater

/-! ## The messages of an analysis -/

theorem Steps.remarked_eq {graph : ModuleGraph} {router itemized remarked : Router}
    {entities : List Entity} (h : Steps graph router surface entities itemized remarked) :
    ∃ items remarks, remarked.messages = router.messages ++ (items ++ remarks) ∧
      Aside surface.inventory.allDeclarations (items.map Message.issue) ∧
      remarks.map Message.issue = graph.remarks.map surface.inventory.remarkIssue := by
  obtain ⟨-, items, hitems, haside⟩ := apiItems_adds _ _ _ _ _ _ _ h.itemsRun
  obtain ⟨-, remarks, hremarks, hissues⟩ := recordAll_adds _ _ _ _ h.remarksRun
  refine ⟨items, remarks, ?_, haside, hissues⟩
  rw [hremarks, hitems, List.append_assoc]

end Surface

end ApiSurface
