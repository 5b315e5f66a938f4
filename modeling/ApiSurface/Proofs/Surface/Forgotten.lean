import ApiSurface.Proofs.Surface.Recording
import ApiSurface.Proofs.Trim.References

/-!
# Symbols that are not exported

An exported symbol may refer to symbols of the package that are not exported.  Each of
them is reported once, at the first declaration that refers to it, in the order in
which the exported symbols were discovered and in which their declarations are nested.
-/

namespace ApiSurface

theorem find?_key_perm {α κ : Type} [DecidableEq κ] {key : α → κ} {values others : List α}
    (hperm : values.Perm others) (hdistinct : (values.map key).Nodup) (wanted : κ) :
    values.find? (fun value => key value = wanted) =
      others.find? fun value => key value = wanted := by
  cases hfound : values.find? (fun value => key value = wanted) with
  | none =>
      symm
      rw [List.find?_eq_none] at hfound ⊢
      exact fun value hvalue => hfound value (hperm.mem_iff.mpr hvalue)
  | some value =>
      obtain rfl : key value = wanted := by simpa using List.find?_some hfound
      have hvalue := hperm.mem_iff.mp (List.mem_of_find?_eq_some hfound)
      exact (find?_key ((hperm.map key).nodup_iff.mp hdistinct) hvalue).symm

namespace Surface

variable {graph : ModuleGraph} {router : Router} {surface : Surface} {entities : List Entity}
  {itemized remarked : Router}

theorem Steps.entity?_draft (h : Steps graph router surface entities itemized remarked)
    (hdistinct : (surface.entities.map fun entity => entity.subject.id).Nodup)
    (id : EntityId) : (surface.draft entities).entity? id = surface.entity? id :=
  (find?_key_perm (sortByKey_perm h.sorted) hdistinct id).symm

private theorem forgets_symbol_iff
    (hdistinct : (surface.entities.map fun entity => entity.subject.id).Nodup)
    {symbol : Symbol} (hsymbol : surface.inventory.symbol? symbol.key = some symbol) :
    surface.forgets (.symbol symbol.key) = true ↔ symbol.external = false ∧
      ∀ entity ∈ surface.entities, entity.subject.id = .symbol symbol.key →
        entity.exported = false := by
  simp only [forgets, symbolOf?, hsymbol, Option.any_some, Bool.and_eq_true,
    Bool.not_eq_true']
  refine and_congr_right fun _ => ?_
  constructor
  · intro hhidden entity hentity hid
    have hfound : surface.entity? (.symbol symbol.key) = some entity := by
      rw [← hid]
      exact find?_key hdistinct hentity
    simpa [hfound] using hhidden
  · intro hhidden
    cases hfound : surface.entity? (.symbol symbol.key) with
    | none => rfl
    | some entity =>
        exact hhidden entity (List.mem_of_find?_eq_some hfound)
          (by simpa using List.find?_some hfound)

private theorem exists_symbol_of_forgets {id : EntityId} (h : surface.forgets id = true) :
    ∃ symbol ∈ surface.inventory.symbols, id = .symbol symbol.key := by
  cases id with
  | imported key => simp [forgets, symbolOf?] at h
  | symbol key =>
      cases hsymbol : surface.inventory.symbol? key with
      | none => simp [forgets, symbolOf?, hsymbol] at h
      | some symbol =>
          have hkey : symbol.key = key := by simpa using List.find?_some hsymbol
          exact ⟨symbol, List.mem_of_find?_eq_some hsymbol, by rw [hkey]⟩

private theorem mem_mentions_iff {declarations : List Declaration} {id : EntityId} :
    id ∈ (surface.mentions declarations).map Prod.snd ↔
      ∃ declaration ∈ declarations, id ∈ surface.references.of declaration.id := by
  simp [mentions]

theorem find?_mentions {declarations : List Declaration} {mention : Declaration × EntityId}
    (h : (surface.mentions declarations).find? (fun other => other.2 = mention.2) =
      some mention) :
    declarations.find? (fun declaration =>
      (surface.references.of declaration.id).contains mention.2) = some mention.1 := by
  induction declarations with
  | nil => simp [mentions] at h
  | cons declaration rest ih =>
      rw [mentions, List.flatMap_cons, List.find?_append] at h
      by_cases hrefers : mention.2 ∈ surface.references.of declaration.id
      · rw [List.find?_cons_of_pos (by simpa using hrefers)]
        cases hfound : ((surface.references.of declaration.id).map
            fun id => (declaration, id)).find? (fun other => other.2 = mention.2) with
        | none =>
            have hnone := List.find?_eq_none.mp hfound (declaration, mention.2)
              (List.mem_map_of_mem hrefers)
            simp at hnone
        | some found =>
            rw [hfound, Option.some_or, Option.some.injEq] at h
            obtain ⟨_, -, rfl⟩ := List.mem_map.mp (List.mem_of_find?_eq_some hfound)
            rw [← h]
      · rw [List.find?_cons_of_neg (by simpa using hrefers)]
        refine ih ?_
        rwa [List.find?_eq_none.mpr, Option.none_or] at h
        intro other hother hsame
        obtain ⟨id, hid, rfl⟩ := List.mem_map.mp hother
        obtain rfl : id = mention.2 := by simpa using hsame
        exact hrefers hid

/-- The checks report every symbol of the package itself that is not exported and that
a declaration of an exported symbol refers to, each of them once and no other one.  A
report stands at the first of the declarations. -/
theorem forgotten_reported_once (h : analyze graph router = .ok surface) :
    ∃ entities itemized remarked recorded reports,
      Steps graph router surface entities itemized remarked ∧
      surface.router.messages = remarked.messages ++ recorded ∧
      List.Forall₂ surface.Tells reports
        ((recorded.map Message.issue).filter Issue.isForgotten) ∧
      (reports.map Prod.snd).Nodup ∧
      (∀ report ∈ reports, ∃ symbol ∈ surface.inventory.symbols,
        report.2 = .symbol symbol.key) ∧
      ∀ symbol ∈ surface.inventory.symbols,
        (EntityId.symbol symbol.key ∈ reports.map Prod.snd ↔
          symbol.external = false ∧
          (∀ entity ∈ surface.entities, entity.subject.id = .symbol symbol.key →
            entity.exported = false) ∧
          ∃ declaration ∈ entities.flatMap surface.checked,
            .symbol symbol.key ∈ surface.references.of declaration.id) ∧
        ∀ declaration, (declaration, EntityId.symbol symbol.key) ∈ reports →
          (entities.flatMap surface.checked).find? (fun other =>
            (surface.references.of other.id).contains (.symbol symbol.key)) =
              some declaration := by
  obtain ⟨entities, itemized, remarked, hsteps⟩ := analyze_steps h
  have hdistinct := entities_nodup h
  obtain ⟨-, recorded, hmessages, result, -, reports, hreports, htells⟩ :=
    checkEntities_adds _ _ _ _ _ hsteps.checksRun
  have hentity := hsteps.entity?_draft hdistinct
  have hforgets : ∀ id, (surface.draft entities).forgets id = surface.forgets id := by
    intro id
    simp only [forgets, hentity]
    rfl
  have hreported : ∀ id, id ∈ reports.map Prod.snd ↔ surface.forgets id = true ∧
      ∃ declaration ∈ entities.flatMap surface.checked,
        id ∈ surface.references.of declaration.id := by
    intro id
    rw [hreports.reported, hforgets, mem_mentions_iff]
    simp only [List.not_mem_nil, not_false_eq_true, true_and]
    rfl
  refine ⟨entities, itemized, remarked, recorded, reports, hsteps, hmessages, ?_,
    hreports.distinct, ?_, ?_⟩
  · refine htells.imp fun report issue htell => ?_
    simp only [Tells, givenName, hentity] at htell
    exact htell
  · intro report hreport
    exact exists_symbol_of_forgets ((hreported _).mp (List.mem_map_of_mem hreport)).1
  · intro symbol hsymbol
    have hfound := Inventory.symbol?_of_mem hsteps.declared hsymbol
    refine ⟨?_, fun declaration hreport => find?_mentions (hreports.first _ hreport)⟩
    rw [hreported, forgets_symbol_iff hdistinct hfound, and_assoc]

private theorem map_declaration_of_tells {reports : List (Declaration × EntityId)}
    {issues : List Issue} (h : List.Forall₂ surface.Tells reports issues) :
    (reports.map fun report => Datum.int report.1.id) = issues.map Issue.declaration := by
  induction h with
  | nil => rfl
  | cons htells _ ih =>
      obtain ⟨entryPoint, -, rfl⟩ := htells
      rw [List.map_cons, List.map_cons, ih]
      rfl

/-- Two exported interfaces that refer to two others, which refer to each other. -/
def mentioningFile : SourceFile where
  path := .text "index.d.ts"
  text := "A{x:B;y:C,B}E{z:C}B{c:C}C{b:B}".toList
  root := .mk .sourceFile 0 30 0 .null
    [.mk .interfaceDeclaration 0 12 1 .null
      [.mk .identifier 0 1 2 .null [],
      .mk .propertySignature 2 6 3 .null
        [.mk .identifier 2 3 4 .null [], .mk .identifier 4 5 5 .null []],
      .mk .propertySignature 6 11 6 .null
        [.mk .identifier 6 7 7 .null [], .mk .identifier 8 9 8 .null [],
        .mk .identifier 10 11 9 .null []]],
    .mk .interfaceDeclaration 12 18 10 .null
      [.mk .identifier 12 13 11 .null [],
      .mk .propertySignature 14 17 12 .null
        [.mk .identifier 14 15 13 .null [], .mk .identifier 16 17 14 .null []]],
    .mk .interfaceDeclaration 18 24 15 .null
      [.mk .identifier 18 19 16 .null [],
      .mk .propertySignature 20 23 17 .null
        [.mk .identifier 20 21 18 .null [], .mk .identifier 22 23 19 .null []]],
    .mk .interfaceDeclaration 24 30 20 .null
      [.mk .identifier 24 25 21 .null [],
      .mk .propertySignature 26 29 22 .null
        [.mk .identifier 26 27 23 .null [], .mk .identifier 28 29 24 .null []]]]

def mentioningPackage : ModuleGraph where
  packageName := .text "mentioning"
  files := [mentioningFile]
  symbols := ["A", "E", "B", "C"].zipWith (fun name node =>
    { key := .text name
      localName := .text name
      declarations := [⟨mentioningFile, [mentioningFile.root], node⟩] })
    mentioningFile.root.children
  exports := [(.text "E", .text "E"), (.text "A", .text "A")]
  bindings := [(5, .text "B"), (8, .text "C"), (9, .text "B"), (14, .text "C"),
    (19, .text "C"), (24, .text "B")]

theorem forgotten_reported_once_mentioning :
    ∃ surface remarked recorded reports, analyze mentioningPackage {} = .ok surface ∧
      surface.router.messages = remarked ++ recorded ∧
      List.Forall₂ surface.Tells reports
        ((recorded.map Message.issue).filter Issue.isForgotten) ∧
      (reports.map Prod.snd).Nodup ∧
      (reports.map fun report => Datum.int report.1.id) = [.int 5, .int 2] := by
  have hrun : (do
      let surface ← analyze mentioningPackage {}
      pure ((surface.router.messages.map Message.issue).filter Issue.isForgotten |>.map
        Issue.declaration)) = .ok [.int 5, .int 2] := by
    cbv
  simp only [bind_eq_ok, pure_eq_ok] at hrun
  obtain ⟨surface, hanalyze, hissues⟩ := hrun
  obtain ⟨entities, itemized, remarked, recorded, reports, hsteps, hmessages, htells,
    hdistinct, -, -⟩ := forgotten_reported_once hanalyze
  refine ⟨surface, remarked.messages, recorded, reports, hanalyze, hmessages, htells,
    hdistinct, ?_⟩
  obtain ⟨items, remarks, hearlier, hitems, hremarks⟩ := hsteps.remarked_eq
  obtain rfl : remarks = [] := by simpa [mentioningPackage] using hremarks
  rw [hmessages, hearlier, List.append_nil, List.nil_append, List.map_append,
    List.filter_append, hitems.2, List.nil_append] at hissues
  rw [← hissues]
  exact map_declaration_of_tells htells

end Surface

end ApiSurface
