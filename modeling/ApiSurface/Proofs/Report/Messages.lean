import ApiSurface.Proofs.Report.Members
import ApiSurface.Proofs.Rollup.Document
import ApiSurface.Proofs.Surface.Analysis

/-!
# What becomes of the messages

A message is left to the console or written into the report.  A message of a
declaration is written if the report introduces the declaration, or the getter that a
setter belongs to; other messages that belong into the report are shown nowhere.
-/

namespace ApiSurface

/-! ## Printing -/

namespace Printing

variable {α β : Type}

/-- What comes of printing, and what has been written onto paths by then. -/
def outcome (action : Printing α) (before : Trails) : Except Fault α × Trails :=
  action.run.run before

variable {before after : Trails}

theorem outcome_bind_eq_ok {first : Printing α} {next : α → Printing β} {result : β} :
    outcome (first >>= next) before = (.ok result, after) ↔
      ∃ produced between, first.outcome before = (.ok produced, between) ∧
        (next produced).outcome between = (.ok result, after) :=
  ends_bind

theorem outcome_pure_eq_ok {value result : α} :
    outcome (pure value) before = (.ok result, after) ↔ value = result ∧ before = after :=
  ends_pure

theorem outcome_liftM_eq_ok {value : Except Fault α} {result : α} :
    outcome (liftM value) before = (.ok result, after) ↔
      value = .ok result ∧ before = after :=
  ends_liftM

end Printing

/-! ## Messages of accessors -/

namespace Surface

/-- The declaration at which the messages of a declaration are shown. -/
def carrier (surface : Surface) (id : Nat) : Nat :=
  ((surface.signatures.primary? id).map Mention.id).getD id

theorem reviewMessages_eq {surface : Surface} {id : Nat} {signature : Signature}
    (hlookup : surface.signatures.lookup id = some signature)
    (hancillary : signature.isAncillary = false) :
    surface.reviewMessages (.int id) = .ok (surface.router.forReview
      (.whole id :: signature.ancillaries.map fun other => .whole other.id)) := by
  have hkey : Datum.key (.int id) = .ok (.whole id) := rfl
  simp only [reviewMessages, signature_int, hlookup, hkey, bind, Except.bind, hancillary]
  rfl

theorem mem_forReview {router : Router} {keys : List Key} {key : Key} {message : Message}
    (hkey : key ∈ keys) (hmessage : message ∈ router.messages)
    (hconcerns : message.concerns key = true) (hreported : message.addToReport = true) :
    message ∈ router.forReview keys := by
  refine List.mem_flatMap.mpr ⟨key, hkey, List.mem_filter.mpr ⟨hmessage, ?_⟩⟩
  rw [hconcerns, hreported]
  rfl

private theorem mem_reviewMessages_carrier {graph : ModuleGraph} {router : Router}
    {surface : Surface} (h : analyze graph router = .ok surface) {declaration : Declaration}
    (hdeclaration : declaration ∈ surface.inventory.allDeclarations) {message : Message}
    (hmessage : message ∈ surface.router.messages)
    (hconcerns : message.concerns (.whole declaration.id) = true)
    (hreported : message.addToReport = true) :
    ∃ messages, surface.reviewMessages (.int (surface.carrier declaration.id)) =
      .ok messages ∧ message ∈ messages := by
  obtain ⟨_, _, _, hsteps⟩ := analyze_steps h
  have hdistinct := Inventory.ids_nodup hsteps.declared
  have hcoherent := Inventory.groupAccessors_coherent hsteps.grouped
  cases hprimary : surface.signatures.primary? declaration.id with
  | none =>
      obtain ⟨signature, hlookup, _⟩ := (apiItems_covers hsteps.itemsRun).2 declaration
        hdeclaration
      have hnone : signature.isAncillary = false := by
        rw [hcoherent.isAncillary_eq hlookup, hprimary, Option.isSome_none]
      refine ⟨_, by rw [carrier, hprimary]; exact reviewMessages_eq hlookup hnone, ?_⟩
      exact mem_forReview (List.mem_cons_self ..) hmessage hconcerns hreported
  | some primary =>
      obtain ⟨signature, hlookup, other, hother, hid⟩ :=
        Inventory.groupAccessors_listed hsteps.grouped declaration.id primary hprimary
      have hnone : signature.isAncillary = false := by
        rw [hcoherent.isAncillary_eq hlookup,
          Inventory.primary?_primary hsteps.grouped hdistinct hprimary, Option.isSome_none]
      refine ⟨_, by rw [carrier, hprimary]; exact reviewMessages_eq hlookup hnone, ?_⟩
      refine mem_forReview (List.mem_cons_of_mem _ ?_) hmessage hconcerns hreported
      exact List.mem_map.mpr ⟨other, hother, by rw [hid]⟩

end Surface

/-! ## Messages in the report -/

namespace Report

open Emit

/-- The report shows the lines of a declaration: those of exported entities and the
members that are introduced inside them. -/
inductive Reported (surface : Surface) : Declaration → Prop
  | outer {entity : Entity} {declaration : Declaration}
      (listed : entity ∈ surface.entities) (exported : entity.exported = true)
      (declares : declaration ∈ surface.declarationsOfEntity entity) :
      Reported surface declaration
  | member {entity : Entity} {outer inner : Declaration} {root target : Span} {path : Path}
      (listed : entity ∈ surface.entities) (exported : entity.exported = true)
      (declares : outer ∈ surface.declarationsOfEntity entity)
      (whole : surface.isStub outer = false)
      (laid : Span.ofNode outer.site.file.text outer.node = .ok root)
      (introduces : Introduces surface outer root path inner target) :
      Reported surface inner

/-- The lines of a message stand in a document: above a declaration, before the
statement of the export that it names, or in the list at the end. -/
inductive Written (kind : LineEnd) (document : Text) (message : Message) : Prop
  | above {indent : Text} (blank : IsIndent indent)
      (stands : cleaned kind (messageLines indent message) <:+: document) :
      Written kind document message
  | exported {entity : Entity} {exportName : Label} {others : List Message}
      (named : message.exportName.key? = some exportName.key)
      (stands : cleaned kind (warningLines (message :: others) ++
        exportStatement entity exportName.datum) <:+: document) :
      Written kind document message
  | listed {place : String}
      (stands : cleaned kind (commentLines (place ++ message.withoutLocation).toList) <:+:
        document) :
      Written kind document message

inductive Drafted (raw : Text) (message : Message) : Prop
  | above {indent : Text} (blank : IsIndent indent)
      (stands : messageLines indent message <:+: raw) : Drafted raw message
  | exported {entity : Entity} {exportName : Label} {others : List Message}
      (named : message.exportName.key? = some exportName.key)
      (stands : warningLines (message :: others) ++
        exportStatement entity exportName.datum <:+: raw) : Drafted raw message
  | listed {place : String}
      (stands : commentLines (place ++ message.withoutLocation).toList <:+: raw) :
      Drafted raw message

variable {raw text : Text} {messages later : List Message} {before after : Trails}

theorem Drafted.mono {other : Text} {message : Message} (h : Drafted raw message)
    (hraw : raw <:+: other) : Drafted other message := by
  cases h with
  | above blank stands => exact .above blank (stands.trans hraw)
  | exported named stands => exact .exported named (stands.trans hraw)
  | listed stands => exact .listed (stands.trans hraw)

theorem Drafted.written {message : Message} (kind : LineEnd) (h : Drafted raw message) :
    Written kind (cleaned kind raw) message := by
  cases h with
  | above blank stands => exact .above blank (cleaned_messageLines_within kind blank stands)
  | @exported entity exportName others named stands =>
      obtain ⟨statement, hstatement⟩ : ∃ statement,
          exportStatement entity exportName.datum = Text.line statement := ⟨_, rfl⟩
      apply Written.exported named
      rw [hstatement, Text.line, ← List.append_assoc] at stands ⊢
      exact (keepsLines_cleaned kind).keeps_line stands
  | @listed place stands =>
      obtain ⟨row, hrow⟩ := exists_line_commentLines (place ++ message.withoutLocation).toList
      apply Written.listed
      rw [hrow] at stands ⊢
      exact (keepsLines_cleaned kind).keeps_line stands

/-! ## The parts of the report -/

variable {surface : Surface} {entity : Entity} {declaration : Declaration}
  {exports : List Label} {message : Message}

private theorem exists_of_namesExport (h : namesExport exports message = .ok true) :
    ∃ exportName ∈ exports, message.exportName.key? = some exportName.key := by
  unfold namesExport at h
  split at h
  · simp only [bind_eq_ok, pure_eq_ok, Datum.key] at h
    obtain ⟨key, hkey, hamong⟩ := h
    split at hkey
    · rename_i found hfound
      obtain rfl := Except.ok.inj hkey
      obtain ⟨exportName, hexport, hsame⟩ := List.any_eq_true.mp hamong
      refine ⟨exportName, hexport, ?_⟩
      rw [hfound, of_decide_eq_true hsame]
    · cases hkey
  · cases h

private theorem mem_divideMessages {here : List Message}
    (h : divideMessages exports messages = .ok (here, later)) (hmessage : message ∈ messages) :
    message ∈ here ∨ message ∈ later ∧
      ∃ exportName ∈ exports, message.exportName.key? = some exportName.key := by
  induction messages generalizing here later with
  | nil => cases hmessage
  | cons first rest ih =>
      simp only [divideMessages, bind_eq_ok, pure_eq_ok] at h
      obtain ⟨named, hnamed, ⟨front, back⟩, hrest, hsplit⟩ := h
      cases named with
      | false =>
          obtain ⟨rfl, rfl⟩ := Prod.mk.inj hsplit
          rcases List.mem_cons.mp hmessage with rfl | hmem
          · exact .inl (List.mem_cons_self ..)
          · exact (ih hrest hmem).imp (List.mem_cons_of_mem _) id
      | true =>
          obtain ⟨rfl, rfl⟩ := Prod.mk.inj hsplit
          rcases List.mem_cons.mp hmessage with rfl | hmem
          · exact .inr ⟨List.mem_cons_self .., exists_of_namesExport hnamed⟩
          · exact (ih hrest hmem).imp id (And.imp (List.mem_cons_of_mem _) id)

private theorem declarationText_outer
    (h : declarationText surface entity exports declaration = .ok (text, later))
    (hmessages : surface.reviewMessages (.int declaration.id) = .ok messages)
    (hmessage : message ∈ messages) :
    Drafted text message ∨ message ∈ later ∧
      ∃ exportName ∈ exports, message.exportName.key? = some exportName.key := by
  simp only [declarationText, bind_eq_ok, pure_eq_ok] at h
  obtain ⟨found, hfound, ⟨here, others⟩, hdivided, above, habove, _, _, ⟨root, changes⟩, _,
    hpair⟩ := h
  obtain rfl := Except.ok.inj (hfound.symm.trans hmessages)
  obtain ⟨rfl, rfl⟩ := Prod.mk.inj hpair
  refine (mem_divideMessages hdivided hmessage).imp (fun hhere => ?_) id
  simp only [synopsis, bind_eq_ok, pure_eq_ok] at habove
  obtain ⟨parts, _, rfl⟩ := habove
  have hlines := messageLines_within [] hhere (if parts.isEmpty then [] else
    (if here.isEmpty then [] else commentLines []) ++
      commentLines (" ".intercalate parts).toList)
  refine .above (fun _ hmem => absurd hmem List.not_mem_nil) (hlines.trans ?_)
  rw [show ∀ text, indentLines [] text = text from fun text => by simp [indentLines],
    List.append_assoc]
  exact (List.prefix_append _ _).isInfix

private theorem declarationText_member (hsound : surface.Sound)
    (hdeclaration : declaration ∈ surface.inventory.allDeclarations)
    {inner : Declaration} {root target : Span} {path : Path}
    (h : declarationText surface entity exports declaration = .ok (text, later))
    (whole : surface.isStub declaration = false)
    (laid : Span.ofNode declaration.site.file.text declaration.node = .ok root)
    (introduces : Introduces surface declaration root path inner target)
    (hmessages : surface.reviewMessages (.int inner.id) = .ok messages)
    (hmessage : message ∈ messages) : Drafted text message := by
  simp only [declarationText, bind_eq_ok, pure_eq_ok,
    hsound.declaration_eq hdeclaration] at h
  obtain ⟨_, _, ⟨here, others⟩, _, above, _, _, hsame, ⟨found, changes⟩, hchanges,
    hpair⟩ := h
  cases hsame
  obtain ⟨rfl, rfl⟩ := Prod.mk.inj hpair
  simp only [declarationChanges, bind_eq_ok] at hchanges
  obtain ⟨span, hspan, item, hitem, hrest⟩ := hchanges
  obtain rfl := Except.ok.inj (hspan.symm.trans laid)
  rw [Surface.isStub_eq hitem] at whole
  simp only [whole, Bool.false_eq_true, if_false, bind_eq_ok, pure_eq_ok,
    Prod.mk.injEq] at hrest
  obtain ⟨_, hrevise, rfl, rfl⟩ := hrest
  obtain ⟨indent, hindent, hdrawn⟩ :=
    messageLines_within_render introduces hrevise hmessages hmessage
  refine .above hindent (hdrawn.trans ?_)
  exact (List.suffix_append _ _).isInfix.trans (List.prefix_append _ _).isInfix

private theorem declarationTexts_mem {declarations : List Declaration}
    (h : declarationTexts surface entity exports declarations = .ok (text, later))
    (hdeclaration : declaration ∈ declarations) :
    ∃ own left, declarationText surface entity exports declaration = .ok (own, left) ∧
      own <:+: text ∧ left ⊆ later := by
  induction declarations generalizing text later with
  | nil => cases hdeclaration
  | cons first rest ih =>
      simp only [declarationTexts, bind_eq_ok, pure_eq_ok] at h
      obtain ⟨⟨own, left⟩, hfirst, ⟨others, more⟩, hrest, hpair⟩ := h
      obtain ⟨rfl, rfl⟩ := Prod.mk.inj hpair
      rcases List.mem_cons.mp hdeclaration with rfl | hmem
      · exact ⟨own, left, hfirst, (List.prefix_append _ _).isInfix,
          List.subset_append_left _ _⟩
      · obtain ⟨own', left', hown, hinside, hleft⟩ := ih hrest hmem
        exact ⟨own', left', hown, hinside.trans (List.suffix_append _ _).isInfix,
          List.subset_append_of_subset_right _ hleft⟩

private theorem exportText_drafted {exportName : Label} (hmessage : message ∈ messages)
    (hnamed : message.exportName.key? = some exportName.key) :
    Drafted (exportText entity messages exportName) message := by
  have hmem : message ∈ messages.filter fun message =>
      message.exportName.key? = some exportName.key :=
    List.mem_filter.mpr ⟨hmessage, by simpa using hnamed⟩
  obtain ⟨front, others, hsplit⟩ := List.mem_iff_append.mp hmem
  have hstands : warningLines (message :: others) ++ exportStatement entity exportName.datum <:+:
      exportText entity messages exportName := by
    rw [exportText, hsplit]
    exact ⟨warningLines front, Text.line [], by simp [warningLines]⟩
  exact .exported hnamed hstands

private theorem entityText_drafted (hsound : surface.Sound) {inner : Declaration}
    (h : entityText surface entity = .ok text)
    (hdeclaration : declaration ∈ surface.declarationsOfEntity entity)
    (hinner : inner = declaration ∨ surface.isStub declaration = false ∧
      ∃ root path target, Span.ofNode declaration.site.file.text declaration.node = .ok root ∧
        Introduces surface declaration root path inner target)
    (hmessages : surface.reviewMessages (.int inner.id) = .ok messages)
    (hmessage : message ∈ messages) : Drafted text message := by
  simp only [entityText, bind_eq_ok, pure_eq_ok] at h
  obtain ⟨⟨texts, later⟩, htexts, rfl⟩ := h
  obtain ⟨own, left, hown, hinside, hleft⟩ := declarationTexts_mem htexts hdeclaration
  have htext : own <:+: texts ++ (separateExports entity).flatMap (exportText entity later) :=
    hinside.trans (List.prefix_append _ _).isInfix
  rcases hinner with rfl | ⟨whole, root, path, target, laid, introduces⟩
  · rcases declarationText_outer hown hmessages hmessage with
      hdrafted | ⟨hleftOver, exportName, hexport, hnamed⟩
    · exact hdrafted.mono htext
    · have hdrafted : Drafted (exportText entity later exportName) message :=
        exportText_drafted (hleft hleftOver) hnamed
      refine hdrafted.mono (List.IsInfix.trans ?_ (List.suffix_append _ _).isInfix)
      exact List.infix_of_mem_flatten (List.mem_map_of_mem hexport)
  · have hmember := declarationText_member hsound
      (Surface.mem_allDeclarations_of_entity hdeclaration) hown whole laid introduces
      hmessages hmessage
    exact hmember.mono htext

theorem entityTexts_mem {entities : List Entity} (h : entityTexts surface entities = .ok text)
    (hentity : entity ∈ entities) :
    ∃ own, entityText surface entity = .ok own ∧ own <:+: text := by
  induction entities generalizing text with
  | nil => cases hentity
  | cons first rest ih =>
      simp only [entityTexts, bind_eq_ok, pure_eq_ok] at h
      obtain ⟨own, hown, others, hothers, rfl⟩ := h
      rcases List.mem_cons.mp hentity with rfl | hmem
      · exact ⟨own, hown, (List.prefix_append _ _).isInfix⟩
      · obtain ⟨later, hlater, hinside⟩ := ih hothers hmem
        exact ⟨later, hlater, hinside.trans (List.suffix_append _ _).isInfix⟩

private theorem withLocation_eq {row : String}
    (h : message.withLocation.outcome before = (.ok row, after)) :
    ∃ place : String, row = place ++ message.withoutLocation := by
  have hplain : (pure message.withoutLocation : Printing String).outcome before =
      (.ok row, after) → ∃ place : String, row = place ++ message.withoutLocation := by
    intro h
    rw [Printing.outcome_pure_eq_ok] at h
    exact ⟨"", by simp [h.1]⟩
  unfold Message.withLocation at h
  split at h
  · exact hplain h
  · split at h
    · exact hplain h
    · simp only [Printing.outcome_bind_eq_ok, Printing.outcome_pure_eq_ok] at h
      obtain ⟨place, _, _, rfl, _⟩ := h
      exact ⟨place ++ " - ", rfl⟩

theorem placedLines_drafted (h : (placedLines messages).outcome before = (.ok text, after))
    (hmessage : message ∈ messages) : Drafted text message := by
  induction messages generalizing text before after with
  | nil => cases hmessage
  | cons first rest ih =>
      simp only [placedLines, Printing.outcome_bind_eq_ok, Printing.outcome_pure_eq_ok] at h
      obtain ⟨row, between, hrow, others, last, hothers, rfl, _⟩ := h
      rcases List.mem_cons.mp hmessage with rfl | hmem
      · obtain ⟨place, rfl⟩ := withLocation_eq hrow
        exact .listed (List.prefix_append _ _).isInfix
      · exact (ih hothers hmem).mono (List.suffix_append _ _).isInfix

private theorem unassociatedText_drafted
    (h : (unassociatedText messages).outcome before = (.ok text, after))
    (hmessage : message ∈ messages) : Drafted text message := by
  unfold unassociatedText at h
  split at h
  · rename_i hempty
    rw [List.isEmpty_iff.mp hempty] at hmessage
    cases hmessage
  · simp only [Printing.outcome_bind_eq_ok, Printing.outcome_pure_eq_ok] at h
    obtain ⟨rows, _, hrows, rfl, _⟩ := h
    exact (placedLines_drafted hrows hmessage).mono (List.suffix_append _ _).isInfix

private theorem rawText_parts (h : (rawText surface).outcome before = (.ok raw, after)) :
    (∃ text, entityTexts surface (surface.entities.filter Entity.exported) = .ok text ∧
      text <:+: raw) ∧
    ∃ text start stop, (unassociatedText surface.router.unassociated).outcome start =
      (.ok text, stop) ∧ text <:+: raw := by
  simp only [rawText, Printing.outcome_bind_eq_ok, Printing.outcome_pure_eq_ok,
    Printing.outcome_liftM_eq_ok] at h
  obtain ⟨imports, _, ⟨_, rfl⟩, entities, _, ⟨hentities, rfl⟩, unassociated, stop,
    hunassociated, _, _, _, rfl, _⟩ := h
  have hgrow : ∀ {part whole : Text} (rest : Text), part <:+: whole → part <:+: whole ++ rest :=
    fun rest h => h.trans (List.prefix_append _ _).isInfix
  refine ⟨⟨entities, hentities, ?_⟩, unassociated, _, _, hunassociated, ?_⟩
  · exact hgrow _ (hgrow _ (hgrow _ (hgrow _ (List.suffix_append _ _).isInfix)))
  · exact hgrow _ (hgrow _ (List.suffix_append _ _).isInfix)

end Report

open Report

/-- Messages that do not belong into the report are left to the console.  The others are
written if they belong to no declaration, or to one that the report shows. -/
theorem report_accounts_for_messages {graph : ModuleGraph} {router : Router}
    {surface : Surface} {newline : Newline} {document : Text} {before after : Trails}
    (hanalyze : Surface.analyze graph router = .ok surface)
    (hreport : (surface.report newline).outcome before = (.ok document, after)) :
    ∃ kind, newline.ending? = some kind ∧
      ∀ message ∈ surface.router.messages, message.level ≠ .silent →
        (message ∈ surface.router.forConsole true ↔ message.addToReport = false) ∧
        (message.addToReport = true → message.declaration.isNull = true →
          Written kind document message) ∧
        (message.addToReport = true →
          ∀ declaration ∈ surface.inventory.allDeclarations,
            message.concerns (.whole declaration.id) = true →
            ∀ shown, shown.id = surface.carrier declaration.id → Reported surface shown →
              Written kind document message) := by
  simp only [Surface.report, Printing.outcome_bind_eq_ok, Printing.outcome_liftM_eq_ok] at hreport
  obtain ⟨raw, _, hraw, hwritten, _⟩ := hreport
  obtain ⟨kind, hkind, hdocument⟩ := writeNewlines_eq_ok hwritten
  obtain rfl : document = cleaned kind raw := hdocument
  obtain ⟨⟨entities, hentities, hinside⟩, list, start, stop, hlist, hlisted⟩ :=
    rawText_parts hraw
  refine ⟨kind, hkind, fun message hmessage hlevel => ⟨?_, ?_, ?_⟩⟩
  · simp [Router.forConsole, hmessage, hlevel]
  · intro hreported hnone
    have hmem : message ∈ surface.router.unassociated :=
      List.mem_filter.mpr ⟨hmessage, by rw [hnone, hreported]; rfl⟩
    exact ((unassociatedText_drafted hlist hmem).mono hlisted).written kind
  · intro hreported declaration hdeclaration hconcerns shown hshown hcarried
    obtain ⟨messages, hmessages, hmem⟩ :=
      Surface.mem_reviewMessages_carrier hanalyze hdeclaration hmessage hconcerns hreported
    rw [← hshown] at hmessages
    have hdrafted : ∀ entity ∈ surface.entities, entity.exported = true →
        ∀ outer ∈ surface.declarationsOfEntity entity, (shown = outer ∨
          surface.isStub outer = false ∧ ∃ root path target,
            Span.ofNode outer.site.file.text outer.node = .ok root ∧
              Introduces surface outer root path shown target) →
        Drafted raw message := by
      intro entity hentity hexported outer houter hinner
      obtain ⟨text, htext, hpart⟩ := entityTexts_mem hentities
        (List.mem_filter.mpr ⟨hentity, hexported⟩)
      have hentityDrafted := entityText_drafted (Surface.analyze_sound hanalyze) htext
        houter hinner hmessages hmem
      exact hentityDrafted.mono (hpart.trans hinside)
    cases hcarried with
    | outer listed exported declares =>
        exact (hdrafted _ listed exported _ declares (.inl rfl)).written kind
    | member listed exported declares whole laid introduces =>
        exact (hdrafted _ listed exported _ declares
          (.inr ⟨whole, _, _, _, laid, introduces⟩)).written kind

/-- A class with a private property of one type and a property of another type. -/
def guardedFile : SourceFile where
  path := .text "index.d.ts"
  text := "class A {private x B y C} interface B interface C".toList
  root := .mk .sourceFile 0 49 0 .null
    [.mk .classDeclaration 0 25 1 .null
      [.mk .classKeyword 0 5 2 .null [], .mk .identifier 6 7 3 .null [],
      .mk .syntaxList 9 24 4 .null
        [.mk .propertyDeclaration 9 20 5 .null
          [.mk .syntaxList 9 16 6 .null [.mk .privateKeyword 9 16 7 .null []],
          .mk .identifier 17 18 8 .null [], .mk .identifier 19 20 9 .null []],
        .mk .propertyDeclaration 21 24 10 .null
          [.mk .identifier 21 22 11 .null [], .mk .identifier 23 24 12 .null []]]],
    .mk .interfaceDeclaration 26 37 13 .null
      [.mk .interfaceKeyword 26 35 14 .null [], .mk .identifier 36 37 15 .null []],
    .mk .interfaceDeclaration 38 49 16 .null
      [.mk .interfaceKeyword 38 47 17 .null [], .mk .identifier 48 49 18 .null []]]

/-- Both types are forgotten exports, and there is a remark about nothing in particular. -/
def guardedPackage : ModuleGraph where
  packageName := .text "guarded"
  files := [guardedFile]
  symbols := (guardedFile.root.children.zip ["A", "B", "C"]).map fun entry =>
    { key := .text entry.2
      localName := .text entry.2
      declarations := [⟨guardedFile, [guardedFile.root], entry.1⟩] }
  bindings := [(9, .text "B"), (12, .text "C")]
  exports := [(.text "A", .text "A")]
  docFlags := [1, 5, 10, 13, 16].map fun id =>
    (id, { releaseTag := .public, documented := .bool true })
  remarks := [{ id := .text "note", text := .text "loose" }]

set_option maxRecDepth 2048 in
theorem guardedPackage_run : (do
    let surface ← Surface.analyze guardedPackage {}
    let document ← ((surface.report ⟨.text "lf", .lf⟩).outcome []).1
    let loose ← pick surface.router.messages 0
    let lost ← pick surface.router.messages 1
    let attached ← pick surface.router.messages 2
    let declaration ← pick surface.inventory.allDeclarations 2
    let entity ← pick surface.entities 0
    let outer ← pick (surface.declarationsOfEntity entity) 0
    let root ← Span.ofNode outer.site.file.text outer.node
    let members ← pick root.children 2
    let target ← pick members.children 1
    let member ← Surface.member outer target.node
    pure ([loose, lost, attached].map fun message : Message =>
        (message.level, message.addToReport, message.declaration),
      entity.exported, attached.concerns (.whole declaration.id), outer.isPrivate,
      member.isPrivate, surface.isStub outer, [root.kind, members.kind, target.kind],
      member.id, surface.carrier declaration.id,
      lost.withoutLocation.toList.contains 'B', document.contains 'B')) =
      .ok ([(.warning, true, .null), (.warning, true, .int 2), (.warning, true, .int 3)],
        true, true, false, false, false, [.classDeclaration, .syntaxList, .propertyDeclaration],
        3, 3, true, false) := by
  cbv

theorem report_accounts_for_messages_guarded :
    ∃ surface document after loose attached,
      Surface.analyze guardedPackage {} = .ok surface ∧
      (surface.report ⟨.text "lf", .lf⟩).outcome [] = (.ok document, after) ∧
      loose ∈ surface.router.messages ∧ loose.declaration = .null ∧
      Written .lf document loose ∧
      attached ∈ surface.router.messages ∧ attached.declaration = .int 3 ∧
      Written .lf document attached := by
  have hrun := guardedPackage_run
  simp only [bind_eq_ok, pure_eq_ok, pick_eq_ok, Prod.mk.injEq, List.map_cons, List.map_nil,
    List.cons.injEq, and_true] at hrun
  obtain ⟨surface, hanalyze, document, hdocument, loose, hloose, _, _, attached, hattached,
    declaration, hdeclaration, entity, hentity, outer, houter, root, hroot, members, hmembers,
    target, htarget, member, hmember,
    ⟨⟨hlooseLevel, hlooseReport, hnone⟩, _, hlevel, hreport, hsome⟩, hexported, hconcerns,
    houterVisible, hvisible, hwhole, ⟨hrootKind, hmembersKind, htargetKind⟩, hid, hcarrier,
    _, _⟩ := hrun
  have hprinted : (surface.report ⟨.text "lf", .lf⟩).outcome [] =
      (.ok document, ((surface.report ⟨.text "lf", .lf⟩).outcome []).2) := Prod.ext hdocument rfl
  obtain ⟨kind, hkind, haccount⟩ := report_accounts_for_messages hanalyze hprinted
  obtain rfl : LineEnd.lf = kind := Option.some.inj hkind
  have hloose := List.mem_of_getElem? hloose
  have hattached := List.mem_of_getElem? hattached
  have hopens : ∀ {span : Span} {kind : NodeKind}, span.kind = kind →
      kind = .classDeclaration ∨ kind = .syntaxList → Opens outer span := by
    rintro span kind rfl (h | h) <;> refine ⟨houterVisible, ?_⟩ <;> rw [h] <;> decide
  have hintroduces : Introduces surface outer root [2, 1] member target := by
    apply Introduces.through (hopens hrootKind (.inl rfl)) hmembers
    · rw [hmembersKind]
      rfl
    · apply Introduces.member (hopens hmembersKind (.inr rfl)) htarget _ hmember (.inl hvisible)
      rw [htargetKind]
      rfl
  have hreported : Reported surface member :=
    .member (List.mem_of_getElem? hentity) hexported (List.mem_of_getElem? houter) hwhole hroot
      hintroduces
  refine ⟨surface, document, _, loose, attached, hanalyze, hprinted, hloose, hnone, ?_,
    hattached, hsome, ?_⟩
  · have hlisted := (haccount loose hloose (by simp [hlooseLevel])).2.1
    exact hlisted hlooseReport (by rw [hnone]; rfl)
  · have habove := (haccount attached hattached (by simp [hlevel])).2.2
    exact habove hreport declaration (List.mem_of_getElem? hdeclaration) hconcerns member
      (hid.trans hcarrier.symm) hreported

/-- The message about the private property is neither on the console nor in the report. -/
theorem report_loses_message :
    ∃ surface document after message,
      Surface.analyze guardedPackage {} = .ok surface ∧
      (surface.report ⟨.text "lf", .lf⟩).outcome [] = (.ok document, after) ∧
      message ∈ surface.router.messages ∧ message.level ≠ .silent ∧
      message ∉ surface.router.forConsole true ∧
      ¬ message.withoutLocation.toList <:+: document := by
  have hrun := guardedPackage_run
  simp only [bind_eq_ok, pure_eq_ok, pick_eq_ok, Prod.mk.injEq, List.map_cons, List.map_nil,
    List.cons.injEq, and_true] at hrun
  obtain ⟨surface, hanalyze, document, hdocument, _, _, lost, hlost, _, _, _, _, _, _, _, _,
    _, _, _, _, _, _, _, _, ⟨_, ⟨hlevel, hreport, _⟩, _⟩, _, _, _, _, _, _, _, _, hmentions,
    hnowhere⟩ := hrun
  refine ⟨surface, document, _, lost, hanalyze, Prod.ext hdocument rfl,
    List.mem_of_getElem? hlost, by simp [hlevel], by simp [Router.forConsole, hreport], ?_⟩
  intro hinside
  have hmem : 'B' ∈ document := hinside.subset (by simpa using hmentions)
  simp [hmem] at hnowhere

end ApiSurface
