import ApiSurface.Proofs.Surface.Names
import ApiSurface.Proofs.Surface.Recording

/-!
# Surfaces of plain data

A front end gives names, keys, paths and comments as texts.  The surface of such a
package is fit for writing: wherever a document needs a text there is one, and
every message that the analysis records can be printed.
-/

namespace ApiSurface

def Datum.OptionalText (datum : Datum) : Prop := datum = .null ∨ ∃ text, datum = .text text

/-- What a front end hands over: texts wherever a text is meant. -/
structure ModuleGraph.Plain (graph : ModuleGraph) : Prop where
  packageName : ∃ text, graph.packageName = .text text
  names : graph.TextNames
  bindings : ∀ entry ∈ graph.bindings, ∃ text, entry.2 = .text text
  documentation : graph.documentation.OptionalText
  paths : ∀ entry ∈ graph.symbols, ∀ site ∈ entry.declarations,
    ∃ text, site.file.path = .text text
  remarkPaths : ∀ remark ∈ graph.remarks, ∀ site ∈ remark.site,
    ∃ text, site.file.path = .text text
  remarkExports : ∀ remark ∈ graph.remarks, remark.exportName.OptionalText

/-! ## Messages that can be printed -/

structure Message.Printable (message : Message) : Prop where
  exportName : message.exportName.OptionalText
  path : ∀ location ∈ message.location, location.path.OptionalText

structure Issue.Printable (issue : Issue) : Prop where
  exportName : issue.exportName.OptionalText
  path : ∀ location ∈ issue.location, location.path.OptionalText

def Declaration.Located (declaration : Declaration) : Prop :=
  ∃ text, declaration.site.file.path = .text text

theorem Issue.StandAt.printable {declarations : List Declaration} {issues : List Issue}
    (h : StandAt declarations issues)
    (hlocated : ∀ declaration ∈ declarations, declaration.Located) :
    ∀ issue ∈ issues, issue.Printable := by
  intro issue hissue
  obtain ⟨declaration, hdeclaration, hstands⟩ := h issue hissue
  refine ⟨hstands.exportName, fun location hlocation => ?_⟩
  obtain rfl : declaration.site.location = location := by
    simpa [hstands.place] using hlocation
  exact .inr (hlocated declaration hdeclaration)

theorem Declaration.Located.printable {declaration : Declaration} (h : declaration.Located)
    (id text : String) : (declaration.issue id text).Printable :=
  Issue.StandAt.printable (.single (Issue.at_issue declaration id text))
    (by simpa using h) _ (List.mem_singleton_self _)

theorem Router.judge_printable {router : Router} {issue : Issue} {message : Message}
    (h : router.judge issue = .ok message) (hissue : issue.Printable) : message.Printable := by
  obtain rfl := Router.judge_issue h
  exact ⟨hissue.exportName, hissue.path⟩

/-- Runs of an action change no rules and add only messages that can be printed. -/
def Records {α : Type} (action : Inspecting α) : Prop :=
  ∀ before result after, action.run before = .ok (result, after) →
    after.rules = before.rules ∧
      ∀ message ∈ after.messages, message ∈ before.messages ∨ message.Printable

theorem Adds.records {α : Type} {action : Inspecting α} {post : α → List Issue → Prop}
    (h : Adds action post)
    (hprintable : ∀ result issues, post result issues → ∀ issue ∈ issues, issue.Printable) :
    Records action := by
  intro before result after hrun
  obtain ⟨hrules, added, hmessages, hpost⟩ := h before result after hrun
  refine ⟨hrules, fun message hmessage => ?_⟩
  rw [hmessages, List.mem_append] at hmessage
  refine hmessage.imp_right fun hadded => ?_
  obtain ⟨hexport, hpath⟩ := hprintable _ _ hpost _ (List.mem_map_of_mem hadded)
  exact ⟨hexport, hpath⟩

/-! ## The surface -/

/-- Everything that a document is written from is a text where it has to be one. -/
structure Surface.Plain (surface : Surface) : Prop where
  sound : surface.Sound
  forest : surface.inventory.Forest surface.graph
  names : ∀ entity ∈ surface.entities, entity.hasTextName = true
  localNames : ∀ entity ∈ surface.entities, ∃ text, entity.localName = .ok (.text text)
  bindings : ∀ entry ∈ surface.graph.bindings, ∃ text, entry.2 = .text text
  documentation : surface.graph.documentation.OptionalText
  symbolNames : ∀ declaration ∈ surface.inventory.allDeclarations,
    ∃ text, declaration.symbol.name = .text text
  located : ∀ declaration ∈ surface.inventory.allDeclarations, declaration.Located
  printable : ∀ message ∈ surface.router.messages, message.Printable

private theorem hasTextName_of_sortKey {entity : Entity} {key : Text}
    (h : entity.sortKey = .ok key) : entity.hasTextName = true := by
  unfold Entity.sortKey sortKeyOf at h
  unfold Entity.hasTextName
  split at h
  · rename_i habsent
    split
    · rfl
    · exact habsent
  · cases hname : entity.name <;> simp_all

private theorem sortEntities_hasTextName {entities sorted : List Entity}
    (h : sortEntities entities = .ok sorted) :
    ∀ entity ∈ sorted, entity.hasTextName = true := by
  intro entity hentity
  simp only [sortEntities, sortByKey, bind_eq_ok, pure_eq_ok] at h
  obtain ⟨keyed, hkeyed, rfl⟩ := h
  obtain ⟨⟨key, _⟩, hentry, rfl⟩ := List.mem_map.mp hentity
  rw [List.mem_mergeSort] at hentry
  obtain ⟨other, -, hother⟩ := exists_of_mem_mapM hkeyed hentry
  simp only [bind_eq_ok, pure_eq_ok, Prod.mk.injEq] at hother
  obtain ⟨_, hkey, rfl, rfl⟩ := hother
  exact hasTextName_of_sortKey hkey

theorem Inventory.remarkIssue_printable {graph : ModuleGraph} (hgraph : graph.Plain)
    (inventory : Inventory) {remark : Remark} (hremark : remark ∈ graph.remarks) :
    (inventory.remarkIssue remark).Printable := by
  refine ⟨hgraph.remarkExports remark hremark, fun location hlocation => ?_⟩
  obtain ⟨site, hsite, rfl⟩ := Option.map_eq_some_iff.mp hlocation
  exact .inr (hgraph.remarkPaths remark hremark site hsite)

namespace Surface

variable {graph : ModuleGraph} {rules : Datum} {surface : Surface}

theorem Steps.localName {router : Router} {entities : List Entity} {itemized remarked : Router}
    (h : Steps graph router surface entities itemized remarked) (htexts : graph.TextNames) :
    ∀ entity ∈ surface.entities, ∃ text, entity.localName = .ok (.text text) := by
  intro entity hentity
  have hresolved := h.resolved
  simp only [resolveEntities, bind_eq_ok] at hresolved
  obtain ⟨exported, -, hnamed⟩ := hresolved
  obtain ⟨other, hother, hsubject, -⟩ := Entity.exists_of_unnamed
    (Naming.nameAll_unnamed hnamed) ((sortByKey_perm h.sorted).mem_iff.mp hentity)
  rw [Entity.localName, ← hsubject]
  exact Inventory.localName_text h.declared htexts (mem_collectEntities hother).2

theorem analyze_plain (hgraph : graph.Plain)
    (h : analyze graph { rules := rules } = .ok surface) :
    surface.Plain ∧ surface.router.rules = rules := by
  obtain ⟨entities, itemized, remarked, hsteps⟩ := analyze_steps h
  have hforest := Inventory.ofGraph_forest hsteps.declared
  have hlocated : ∀ declaration ∈ surface.inventory.allDeclarations, declaration.Located := by
    intro declaration hdeclaration
    obtain ⟨-, entry, hentry, site, hsite, hfile⟩ := hforest.located hdeclaration
    obtain ⟨text, htext⟩ := hgraph.paths entry hentry site hsite
    exact ⟨text, by rw [hfile, htext]⟩
  have hitemized := (apiItems_adds graph surface.signatures [] _).records
    (fun _ issues haside => haside.1.printable hlocated) _ _ _ hsteps.itemsRun
  have hremarked := (recordAll_adds _).records (fun _ issues hissues issue hissue => by
    rw [hissues] at hissue
    obtain ⟨remark, hremark, rfl⟩ := List.mem_map.mp hissue
    exact Inventory.remarkIssue_printable hgraph _ hremark) _ _ _ hsteps.remarksRun
  have hchecks : Records (checkEntities (surface.draft entities) [] entities) := by
    refine (checkEntities_adds [] entities).records ?_
    rintro _ issues ⟨result, hstand, -⟩
    exact hstand.printable hlocated
  have hchecked := hchecks _ _ _ hsteps.checksRun
  refine ⟨?_, ?_⟩
  · constructor
    case sound => exact hsteps.sound
    case forest =>
      rw [hsteps.graph_eq]
      exact hforest
    case names => exact sortEntities_hasTextName hsteps.sorted
    case localNames => exact hsteps.localName hgraph.names
    case bindings =>
      rw [hsteps.graph_eq]
      exact hgraph.bindings
    case documentation =>
      rw [hsteps.graph_eq]
      exact hgraph.documentation
    case symbolNames =>
      intro declaration hdeclaration
      exact hforest.entered.name_text hgraph.names.symbols _ (hforest.located hdeclaration).1
    case located => exact hlocated
    case printable =>
      intro message hmessage
      rcases hchecked.2 message hmessage with hmessage | hprintable
      · rcases hremarked.2 message hmessage with hmessage | hprintable
        · rcases hitemized.2 message hmessage with hmessage | hprintable
          · simp at hmessage
          · exact hprintable
        · exact hprintable
      · exact hprintable
  · rw [hchecked.1, hremarked.1, hitemized.1]

end Surface

end ApiSurface
