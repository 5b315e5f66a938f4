import ApiSurface.Proofs.Extraction.Steps
import ApiSurface.Proofs.Report.Lookups

/-!
# Extractions that end

Valid settings have texts for the paths they give, a known kind of line ends and a
usable rule for every message.  With them the extraction of plain data always ends: none
of its documents meets a fault that is not a defect.
-/

namespace ApiSurface

/-! ## Settings -/

theorem Text.replaceAll_of_not_mem {character : Char} {pattern replacement text : Text}
    (h : character ∉ text) : replaceAll (character :: pattern) replacement text = text := by
  induction text with
  | nil => simp [replaceAll]
  | cons first rest ih =>
      simp only [List.mem_cons, not_or] at h
      rw [replaceAll, if_neg (by simp [List.isPrefixOf, h.1]), ih h.2]

namespace Settings

def reportKeys : List String := ["report_folder", "report_temp_folder", "report_file_name"]

structure Valid (settings : Settings) : Prop where
  checked : settings.validate = .ok ()
  /-- A path that is not left empty is a text. -/
  paths : ∀ key ∈ pathKeys, ∀ value, settings.lookup key = some value →
    value.present = true → ∃ text, value = .text text
  /-- If there is to be a report, it has a place. -/
  report : settings.enabled "report_enabled" = true →
    ∀ key ∈ reportKeys, ∃ text, settings.lookup key = some (.text text)
  rules : ∀ id : String, ∃ rule,
    ruleFor ((settings.lookup "messages").getD .null) (.text id) = .ok rule

variable {settings : Settings}

theorem Valid.newline (h : settings.Valid) (native : LineEnd) :
    (Newline.mk settings.newline native).ending?.isSome = true := by
  have hchecked := h.checked
  unfold validate at hchecked
  dsimp only at hchecked
  split at hchecked
  · cases hchecked
  · rename_i hnewline
    unfold Settings.newline Newline.ending?
    unfold isNewline at hnewline
    split <;> simp_all [Option.isSome_iff_ne_none]

theorem Valid.insert (h : settings.Valid) {key : String} (hkey : key ∈ pathKeys)
    (text : String) : Valid (Entries.insert key (.text text) settings) := by
  have hother : ∀ other ∈ ["newline_kind", "messages", "report_enabled"],
      (Entries.insert key (.text text) settings).lookup other = settings.lookup other := by
    intro other hother
    refine Entries.lookup_insert_of_ne ?_ _ _
    have hapart : ∀ other ∈ ["newline_kind", "messages", "report_enabled"],
        other ∉ pathKeys := by decide
    exact fun hsame => hapart other hother (hsame ▸ hkey)
  have hnewline := hother "newline_kind" (by simp)
  have hmessages := hother "messages" (by simp)
  constructor
  case checked =>
    rw [validate, hnewline, hmessages]
    exact h.checked
  case paths =>
    intro other hmem value hvalue
    by_cases hsame : other = key
    · rw [hsame, Entries.lookup_insert_self] at hvalue
      exact fun _ => ⟨text, (Option.some.inj hvalue).symm⟩
    · rw [Entries.lookup_insert_of_ne hsame] at hvalue
      exact h.paths other hmem value hvalue
  case report =>
    intro henabled other hmem
    rw [enabled, hother "report_enabled" (by simp)] at henabled
    by_cases hsame : other = key
    · subst hsame
      exact ⟨text, Entries.lookup_insert_self _ _ _⟩
    · rw [Entries.lookup_insert_of_ne hsame]
      exact h.report henabled other hmem
  case rules =>
    rw [hmessages]
    exact h.rules

theorem Valid.expandPath (h : settings.Valid) {key : String} (hkey : key ∈ pathKeys)
    (packageName unscoped : String) :
    ∃ expanded, Settings.expandPath packageName unscoped settings key = .ok expanded ∧
      expanded.Valid := by
  unfold Settings.expandPath
  cases hvalue : settings.lookup key with
  | none => exact ⟨settings, rfl, h⟩
  | some value =>
      dsimp only [Option.getD_some]
      split
      · rename_i hpresent
        obtain ⟨text, rfl⟩ := h.paths key hkey value hvalue hpresent
        exact ⟨_, rfl, h.insert hkey _⟩
      · exact ⟨settings, rfl, h⟩

theorem Valid.expandPaths (h : settings.Valid) (packageName : String) :
    ∃ expanded, settings.expandPaths (.text packageName) = .ok expanded ∧
      expanded.Valid :=
  foldlM_succeeds (fun _ (expanded : Settings) => expanded.Valid)
    (fun _ _ _ hkey hvalid => hvalid.expandPath hkey packageName _) [] h

theorem expandPaths_of_plain
    (h : ∀ key ∈ pathKeys, ∃ text,
      settings.lookup key = some (.text text) ∧ '<' ∉ text.toList)
    (packageName : String) : settings.expandPaths (.text packageName) = .ok settings := by
  have hkey : ∀ unscoped, ∀ key ∈ pathKeys,
      Settings.expandPath packageName unscoped settings key = .ok settings := by
    intro unscoped key hkey
    obtain ⟨text, htext, hplain⟩ := h key hkey
    have hpackage : ∀ replacement,
        Text.replaceAll "<packageName>".toList replacement text.toList = text.toList :=
      fun _ => Text.replaceAll_of_not_mem hplain
    have hunscoped : ∀ replacement,
        Text.replaceAll "<unscopedPackageName>".toList replacement text.toList = text.toList :=
      fun _ => Text.replaceAll_of_not_mem hplain
    rw [Settings.expandPath, htext]
    dsimp only [Option.getD_some]
    rw [expandNames, hpackage, hunscoped, String.ofList_toList,
      Entries.insert_of_lookup htext, ite_self]
  have hfold : ∀ unscoped,
      pathKeys.foldlM (Settings.expandPath packageName unscoped) settings = .ok settings := by
    intro unscoped
    obtain ⟨last, hlast, hsame⟩ := foldlM_succeeds (f := Settings.expandPath packageName unscoped)
      (fun _ state => state = settings)
      (fun _ key state hmem hstate => ⟨settings, hstate ▸ hkey unscoped key hmem, rfl⟩) [] rfl
    rw [hlast, hsame]
  exact hfold _

private theorem defaultRules_usable (id : String) :
    ∃ rule, ruleFor defaultRules (.text id) = .ok rule := by
  by_cases hdefault : id = "default"
  · subst hdefault
    exact ⟨_, rfl⟩
  · by_cases htrim : id = "ae-incompatible-trim"
    · subst htrim
      exact ⟨_, rfl⟩
    · -- Any other id has the rule called `default`.
      refine ⟨(.warning, true), ?_⟩
      simp [ruleFor, ruleFields, defaultRules, Datum.record, Datum.orElse, Datum.present,
        Datum.named?, Datum.keyed?, Datum.toEntries, Datum.key, Datum.key?,
        Datum.mergeEntries, Ne.symm hdefault, Ne.symm htrim, bind, Except.bind, pure,
        Except.pure, LogLevel.ofDatum?, LogLevel.all, LogLevel.name]

theorem valid_of_texts (hchecked : settings.validate = .ok ())
    (htexts : ∀ key ∈ pathKeys, ∃ text, settings.lookup key = some (.text text))
    (hrules : ∀ id : String, ∃ rule,
      ruleFor ((settings.lookup "messages").getD .null) (.text id) = .ok rule) :
    settings.Valid := by
  constructor
  case checked => exact hchecked
  case paths =>
    intro key hkey value hvalue _
    obtain ⟨text, htext⟩ := htexts key hkey
    exact ⟨text, Option.some.inj (hvalue.symm.trans htext)⟩
  case report =>
    have hkeys : reportKeys ⊆ pathKeys := by decide
    exact fun _ key hkey => htexts key (hkeys hkey)
  case rules => exact hrules

theorem defaults_valid : Valid defaults := by
  refine valid_of_texts rfl ?_ defaultRules_usable
  simp only [pathKeys, List.forall_mem_cons]
  exact ⟨⟨_, rfl⟩, ⟨_, rfl⟩, ⟨_, rfl⟩, ⟨_, rfl⟩, ⟨_, rfl⟩, ⟨_, rfl⟩, ⟨_, rfl⟩, ⟨_, rfl⟩,
    by simp⟩

end Settings

/-! ## The entity table -/

theorem mapM_succeeds {ε α β : Type} {f : α → Except ε β} {values : List α}
    (h : ∀ value ∈ values, ∃ result, f value = .ok result) :
    ∃ results, values.mapM f = .ok results := by
  induction values with
  | nil => exact ⟨[], rfl⟩
  | cons value rest ih =>
      obtain ⟨result, hresult⟩ := h value (by simp)
      obtain ⟨results, hresults⟩ := ih fun other hother => h other (by simp [hother])
      refine ⟨result :: results, ?_⟩
      rw [List.mapM_cons, hresult, hresults]
      rfl

namespace Surface.Plain

variable {surface : Surface} (h : surface.Plain)
include h

private theorem declarationRow_ok {declaration : Declaration}
    (hdeclaration : declaration ∈ surface.inventory.allDeclarations) :
    ∃ row, surface.declarationRow declaration = .ok row := by
  obtain ⟨item, hitem⟩ := h.sound.known declaration hdeclaration
  rw [declarationRow, hitem]
  exact ⟨_, rfl⟩

private theorem entityDetail_ok (subject : Subject) :
    ∃ detail, surface.entityDetail subject = .ok detail := by
  cases subject with
  | imported => exact ⟨_, rfl⟩
  | symbol label name =>
      obtain ⟨rows, hrows⟩ : ∃ rows, ((Declaration.walkAll
          (surface.declarationsOf label.key)).filter (·.parent.isNone)).mapM
          surface.declarationRow = .ok rows := by
        refine mapM_succeeds fun declaration hdeclaration => h.declarationRow_ok ?_
        exact Declaration.mem_walkAll_of_subset _
          (fun other hother => (Inventory.mem_declarationsOf.mp hother).1)
          (List.mem_filter.mp hdeclaration).1
      rw [entityDetail, hrows]
      exact ⟨_, rfl⟩

private theorem entityTable_ok : ∃ table, surface.entityTable = .ok table := by
  obtain ⟨rows, hrows⟩ : ∃ rows, surface.entities.mapM surface.entityRow = .ok rows := by
    refine mapM_succeeds fun entity hentity => ?_
    obtain ⟨text, htext⟩ := h.localNames entity hentity
    obtain ⟨detail, hdetail⟩ := h.entityDetail_ok entity.subject
    rw [entityRow, htext, hdetail]
    exact ⟨_, rfl⟩
  rw [entityTable, hrows]
  exact ⟨_, rfl⟩

end Surface.Plain

/-! ## Faults that do not occur -/

namespace Job

variable {job : Job} {surface : Surface}

private theorem reportPaths_ok (h : job.settings.Valid) (hreviews : job.reviews = true) :
    ∃ paths, job.reportPaths = .ok paths := by
  obtain ⟨name, hname⟩ := h.report hreviews "report_file_name" (by decide)
  obtain ⟨temporary, htemporary⟩ := h.report hreviews "report_temp_folder" (by decide)
  obtain ⟨folder, hfolder⟩ := h.report hreviews "report_folder" (by decide)
  refine ⟨((job.pathOf (FilePath.ofString temporary)).join (FilePath.ofString name),
    (job.pathOf (FilePath.ofString folder)).join (FilePath.ofString name)), ?_⟩
  simp [reportPaths, Settings.required, hname, htemporary, hfolder, fileIn, bind, Except.bind,
    pure, Except.pure]

theorem tierText_settles (h : surface.Plain) (hvalid : job.settings.Valid)
    (hrule : ∃ rule, ruleFor surface.router.rules TrimPlan.rescueId = .ok rule) (tier : Tier) :
    Settles True (job.tierText surface tier) fun _ => True := by
  obtain ⟨rule, hrule⟩ := hrule
  obtain ⟨plan, hplan⟩ := TrimPlan.make_of_rule h.sound hrule tier
  rw [tierText_of_planned hplan]
  exact h.indexed.rollup_settles (fun _ => h) plan _ fun _ => hvalid.newline _

theorem shownMessages_printable (h : surface.Plain) :
    ∀ message ∈ job.shownMessages surface, message.Printable := by
  intro message hmessage
  rcases List.mem_append.mp hmessage with hmessage | hmessage
  · exact h.printable message (List.mem_filter.mp hmessage).1
  · obtain ⟨tier, -, hmessage⟩ := List.mem_flatMap.mp hmessage
    split at hmessage
    · rename_i hplan
      exact TrimPlan.make_printable h.located hplan message hmessage
    · simp at hmessage

private theorem not_fails_extractSurface (h : surface.Plain) (hvalid : job.settings.Valid)
    (hrule : ∃ rule, ruleFor surface.router.rules TrimPlan.rescueId = .ok rule)
    {before after : Workspace} {fault : Fault} :
    ¬ Fails (job.extractSurface surface) before fault after := by
  intro hfails
  have hdefect : ¬ (fault.Fatal ∧ ∃ cause, fault = .defect cause) :=
    fun ⟨hfatal, cause, hcause⟩ => hfatal cause hcause
  rcases extractSurface_fails hfails with ⟨hreviews, hfault⟩ | ⟨hfatal, hfault⟩ |
    ⟨hfatal, tier, hfault⟩ | hfault | ⟨message, hmessage, _, _, hfails⟩
  · obtain ⟨paths, hpaths⟩ := reportPaths_ok hvalid hreviews
    rw [hpaths] at hfault
    cases hfault
  · have hreport := h.indexed.report_settles (fun _ : True => h) fun _ =>
      hvalid.newline job.platform.lineEnd
    exact hdefect ⟨hfatal, (hreport _ _ _ (Prod.ext hfault rfl)).2 trivial⟩
  · exact hdefect ⟨hfatal, (tierText_settles h hvalid hrule tier).cause trivial hfault⟩
  · obtain ⟨table, htable⟩ := h.entityTable_ok
    rw [htable] at hfault
    cases hfault
  · exact (shownMessages_printable h message hmessage).not_fails hfails

theorem extract_completes {graph : ModuleGraph} (hgraph : graph.Plain) {settings : Settings}
    (hexpanded : job.settings.expandPaths graph.packageName = .ok settings)
    (hvalid : settings.Valid)
    (hanalyzed : Surface.analyze graph { rules := (settings.lookup "messages").getD .null } =
      .ok surface) (before : Workspace) :
    ∃ outcome after, Ends (job.extract graph) before outcome after ∧
      Ends (extractSurface { job with settings := settings } surface)
        (job.started graph before) outcome after := by
  obtain ⟨hplain, hrules⟩ := Surface.analyze_plain hgraph hanalyzed
  obtain ⟨outcome, after, hends⟩ | ⟨fault, after, hfails⟩ :=
    ends_or_fails (extractSurface { job with settings := settings } surface)
      (job.started graph before)
  · exact ⟨outcome, after, extract_ends.mpr ⟨settings, surface, hexpanded, hanalyzed, hends⟩,
      hends⟩
  · exact absurd hfails (not_fails_extractSurface hplain hvalid (hrules ▸ hvalid.rules _))

end Job

end ApiSurface
