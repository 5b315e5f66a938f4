import ApiSurface.Proofs.Extraction.Completion

/-!
# Documents apart from each other

The outputs of an extraction are the report with its approved copy, one rollup for
each tier with a target, and the entity table.  If they lie apart, each is what it
would be alone: a defect in one of them is counted, and the others are written all
the same.
-/

namespace ApiSurface.Job

variable {job : Job} {surface : Surface}

/-! ## Outputs -/

def reportOutputs (job : Job) : List FilePath :=
  match job.reviews, job.reportPaths with
  | true, .ok (actual, approved) => [job.pathOf actual, job.pathOf approved]
  | _, _ => []

def rollupOutputs (job : Job) : List FilePath := job.tiers.filterMap job.target?

def tableOutputs (job : Job) : List FilePath :=
  ((job.settings.path? "entity_table_path").map fun target =>
    job.pathOf (FilePath.ofString target)).toList

def outputs (job : Job) : List FilePath :=
  job.reportOutputs ++ job.rollupOutputs ++ job.tableOutputs

def Apart (job : Job) (current : Place) : Prop :=
  (job.outputs.map fun output => output.place current).Nodup

instance (job : Job) (current : Place) : Decidable (job.Apart current) :=
  inferInstanceAs (Decidable (List.Nodup _))

theorem fileIn_eq_ok {folder name : Datum} {path : FilePath}
    (h : job.fileIn folder name = .ok path) : ∃ inner, path = job.pathOf inner := by
  unfold fileIn at h
  split at h
  · exact ⟨_, (Except.ok.inj h).symm.trans (FilePath.join_assoc _ _ _)⟩
  · cases h
  · cases h

/-- The paths of the report have been taken from the folder before they are written to. -/
theorem pathOf_reportPaths (hfolder : job.folder.Absorbs) {actual approved : FilePath}
    (h : job.reportPaths = .ok (actual, approved)) :
    job.pathOf actual = actual ∧ job.pathOf approved = approved := by
  simp only [reportPaths, bind_eq_ok, pure_eq_ok, Prod.mk.injEq] at h
  obtain ⟨name, -, temporary, -, _, hactual, folder, -, _, happroved, rfl, rfl⟩ := h
  obtain ⟨inner, rfl⟩ := fileIn_eq_ok hactual
  obtain ⟨other, rfl⟩ := fileIn_eq_ok happroved
  exact ⟨hfolder.join_join inner, hfolder.join_join other⟩

theorem rollupWrites_sublist (tiers : List Tier) :
    ((job.rollupWrites surface tiers).map Prod.fst).Sublist (tiers.filterMap job.target?) := by
  induction tiers with
  | nil => exact .slnil
  | cons tier rest ih =>
      rw [rollupWrites, List.filterMap_cons, List.filterMap_cons]
      cases htarget : job.target? tier with
      | none => exact ih
      | some path =>
          cases htext : job.tierText surface tier with
          | ok text => exact ih.cons_cons path
          | error fault => exact ih.cons path

theorem tableWrites_sublist :
    ((job.tableWrites surface).map Prod.fst).Sublist job.tableOutputs := by
  unfold tableWrites tableOutputs
  cases job.settings.path? "entity_table_path" with
  | none => exact .slnil
  | some target =>
      cases surface.entityTable with
      | ok table => exact List.Sublist.refl _
      | error fault => exact List.nil_sublist _

/-! ## The report -/

def reportFails (job : Job) (surface : Surface) (trails : Trails) : Bool :=
  match job.reportText surface trails with
  | .ok _ => false
  | .error _ => true

def lacksApproved (job : Job) (surface : Surface) (before : Files) (trails : Trails) : Bool :=
  match job.reportPaths, job.reportText surface trails with
  | .ok (actual, approved), .ok content =>
      ((before.write (job.pathOf actual) content).read? approved).isNone
  | _, _ => false

section Reports

variable {before after : Files} {trails : Trails} {result : ReportResult}

def reportWrites (job : Job) (result : ReportResult) (actual approved : FilePath)
    (content : Text) : List (FilePath × Text) :=
  (job.pathOf actual, content) ::
    if job.isLocal && result.changed then [(job.pathOf approved, content)] else []

theorem reportWrites_sublist (hreviews : job.reviews = true) {actual approved : FilePath}
    (hpaths : job.reportPaths = .ok (actual, approved)) (content : Text) :
    ((job.reportWrites result actual approved content).map Prod.fst).Sublist
      job.reportOutputs := by
  rw [reportWrites, reportOutputs, hreviews, hpaths]
  split
  · exact List.Sublist.refl _
  · simp

theorem Reports.writes (h : job.Reports surface before trails result after) :
    ∃ reviewed, (reviewed.map Prod.fst).Sublist job.reportOutputs ∧
      after = before.writeAll reviewed := by
  unfold Reports at h
  split at h
  · rename_i hreviews
    cases h with
    | @generated actual approved content paths text reviewed =>
        exact ⟨job.reportWrites result actual approved content,
          reportWrites_sublist hreviews paths content, reviewed.files⟩
    | failed paths fault counted files => exact ⟨[], List.nil_sublist _, files⟩
  · exact ⟨[], List.nil_sublist _, h.2⟩

theorem Reports.errors (h : job.Reports surface before trails result after) :
    result.errors = if job.reviews && (job.reportFails surface trails ||
      !job.isLocal && job.lacksApproved surface before trails) then 1 else 0 := by
  unfold Reports at h
  split at h
  · rename_i hreviews
    cases h with
    | generated paths text reviewed =>
        rw [reviewed.errors]
        simp [hreviews, reportFails, lacksApproved, paths, text, and_comm]
    | failed paths fault counted files =>
        simp [hreviews, reportFails, fault, counted]
  · rename_i hreviews
    simp [hreviews, h.1]

private theorem lacksApproved_eq {actual approved : FilePath}
    (hpaths : job.reportPaths = .ok (actual, approved))
    (hmade : job.reportFails surface trails = false)
    (hapart : approved.place before.current ≠ (job.pathOf actual).place before.current)
    (hplain : ".." ∉ approved.components) :
    job.lacksApproved surface before trails = (before.read? approved).isNone := by
  unfold reportFails at hmade
  split at hmade
  · rename_i content htext
    simp only [lacksApproved, hpaths, htext, Files.read?_write_of_ne hapart (.inr hplain)]
  · cases hmade

end Reports

/-! ## Rollups -/

section Writes

variable {before : Files} {reviewed : List (FilePath × Text)}

def writes (job : Job) (surface : Surface) (reviewed : List (FilePath × Text)) :
    List (FilePath × Text) :=
  reviewed ++ job.rollupWrites surface job.tiers ++ job.tableWrites surface

theorem writes_sublist (hreviewed : (reviewed.map Prod.fst).Sublist job.reportOutputs) :
    ((job.writes surface reviewed).map Prod.fst).Sublist job.outputs := by
  rw [writes, List.map_append, List.map_append]
  exact (hreviewed.append (rollupWrites_sublist _)).append tableWrites_sublist

theorem inPlace_writes (hreviewed : (reviewed.map Prod.fst).Sublist job.reportOutputs)
    (hapart : job.Apart before.current) : ∀ entry ∈ job.writes surface reviewed,
      (before.writeAll (job.writes surface reviewed)).InPlace entry.1 entry.2 := by
  refine Files.inPlace_writeAll ?_
  have hlisted : ((job.writes surface reviewed).map Prod.fst).Sublist job.outputs :=
    writes_sublist hreviewed
  have hplaces := (hlisted.map fun path : FilePath => path.place before.current).nodup hapart
  rw [List.map_map] at hplaces
  exact hplaces

theorem read?_writes (hreviewed : (reviewed.map Prod.fst).Sublist job.reportOutputs)
    (hapart : job.Apart before.current) {path : FilePath} {text : Text}
    (h : (path, text) ∈ job.writes surface reviewed) :
    (before.writeAll (job.writes surface reviewed)).read? path = some text :=
  (inPlace_writes hreviewed hapart (path, text) h).read?_eq

private theorem lookup_writes_of_failed
    (hreviewed : (reviewed.map Prod.fst).Sublist job.reportOutputs)
    (hapart : job.Apart before.current) {tier : Tier} (htier : tier ∈ job.tiers) {path : FilePath}
    (htarget : job.target? tier = some path) {fault : Fault}
    (hfault : job.tierText surface tier = .error fault) :
    (before.writeAll (job.writes surface reviewed)).texts.lookup (path.place before.current) =
      before.texts.lookup (path.place before.current) := by
  apply Files.lookup_writeAll_of_ne
  intro entry hentry hsame
  -- The target of the tier stands apart from those of the tiers around it.
  obtain ⟨first, rest, htiers⟩ := List.append_of_mem htier
  have hwrites : job.rollupWrites surface job.tiers =
      job.rollupWrites surface first ++ job.rollupWrites surface rest := by
    simp [htiers, rollupWrites, htarget, hfault]
  have hothers : ((job.writes surface reviewed).map Prod.fst).Sublist
      (job.reportOutputs ++ first.filterMap job.target? ++ (rest.filterMap job.target? ++
        job.tableOutputs)) := by
    simp only [writes, hwrites, List.map_append, List.append_assoc]
    exact hreviewed.append ((rollupWrites_sublist first).append
      ((rollupWrites_sublist rest).append tableWrites_sublist))
  have houtputs : job.outputs = job.reportOutputs ++ first.filterMap job.target? ++
      path :: (rest.filterMap job.target? ++ job.tableOutputs) := by
    simp [outputs, rollupOutputs, htiers, htarget]
  have hnodup := hapart
  rw [Apart, houtputs, List.map_append, List.map_cons, List.nodup_middle, List.nodup_cons,
    ← List.map_append] at hnodup
  apply hnodup.1
  rw [hsame]
  exact List.mem_map.mpr ⟨_, hothers.subset (List.mem_map_of_mem hentry), rfl⟩

end Writes

structure Isolated (job : Job) (surface : Surface) (before : Workspace) (outcome : Outcome)
    (after : Files) : Prop where
  /-- A rollup that can be generated is read back from its target; a tier that fails
  is recorded, and its target stays as it was. -/
  rollups : ∀ tier ∈ job.tiers, ∀ path, job.target? tier = some path →
    (∃ text, job.tierText surface tier = .ok text ∧ after.read? path = some text) ∨
    ∃ cause, job.tierText surface tier = .error (.defect cause) ∧
      (tier.name, cause.message) ∈ outcome.rollupErrors ∧
      after.texts.lookup (path.place before.files.current) =
        before.files.texts.lookup (path.place before.files.current)
  /-- The rollups are written in the order of the tiers, after the report and before
  the table. -/
  written : ∃ reviewed, (reviewed.map Prod.fst).Sublist job.reportOutputs ∧
    after = before.files.writeAll (job.writes surface reviewed)
  rollupFiles : outcome.rollupFiles =
    (job.rollupWrites surface job.tiers).map fun entry => entry.1.shown
  rollupErrors : outcome.rollupErrors = job.rollupFailures surface job.tiers
  errorCount : outcome.errorCount =
    (if job.reviews && (job.reportFails surface before.trails ||
      !job.isLocal && job.lacksApproved surface before.files before.trails) then 1 else 0) +
    (job.rollupFailures surface job.tiers).length +
    ((job.shownMessages surface).filter fun message => message.level = .error).length
  /-- The approved report is looked for after the new one has been written.  This makes a
  difference only for paths that lead out of a new folder, and where a folder that is not
  absolute takes the new report to the place of the approved one. -/
  missing : ∀ actual approved, job.reviews = true → job.reportPaths = .ok (actual, approved) →
    job.reportFails surface before.trails = false → ".." ∉ approved.components →
    job.folder.Absorbs ∨ approved.place before.files.current ≠
      (job.pathOf actual).place before.files.current →
    job.lacksApproved surface before.files before.trails =
      (before.files.read? approved).isNone
  succeeded : outcome.succeeded = true ↔
    outcome.errorCount = 0 ∧ (job.isLocal = true ∨ outcome.warningCount = 0)

theorem Extracted.isolated {before : Workspace} {after reported : Files} {outcome : Outcome}
    {report : ReportResult}
    (hreport : job.Reports surface before.files before.trails report reported)
    (h : job.Extracted surface report reported outcome after)
    (hapart : job.Apart before.files.current)
    (htiers : ∀ tier, Settles True (job.tierText surface tier) fun _ => True) :
    job.Isolated surface before outcome after := by
  obtain ⟨reviewed, hreviewed, rfl⟩ := hreport.writes
  have hafter : after = before.files.writeAll (job.writes surface reviewed) := by
    rw [h.files, writes, List.append_assoc, Files.writeAll_append _ reviewed]
  constructor
  case rollups =>
    intro tier htier path htarget
    have htext := htiers tier
    cases hresult : job.tierText surface tier with
    | ok text =>
        refine .inl ⟨text, rfl, hafter ▸ read?_writes hreviewed hapart ?_⟩
        refine List.mem_append_left _ (List.mem_append_right _ ?_)
        exact List.mem_filterMap.mpr ⟨tier, htier, by simp [htarget, hresult]⟩
    | error fault =>
        obtain ⟨cause, rfl⟩ := htext.cause trivial hresult
        refine .inr ⟨cause, rfl, ?_, hafter ▸
          lookup_writes_of_failed hreviewed hapart htier htarget hresult⟩
        rw [h.rollupErrors]
        exact List.mem_filterMap.mpr ⟨tier, htier, by simp [htarget, hresult]⟩
  case written => exact ⟨reviewed, hreviewed, hafter⟩
  case rollupFiles => exact h.rollupFiles
  case rollupErrors => exact h.rollupErrors
  case errorCount => rw [h.errorCount, hreport.errors]
  case missing =>
    intro actual approved hreviews hpaths hmade hplain hplaces
    refine lacksApproved_eq hpaths hmade ?_ hplain
    rcases hplaces with hfolder | hplaces
    · intro hsame
      rw [← (pathOf_reportPaths hfolder hpaths).2] at hsame
      simp [Apart, outputs, reportOutputs, hreviews, hpaths, hsame] at hapart
    · exact hplaces
  case succeeded => exact h.succeeded

/-- With valid settings and outputs that lie apart, the extraction of plain data
ends, and each of its documents is what it would be alone. -/
theorem extract_isolates_documents {graph : ModuleGraph} (hgraph : graph.Plain)
    (hvalid : job.settings.Valid) (before : Workspace) :
    ∃ settings, job.settings.expandPaths graph.packageName = .ok settings ∧
      ∀ surface, Surface.analyze graph { rules := (settings.lookup "messages").getD .null } =
        .ok surface →
      Apart { job with settings := settings } before.files.current →
      ∃ outcome after, Ends (job.extract graph) before outcome after ∧
        Isolated { job with settings := settings } surface before outcome after.files := by
  obtain ⟨name, hname⟩ := hgraph.packageName
  obtain ⟨settings, hexpanded, hvalid⟩ := hvalid.expandPaths name
  rw [← hname] at hexpanded
  refine ⟨settings, hexpanded, fun surface hanalyzed hapart => ?_⟩
  obtain ⟨hplain, hrules⟩ := Surface.analyze_plain hgraph hanalyzed
  obtain ⟨outcome, after, hextract, hends⟩ :=
    extract_completes hgraph hexpanded hvalid hanalyzed before
  obtain ⟨report, reported, hreport, hextracted⟩ := extractSurface_ends hends
  refine ⟨outcome, after, hextract, hextracted.isolated hreport hapart ?_⟩
  exact tierText_settles hplain hvalid (hrules ▸ hvalid.rules _)

def brokenFile : SourceFile where
  path := .text "index.d.ts"
  text := "interface A interface B m<".toList
  root := .mk .sourceFile 0 26 0 .null
    [.mk .interfaceDeclaration 0 11 1 .null
      [.mk .interfaceKeyword 0 9 2 .null [], .mk .identifier 10 11 3 .null []],
    .mk .interfaceDeclaration 12 26 4 .null
      [.mk .interfaceKeyword 12 21 5 .null [], .mk .identifier 22 23 6 .null [],
      .mk .importType 24 26 7 .null [.mk .lessThanToken 25 26 8 .null []]]]

/-- A public interface, and an internal one with a broken import type. -/
def brokenPackage : ModuleGraph where
  packageName := .text "broken"
  files := [brokenFile]
  symbols := (brokenFile.root.children.zip ["A", "B"]).map fun entry =>
    { key := .text entry.2
      localName := .text entry.2
      declarations := [⟨brokenFile, [brokenFile.root], entry.1⟩] }
  bindings := [(7, .text "A")]
  exports := [(.text "A", .text "A"), (.text "_B", .text "B")]
  docFlags := [(1, { releaseTag := .public }), (4, { releaseTag := .internal })]

/-- Rollups of the internal and of the public tier, besides the report. -/
def brokenJob : Job where
  settings := [("report_enabled", .bool true), ("report_folder", .text "e"),
    ("report_temp_folder", .text "t"), ("report_file_name", .text "r"),
    ("rollup_enabled", .bool true), ("untrimmed_file_path", .text "i"),
    ("alpha_trimmed_file_path", .text ""), ("beta_trimmed_file_path", .text ""),
    ("public_trimmed_file_path", .text "p"), ("entity_table_path", .text "")]
  folder := FilePath.ofString "/"
  platform := { lineEnd := .lf, dataText := fun table => table.plain.toList }

theorem brokenPackage_plain : brokenPackage.Plain := by
  constructor
  case packageName => exact ⟨_, rfl⟩
  case documentation => exact .inl rfl
  case names =>
    constructor
    · intro entry hentry
      obtain ⟨_, -, rfl⟩ := List.mem_map.mp hentry
      exact ⟨_, rfl⟩
    · simp [brokenPackage]
  case paths =>
    intro entry hentry
    obtain ⟨_, -, rfl⟩ := List.mem_map.mp hentry
    simp [brokenFile]
  all_goals simp [brokenPackage]

theorem brokenJob_paths : ∀ key ∈ Settings.pathKeys, ∃ text,
    brokenJob.settings.lookup key = some (.text text) ∧ '<' ∉ text.toList := by
  simp only [Settings.pathKeys, List.forall_mem_cons]
  refine ⟨⟨_, rfl, ?_⟩, ⟨_, rfl, ?_⟩, ⟨_, rfl, ?_⟩, ⟨_, rfl, ?_⟩, ⟨_, rfl, ?_⟩, ⟨_, rfl, ?_⟩,
    ⟨_, rfl, ?_⟩, ⟨_, rfl, ?_⟩, by simp⟩ <;> decide

theorem brokenJob_valid : brokenJob.settings.Valid :=
  Settings.valid_of_texts rfl
    (fun key hkey => (brokenJob_paths key hkey).imp fun _ htext => htext.1) fun _ => ⟨_, rfl⟩

private theorem brokenPackage_run : (do
    let surface ← Surface.analyze brokenPackage {}
    let plan ← TrimPlan.make surface .internal
    let trimmed ← TrimPlan.make surface .public
    let document ← surface.rollup trimmed true ⟨.text "lf", .lf⟩
    pure ((surface.rollup plan true ⟨.text "lf", .lf⟩).isOk, document.isEmpty)) =
      .ok (false, false) := by
  cbv

/-- The internal rollup and the report fail; the public rollup is written. -/
theorem extract_isolates_documents_broken :
    ∃ surface outcome after document,
      brokenPackage.Plain ∧ brokenJob.settings.Valid ∧
      Surface.analyze brokenPackage {} = .ok surface ∧ brokenJob.Apart [] ∧
      Ends (brokenJob.extract brokenPackage) {} outcome after ∧
      (∃ reason, ("internal", reason) ∈ outcome.rollupErrors) ∧
      brokenJob.tierText surface .public = .ok document ∧
      after.files.read? (FilePath.ofString "/p") = some document ∧
      brokenJob.Isolated surface {} outcome after.files := by
  have hrun := brokenPackage_run
  simp only [bind_eq_ok, pure_eq_ok, Prod.mk.injEq] at hrun
  obtain ⟨surface, hanalyzed, plan, hplan, trimmed, htrimmed, document, hdocument, hfails, -⟩ :=
    hrun
  have hexpanded : brokenJob.settings.expandPaths brokenPackage.packageName =
      .ok brokenJob.settings := Settings.expandPaths_of_plain brokenJob_paths "broken"
  have hapart : brokenJob.Apart [] := of_decide_eq_true (by cbv)
  obtain ⟨settings, hsettings, hisolates⟩ :=
    extract_isolates_documents brokenPackage_plain brokenJob_valid {}
  obtain rfl := Except.ok.inj (hexpanded.symm.trans hsettings)
  obtain ⟨outcome, after, hends, hisolated⟩ := hisolates surface hanalyzed hapart
  have hinternal : brokenJob.tierText surface .internal =
      surface.rollup plan true ⟨.text "lf", .lf⟩ := tierText_of_planned hplan
  have hpublic : brokenJob.tierText surface .public = .ok document :=
    (tierText_of_planned htrimmed).trans hdocument
  refine ⟨surface, outcome, after, document, brokenPackage_plain, brokenJob_valid, hanalyzed,
    hapart, hends, ?_, hpublic, ?_, hisolated⟩
  · rcases hisolated.rollups .internal (by decide) (FilePath.ofString "/i") rfl with
      ⟨text, htext, -⟩ | ⟨cause, -, hrecorded, -⟩
    · rw [hinternal.symm.trans htext] at hfails
      cases hfails
    · exact ⟨_, hrecorded⟩
  · rcases hisolated.rollups .public (by decide) (FilePath.ofString "/p") rfl with
      ⟨text, htext, hread⟩ | ⟨cause, hcause, -⟩
    · rw [hread, Except.ok.inj (htext.symm.trans hpublic)]
    · cases hcause.symm.trans hpublic

end ApiSurface.Job
