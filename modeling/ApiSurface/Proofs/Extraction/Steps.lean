import ApiSurface.Extraction
import ApiSurface.Proofs.Extraction.Files
import ApiSurface.Proofs.Report.Messages

/-!
# The steps of an extraction

A step of an extraction either ends, and then it has written certain files, or
it ends in a fault, and then a document or a setting is to blame.  A defect never
ends a step.  What has been written or logged before makes no difference, except
for the approved report.
-/

namespace ApiSurface

def Fault.Fatal (fault : Fault) : Prop := ∀ cause, fault ≠ .defect cause

namespace Job

variable {job : Job} {surface : Surface}

/-! ## Single actions -/

section Actions

variable {before after : Workspace} {fault : Fault}

theorem ends_log {severity : Severity} {text : String} {result : Unit} :
    Ends (job.log severity text) before result after ↔
      { before with log := before.log ++ job.console.entries severity text } = after :=
  ends_modify

theorem not_fails_log {severity : Severity} {text : String} :
    ¬ Fails (job.log severity text) before fault after :=
  not_fails_modify

theorem ends_saveFile {path : FilePath} {text : Text} {result : Unit} :
    Ends (saveFile path text) before result after ↔
      { before with files := before.files.write path text } = after :=
  ends_modify

theorem not_fails_saveFile {path : FilePath} {text : Text} :
    ¬ Fails (saveFile path text) before fault after :=
  not_fails_modify

theorem ends_writeFile {path result : FilePath} {text : Text} :
    Ends (job.writeFile path text) before result after ↔
      job.pathOf path = result ∧
        { before with files := before.files.write (job.pathOf path) text } = after := by
  simp only [writeFile, ends_bind, ends_saveFile, ends_pure]
  constructor
  · rintro ⟨_, _, rfl, hresult, rfl⟩
    exact ⟨hresult, rfl⟩
  · rintro ⟨hresult, rfl⟩
    exact ⟨(), _, rfl, hresult, rfl⟩

theorem not_fails_writeFile {path : FilePath} {text : Text} :
    ¬ Fails (job.writeFile path text) before fault after := by
  simp only [writeFile, fails_bind, not_fails_saveFile, not_fails_pure, and_false,
    exists_false, or_self, not_false_eq_true]

theorem ends_readFile? {path : FilePath} {found : Option Text} :
    Ends (readFile? path) before found after ↔
      before.files.read? path = found ∧ before = after := by
  change (Except.ok (before.files.read? path), before) = (Except.ok found, after) ↔ _
  simp

private theorem not_fails_readFile? {path : FilePath} :
    ¬ Fails (readFile? path) before fault after := by
  change ¬ (Except.ok (before.files.read? path), before) = (Except.error fault, after)
  simp

theorem ends_print {α : Type} {action : Printing α} {printed : Except Fault α} :
    Ends (print action) before printed after ↔
      (action.outcome before.trails).1 = printed ∧
        { before with trails := (action.outcome before.trails).2 } = after := by
  change (Except.ok (action.outcome before.trails).1,
    { before with trails := (action.outcome before.trails).2 }) = (Except.ok printed, after) ↔ _
  simp

theorem not_fails_print {α : Type} {action : Printing α} :
    ¬ Fails (print action) before fault after := by
  change ¬ (Except.ok (action.outcome before.trails).1,
    { before with trails := (action.outcome before.trails).2 }) = (Except.error fault, after)
  simp

end Actions

/-! ## The report -/

structure Reviewed (job : Job) (approved : FilePath) (content : Text) (before : Files)
    (result : ReportResult) (after : Files) : Prop where
  changed : result.changed = true ↔
    ∀ expected, before.read? approved = some expected → Text.equivalent content expected = false
  errors : result.errors = if before.read? approved = none ∧ job.isLocal = false then 1 else 0
  failure : result.failure = none
  files : after = before.writeAll
    (if job.isLocal && result.changed then [(job.pathOf approved, content)] else [])

private theorem reviewReport_ends {actual approved : FilePath} {content : Text}
    {before after : Workspace} {result : ReportResult}
    (h : Ends (job.reviewReport actual approved content) before result after) :
    job.Reviewed approved content before.files result after.files := by
  simp only [reviewReport, ends_bind, ends_readFile?] at h
  obtain ⟨_, _, ⟨rfl, rfl⟩, h⟩ := h
  split at h
  · rename_i hread
    split at h
    all_goals
      rename_i hlocal
      simp only [ends_bind, ends_writeFile, ends_log, ends_pure] at h
    · obtain ⟨_, _, ⟨rfl, rfl⟩, _, _, rfl, rfl, rfl⟩ := h
      constructor <;> simp [hread, hlocal, Files.writeAll]
    · obtain ⟨_, _, rfl, rfl, rfl⟩ := h
      constructor <;> simp [hread, hlocal, Files.writeAll]
  · rename_i expected hread
    split at h
    · rename_i hsame
      simp only [ends_bind, ends_log, ends_pure] at h
      obtain ⟨_, _, rfl, rfl, rfl⟩ := h
      constructor <;> simp [hread, hsame, Files.writeAll]
    · rename_i hsame
      split at h
      all_goals
        rename_i hlocal
        simp only [ends_bind, ends_writeFile, ends_log, ends_pure] at h
      · obtain ⟨_, _, ⟨rfl, rfl⟩, _, _, rfl, rfl, rfl⟩ := h
        constructor <;> simp [hread, hsame, hlocal, Files.writeAll]
      · obtain ⟨_, _, rfl, rfl, rfl⟩ := h
        constructor <;> simp [hread, hsame, hlocal, Files.writeAll]

private theorem not_fails_reviewReport {actual approved : FilePath} {content : Text}
    {before after : Workspace} {fault : Fault} :
    ¬ Fails (job.reviewReport actual approved content) before fault after := by
  intro h
  simp only [reviewReport, fails_bind, not_fails_readFile?, false_or] at h
  obtain ⟨found, between, -, h⟩ := h
  split at h
  · split at h <;>
      simp only [fails_bind, not_fails_writeFile, not_fails_log, not_fails_pure, and_false,
        exists_false, or_self] at h
  · split at h
    · simp only [fails_bind, not_fails_log, not_fails_pure, and_false, exists_false,
        or_self] at h
    · split at h <;>
        simp only [fails_bind, not_fails_writeFile, not_fails_log, not_fails_pure, and_false,
          exists_false, or_self] at h

/-- The report alone; paths given as lists have been written onto. -/
def reportText (job : Job) (surface : Surface) (trails : Trails) : Except Fault Text :=
  ((surface.report job.newline).outcome trails).1

/-- What comes of the report: a text that is written and reviewed, or a defect
that is counted. -/
inductive Reported (job : Job) (surface : Surface) (before : Files) (trails : Trails)
    (result : ReportResult) (after : Files) : Prop
  | generated {actual approved : FilePath} {content : Text}
      (paths : job.reportPaths = .ok (actual, approved))
      (text : job.reportText surface trails = .ok content)
      (reviewed : job.Reviewed approved content (before.write (job.pathOf actual) content)
        result after)
  | failed {actual approved : FilePath} {cause : Defect}
      (paths : job.reportPaths = .ok (actual, approved))
      (fault : job.reportText surface trails = .error (.defect cause))
      (counted : result = { errors := 1, failure := some cause.message })
      (files : after = before)

theorem writeReport_ends {before after : Workspace} {result : ReportResult}
    (h : Ends (job.writeReport surface) before result after) :
    job.Reported surface before.files before.trails result after.files := by
  simp only [writeReport, ends_bind, ends_liftM, ends_print] at h
  obtain ⟨⟨actual, approved⟩, _, ⟨hpaths, rfl⟩, _, _, ⟨hprinted, rfl⟩, h⟩ := h
  split at h
  · simp only [ends_bind, ends_writeFile] at h
    obtain ⟨_, _, ⟨rfl, rfl⟩, h⟩ := h
    exact .generated hpaths hprinted (reviewReport_ends h)
  · simp only [ends_bind, ends_log, ends_pure] at h
    obtain ⟨_, _, rfl, rfl, rfl⟩ := h
    exact .failed hpaths hprinted rfl rfl
  · exact absurd h not_ends_throw

theorem writeReport_fails {before after : Workspace} {fault : Fault}
    (h : Fails (job.writeReport surface) before fault after) :
    job.reportPaths = .error fault ∨
      fault.Fatal ∧ job.reportText surface before.trails = .error fault := by
  simp only [writeReport, fails_bind, fails_liftM, ends_liftM, ends_print, not_fails_print,
    false_or] at h
  rcases h with ⟨hpaths, -⟩ | ⟨⟨actual, approved⟩, _, ⟨hpaths, rfl⟩, _, _, ⟨hprinted, rfl⟩, h⟩
  · exact .inl hpaths
  · split at h
    · simp only [fails_bind, not_fails_writeFile, not_fails_reviewReport, and_false,
        exists_false, or_self] at h
    · simp only [fails_bind, not_fails_log, not_fails_pure, and_false, exists_false,
        or_self] at h
    · rename_i hfatal
      obtain ⟨rfl, -⟩ := fails_throw.mp h
      exact .inr ⟨hfatal, hprinted⟩

/-! ## Rollups -/

def tierText (job : Job) (surface : Surface) (tier : Tier) : Except Fault Text := do
  let plan ← TrimPlan.make surface tier
  surface.rollup plan job.settings.omitsTrimmingComments job.newline

def target? (job : Job) (tier : Tier) : Option FilePath :=
  (job.settings.path? (targetKey tier)).map fun target =>
    job.pathOf (FilePath.ofString target)

def rollupWrites (job : Job) (surface : Surface) (tiers : List Tier) : List (FilePath × Text) :=
  tiers.filterMap fun tier =>
    match job.target? tier, job.tierText surface tier with
    | some path, .ok text => some (path, text)
    | _, _ => none

def rollupFailures (job : Job) (surface : Surface) (tiers : List Tier) :
    List (String × String) :=
  tiers.filterMap fun tier =>
    match job.target? tier, job.tierText surface tier with
    | some _, .error (.defect cause) => some (tier.name, cause.message)
    | _, _ => none

def planMessages (job : Job) (surface : Surface) (tiers : List Tier) : List Message :=
  tiers.flatMap fun tier =>
    match job.target? tier, TrimPlan.make surface tier with
    | some _, .ok plan => plan.messages
    | _, _ => []

structure Rolled (job : Job) (surface : Surface) (tiers : List Tier) (before : Files)
    (results : List RollupResult) (after : Files) : Prop where
  files : after = before.writeAll (job.rollupWrites surface tiers)
  written : results.filterMap RollupResult.file =
    (job.rollupWrites surface tiers).map fun entry => entry.1.shown
  failures : results.filterMap RollupResult.failure = job.rollupFailures surface tiers
  messages : results.flatMap RollupResult.messages = job.planMessages surface tiers

theorem Rolled.append {first second : List Tier} {before between after : Files}
    {results others : List RollupResult} (h : job.Rolled surface first before results between)
    (hothers : job.Rolled surface second between others after) :
    job.Rolled surface (first ++ second) before (results ++ others) after := by
  obtain ⟨rfl, hwritten, hfailures, hmessages⟩ := h
  obtain ⟨rfl, hwritten', hfailures', hmessages'⟩ := hothers
  constructor
  · simp [rollupWrites, Files.writeAll_append]
  · simp_all [rollupWrites]
  · simp_all [rollupFailures]
  · simp_all [planMessages]

theorem tierText_of_unplanned {tier : Tier} {fault : Fault}
    (h : TrimPlan.make surface tier = .error fault) :
    job.tierText surface tier = .error fault := by
  rw [tierText, h]
  rfl

theorem tierText_of_planned {tier : Tier} {plan : TrimPlan}
    (h : TrimPlan.make surface tier = .ok plan) :
    job.tierText surface tier =
      surface.rollup plan job.settings.omitsTrimmingComments job.newline := by
  rw [tierText, h]
  rfl

theorem writeRollup_ends {tier : Tier} {before after : Workspace} {result : RollupResult}
    (h : Ends (job.writeRollup surface tier) before result after) :
    job.Rolled surface [tier] before.files [result] after.files := by
  rw [writeRollup] at h
  split at h
  · rename_i hpath
    have htarget : job.target? tier = none := by rw [target?, hpath]; rfl
    obtain ⟨rfl, rfl⟩ := ends_pure.mp h
    constructor <;> simp [rollupWrites, rollupFailures, planMessages, htarget, Files.writeAll]
  · rename_i target hpath
    have htarget : job.target? tier = some (job.pathOf (FilePath.ofString target)) := by
      rw [target?, hpath]
      rfl
    split at h
    · rename_i cause hmake
      have htext : job.tierText surface tier = .error (.defect cause) :=
        tierText_of_unplanned hmake
      simp only [rollupFailure, ends_bind, ends_log, ends_pure] at h
      obtain ⟨_, _, rfl, rfl, rfl⟩ := h
      constructor <;>
        simp [rollupWrites, rollupFailures, planMessages, htarget, hmake, htext, Files.writeAll]
    · exact absurd h not_ends_throw
    · rename_i plan hmake
      split at h
      · rename_i cause hrollup
        have htext := (tierText_of_planned hmake).trans hrollup
        simp only [rollupFailure, ends_bind, ends_log, ends_pure] at h
        obtain ⟨_, _, rfl, rfl, rfl⟩ := h
        constructor <;>
          simp [rollupWrites, rollupFailures, planMessages, htarget, hmake, htext, Files.writeAll]
      · exact absurd h not_ends_throw
      · rename_i content hrollup
        have htext := (tierText_of_planned hmake).trans hrollup
        simp only [ends_bind, ends_writeFile, ends_log, ends_pure] at h
        obtain ⟨_, _, ⟨rfl, rfl⟩, _, _, rfl, rfl, rfl⟩ := h
        constructor <;>
          simp [rollupWrites, rollupFailures, planMessages, htarget, hmake, htext, Files.writeAll]

private theorem writeRollup_fails {tier : Tier} {before after : Workspace} {fault : Fault}
    (h : Fails (job.writeRollup surface tier) before fault after) :
    fault.Fatal ∧ job.tierText surface tier = .error fault := by
  rw [writeRollup] at h
  split at h
  · exact absurd h not_fails_pure
  · split at h
    · simp only [rollupFailure, fails_bind, not_fails_log, not_fails_pure, and_false,
        exists_false, or_self] at h
    · rename_i hfatal hmake
      obtain ⟨rfl, -⟩ := fails_throw.mp h
      exact ⟨hfatal, tierText_of_unplanned hmake⟩
    · rename_i plan hmake
      split at h
      · simp only [rollupFailure, fails_bind, not_fails_log, not_fails_pure, and_false,
          exists_false, or_self] at h
      · rename_i hfatal hrollup
        obtain ⟨rfl, -⟩ := fails_throw.mp h
        exact ⟨hfatal, (tierText_of_planned hmake).trans hrollup⟩
      · simp only [fails_bind, not_fails_writeFile, not_fails_log, not_fails_pure, and_false,
          exists_false, or_self] at h

theorem writeRollups_ends {tiers : List Tier} {before after : Workspace}
    {results : List RollupResult}
    (h : Ends (job.writeRollups surface tiers) before results after) :
    job.Rolled surface tiers before.files results after.files := by
  induction tiers generalizing before results with
  | nil =>
      obtain ⟨rfl, rfl⟩ := ends_pure.mp h
      constructor <;> rfl
  | cons tier rest ih =>
      simp only [writeRollups, ends_bind, ends_pure] at h
      obtain ⟨result, between, hfirst, others, _, hrest, rfl, rfl⟩ := h
      exact (writeRollup_ends hfirst).append (ih hrest)

theorem writeRollups_fails {tiers : List Tier} {before after : Workspace} {fault : Fault}
    (h : Fails (job.writeRollups surface tiers) before fault after) :
    fault.Fatal ∧ ∃ tier ∈ tiers, job.tierText surface tier = .error fault := by
  induction tiers generalizing before with
  | nil => exact absurd h not_fails_pure
  | cons tier rest ih =>
      simp only [writeRollups, fails_bind, not_fails_pure, and_false, exists_false,
        or_false] at h
      rcases h with h | ⟨_, _, -, h⟩
      · obtain ⟨hfatal, htext⟩ := writeRollup_fails h
        exact ⟨hfatal, tier, by simp, htext⟩
      · obtain ⟨hfatal, other, hother, htext⟩ := ih h
        exact ⟨hfatal, other, by simp [hother], htext⟩

/-! ## The entity table -/

def tableWrites (job : Job) (surface : Surface) : List (FilePath × Text) :=
  match job.settings.path? "entity_table_path", surface.entityTable with
  | some target, .ok table =>
      [(job.pathOf (FilePath.ofString target), job.platform.dataText table)]
  | _, _ => []

private theorem writeEntityTable_ends {before after : Workspace} {result : Unit}
    (h : Ends (job.writeEntityTable surface) before result after) :
    after.files = before.files.writeAll (job.tableWrites surface) := by
  rw [writeEntityTable] at h
  split at h
  · rename_i htarget
    obtain ⟨-, rfl⟩ := ends_pure.mp h
    simp [tableWrites, htarget, Files.writeAll]
  · rename_i target htarget
    simp only [ends_bind, ends_liftM, ends_saveFile, ends_log] at h
    obtain ⟨table, _, ⟨htable, rfl⟩, _, _, rfl, rfl⟩ := h
    simp [tableWrites, htarget, htable, Files.writeAll]

private theorem writeEntityTable_fails {before after : Workspace} {fault : Fault}
    (h : Fails (job.writeEntityTable surface) before fault after) :
    surface.entityTable = .error fault := by
  rw [writeEntityTable] at h
  split at h
  · exact absurd h not_fails_pure
  · simp only [fails_bind, fails_liftM, not_fails_saveFile, not_fails_log, and_false,
      exists_false, or_false] at h
    exact h.1

/-! ## Messages -/

theorem logMessages_ends {messages : List Message} {before after : Workspace} {result : Unit}
    (h : Ends (job.logMessages messages) before result after) : after.files = before.files := by
  induction messages generalizing before with
  | nil =>
      obtain ⟨-, rfl⟩ := ends_pure.mp h
      rfl
  | cons message rest ih =>
      simp only [logMessages, logMessage, ends_bind, ends_print, ends_liftM, ends_modify] at h
      obtain ⟨_, _, ⟨_, _, ⟨_, rfl⟩, _, _, ⟨_, rfl⟩, rfl⟩, h⟩ := h
      have hrest := ih h
      exact hrest

theorem messageEntries_fails {console : Console} {message : Message} {before after : Trails}
    {fault : Fault} (h : Fails (console.messageEntries message) before fault after) :
    Fails message.withLocation before fault after := by
  rw [Console.messageEntries] at h
  split at h
  · exact absurd h not_fails_pure
  · simpa only [fails_bind, not_fails_pure, and_false, exists_false, or_false] using h

theorem logMessages_fails {messages : List Message} {before after : Workspace} {fault : Fault}
    (h : Fails (job.logMessages messages) before fault after) :
    ∃ message ∈ messages, ∃ start stop, Fails message.withLocation start fault stop := by
  induction messages generalizing before with
  | nil => exact absurd h not_fails_pure
  | cons message rest ih =>
      simp only [logMessages, logMessage, fails_bind, not_fails_print, fails_liftM, ends_print,
        not_fails_modify, and_false, exists_false, or_false, false_or] at h
      rcases h with ⟨printed, _, ⟨hprinted, -⟩, hfault, -⟩ | ⟨_, _, -, h⟩
      · rw [hfault] at hprinted
        exact ⟨message, by simp, _, _, messageEntries_fails (Prod.ext hprinted rfl)⟩
      · obtain ⟨other, hother, htext⟩ := ih h
        exact ⟨other, by simp [hother], htext⟩

/-! ## The whole extraction -/

def reviews (job : Job) : Bool := job.settings.enabled "report_enabled"

def tiers (job : Job) : List Tier :=
  if job.settings.enabled "rollup_enabled" then Tier.all else []

def shownMessages (job : Job) (surface : Surface) : List Message :=
  surface.router.forConsole job.reviews ++ job.planMessages surface job.tiers

def review (job : Job) (surface : Surface) : Extracting ReportResult :=
  if job.reviews then job.writeReport surface else pure {}

theorem extractSurface_eq : job.extractSurface surface = (do
    let report ← job.review surface
    let rollups ← job.writeRollups surface job.tiers
    job.writeEntityTable surface
    let messages := surface.router.forConsole job.reviews ++
      rollups.flatMap RollupResult.messages
    job.logMessages messages
    pure (job.outcome report rollups messages)) := by
  unfold extractSurface review reviews tiers
  cases job.settings.enabled "report_enabled" <;>
    cases job.settings.enabled "rollup_enabled" <;> rfl

def Reports (job : Job) (surface : Surface) (before : Files) (trails : Trails)
    (result : ReportResult) (after : Files) : Prop :=
  if job.reviews then job.Reported surface before trails result after
  else result = {} ∧ after = before

private theorem review_ends {before after : Workspace} {result : ReportResult}
    (h : Ends (job.review surface) before result after) :
    job.Reports surface before.files before.trails result after.files := by
  unfold review at h
  unfold Reports
  split at h
  · rw [if_pos ‹_›]
    exact writeReport_ends h
  · rw [if_neg ‹_›]
    obtain ⟨rfl, rfl⟩ := ends_pure.mp h
    exact ⟨rfl, rfl⟩

structure Extracted (job : Job) (surface : Surface) (report : ReportResult) (reported : Files)
    (outcome : Outcome) (after : Files) : Prop where
  files : after = reported.writeAll
    (job.rollupWrites surface job.tiers ++ job.tableWrites surface)
  reportChanged : outcome.reportChanged = report.changed
  reportError : outcome.reportError = report.failure
  rollupFiles : outcome.rollupFiles =
    (job.rollupWrites surface job.tiers).map fun entry => entry.1.shown
  rollupErrors : outcome.rollupErrors = job.rollupFailures surface job.tiers
  errorCount : outcome.errorCount = report.errors +
    (job.rollupFailures surface job.tiers).length +
    ((job.shownMessages surface).filter fun message => message.level = .error).length
  succeeded : outcome.succeeded = true ↔
    outcome.errorCount = 0 ∧ (job.isLocal = true ∨ outcome.warningCount = 0)

theorem extractSurface_ends {before after : Workspace} {outcome : Outcome}
    (h : Ends (job.extractSurface surface) before outcome after) :
    ∃ report reported, job.Reports surface before.files before.trails report reported ∧
      job.Extracted surface report reported outcome after.files := by
  simp only [extractSurface_eq, ends_bind, ends_pure] at h
  obtain ⟨report, reported, hreport, results, rolled, hresults, _, tabled, htable, _, logged,
    hlogged, rfl, rfl⟩ := h
  have hrolled := writeRollups_ends hresults
  refine ⟨report, reported.files, review_ends hreport, ?_⟩
  constructor
  case files =>
    rw [logMessages_ends hlogged, writeEntityTable_ends htable, hrolled.files,
      Files.writeAll_append]
  case rollupFiles => exact hrolled.written
  case rollupErrors => exact hrolled.failures
  case errorCount =>
    rw [← hrolled.failures, shownMessages, ← hrolled.messages]
    rfl
  case reportChanged => rfl
  case reportError => rfl
  case succeeded => simp [Job.outcome]

/-- What can end an extraction: paths of the report that are none, or a fault that
is no defect in one of the documents or in a message. -/
theorem extractSurface_fails {before after : Workspace} {fault : Fault}
    (h : Fails (job.extractSurface surface) before fault after) :
    (job.reviews = true ∧ job.reportPaths = .error fault) ∨
    (fault.Fatal ∧ job.reportText surface before.trails = .error fault) ∨
    (fault.Fatal ∧ ∃ tier, job.tierText surface tier = .error fault) ∨
    surface.entityTable = .error fault ∨
    ∃ message ∈ job.shownMessages surface, ∃ start stop,
      Fails message.withLocation start fault stop := by
  simp only [extractSurface_eq, fails_bind, not_fails_pure, and_false, exists_false,
    or_false] at h
  rcases h with h | ⟨_, _, -, h | ⟨results, _, hresults, h | ⟨_, _, -, h⟩⟩⟩
  · rw [review] at h
    split at h
    · rename_i hreviews
      rcases writeReport_fails h with h | ⟨hfatal, h⟩
      · exact .inl ⟨hreviews, h⟩
      · exact .inr (.inl ⟨hfatal, h⟩)
    · exact absurd h not_fails_pure
  · obtain ⟨hfatal, tier, -, h⟩ := writeRollups_fails h
    exact .inr (.inr (.inl ⟨hfatal, tier, h⟩))
  · exact .inr (.inr (.inr (.inl (writeEntityTable_fails h))))
  · rw [(writeRollups_ends hresults).messages] at h
    exact .inr (.inr (.inr (.inr (logMessages_fails h))))

def started (job : Job) (graph : ModuleGraph) (before : Workspace) : Workspace :=
  { before with
    log := before.log ++ job.console.entries .info s!"Analysis of {graph.packageName.plain}" }

theorem extract_ends {graph : ModuleGraph} {before after : Workspace} {outcome : Outcome} :
    Ends (job.extract graph) before outcome after ↔
      ∃ settings surface, job.settings.expandPaths graph.packageName = .ok settings ∧
        Surface.analyze graph { rules := (settings.lookup "messages").getD .null } =
          .ok surface ∧
        Ends (extractSurface { job with settings := settings } surface)
          (job.started graph before) outcome after := by
  simp only [extract, ends_bind, ends_liftM, ends_log]
  constructor
  · rintro ⟨settings, _, ⟨hexpanded, rfl⟩, _, _, rfl, surface, _, ⟨hanalyzed, rfl⟩, h⟩
    exact ⟨settings, surface, hexpanded, hanalyzed, h⟩
  · rintro ⟨settings, surface, hexpanded, hanalyzed, h⟩
    exact ⟨settings, _, ⟨hexpanded, rfl⟩, (), _, rfl, surface, _, ⟨hanalyzed, rfl⟩, h⟩

end Job

end ApiSurface
