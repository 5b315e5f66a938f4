import ApiSurface.Console
import ApiSurface.Files
import ApiSurface.Report
import ApiSurface.Settings
import ApiSurface.Surface.Table

/-!
# Extraction

An extraction analyzes a package and writes what its settings ask for: the report,
which is compared with an approved copy, a rollup for every tier that has a target,
and the entity table.  A defect met while one of the documents is generated spoils
only that document.  Any other fault ends the extraction; what has been written and
logged by then stays.
-/

namespace ApiSurface

structure Workspace where
  files : Files := {}
  log : List LogEntry := []
  trails : Trails := []

abbrev Extracting := ExceptT Fault (StateM Workspace)

/-- What an extraction takes from its surroundings: the line end of the system, and
the text of a file that holds data.  Nothing is assumed about either. -/
structure Platform where
  lineEnd : LineEnd
  dataText : Datum → Text

structure Job where
  settings : Settings
  folder : FilePath
  platform : Platform
  console : Console := {}

structure ReportResult where
  changed : Bool := false
  errors : Nat := 0
  warnings : Nat := 0
  failure : Option String := none
  deriving DecidableEq, Repr

structure RollupResult where
  file : Option String := none
  failure : Option (String × String) := none
  messages : List Message := []

namespace Job

/-! ## Steps -/

def log (job : Job) (severity : Severity) (text : String) : Extracting Unit :=
  modify fun workspace =>
    { workspace with log := workspace.log ++ job.console.entries severity text }

def print {α : Type} (action : Printing α) : Extracting (Except Fault α) := do
  let workspace ← get
  let (result, trails) := action.run.run workspace.trails
  set { workspace with trails := trails }
  pure result

def logMessage (job : Job) (message : Message) : Extracting Unit := do
  let entries ← liftM (← print (job.console.messageEntries message))
  modify fun workspace => { workspace with log := workspace.log ++ entries }

def pathOf (job : Job) (path : FilePath) : FilePath := job.folder.join path

def saveFile (path : FilePath) (text : Text) : Extracting Unit :=
  modify fun workspace =>
    { workspace with files := workspace.files.write path text }

/-- A relative path is taken from the folder of the job, also where this has been
done before: then it leads through the folder twice. -/
def writeFile (job : Job) (path : FilePath) (text : Text) :
    Extracting FilePath := do
  saveFile (job.pathOf path) text
  pure (job.pathOf path)

def readFile? (path : FilePath) : Extracting (Option Text) := do
  pure ((← get).files.read? path)

def newline (job : Job) : Newline := ⟨job.settings.newline, job.platform.lineEnd⟩

/-! ## The report -/

def fileIn (job : Job) (folder name : Datum) : Except Fault FilePath :=
  match folder, name with
  | .text folder, .text name =>
      .ok ((job.pathOf (FilePath.ofString folder)).join (FilePath.ofString name))
  | .text _, other =>
      .error (.wrongShape ("unsupported operand type(s) for /: 'PosixPath' and '" ++
        other.shape ++ "'"))
  | other, _ => .error (.notAPath other)

def reportPaths (job : Job) : Except Fault (FilePath × FilePath) := do
  let name ← job.settings.required "report_file_name"
  let actual ← job.fileIn (← job.settings.required "report_temp_folder") name
  let approved ← job.fileIn (← job.settings.required "report_folder") name
  pure (actual, approved)

def isLocal (job : Job) : Bool := job.settings.enabled "local_build"

/-- Compares a new report with the approved one.  A local build replaces an approved
report that is missing or different; any other build complains. -/
def reviewReport (job : Job) (actual approved : FilePath) (content : Text) :
    Extracting ReportResult := do
  match ← readFile? approved with
  | none =>
      if job.isLocal then
        let _ ← job.writeFile approved content
        job.log .warning
          s!"The API report file was missing, so a new file was created: {approved.shown}"
        pure { changed := true }
      else
        job.log .error
          (s!"The API report file is missing. Please copy the file {actual.shown}" ++
            s!" to {approved.shown} and include it in your commit.")
        pure { changed := true, errors := 1 }
  | some expected =>
      if Text.equivalent content expected then
        job.log .info s!"The API report is up to date: {approved.shown}"
        pure {}
      else if job.isLocal then
        let _ ← job.writeFile approved content
        job.log .warning
          ("You have changed the public API signature for this project." ++
            s!" Updating {approved.shown}")
        pure { changed := true }
      else
        job.log .warning
          ("You have changed the public API signature for this project." ++
            s!" Please copy the file {actual.shown} to {approved.shown}," ++
            " or perform a local build (which does this automatically).")
        pure { changed := true, warnings := 1 }

def writeReport (job : Job) (surface : Surface) : Extracting ReportResult := do
  let (actual, approved) ← job.reportPaths
  match ← print (surface.report job.newline) with
  | .ok content =>
      let _ ← job.writeFile actual content
      job.reviewReport actual approved content
  | .error (.defect cause) =>
      job.log .error s!"Failed to generate the API report: {cause.message}"
      pure { errors := 1, failure := some cause.message }
  | .error fault => throw fault

/-! ## Rollups -/

def targetKey : Tier → String
  | .internal => "untrimmed_file_path"
  | .alpha => "alpha_trimmed_file_path"
  | .beta => "beta_trimmed_file_path"
  | .public => "public_trimmed_file_path"

def rollupFailure (job : Job) (tier : Tier) (cause : Defect)
    (messages : List Message) : Extracting RollupResult := do
  job.log .error s!"Failed to generate the {tier.name} rollup: {cause.message}"
  pure { failure := some (tier.name, cause.message), messages := messages }

def writeRollup (job : Job) (surface : Surface) (tier : Tier) :
    Extracting RollupResult := do
  match job.settings.path? (targetKey tier) with
  | none => pure {}
  | some target =>
      match TrimPlan.make surface tier with
      | .error (.defect cause) => job.rollupFailure tier cause []
      | .error fault => throw fault
      | .ok plan =>
          match surface.rollup plan job.settings.omitsTrimmingComments
            job.newline with
          | .error (.defect cause) => job.rollupFailure tier cause plan.messages
          | .error fault => throw fault
          | .ok content =>
              let path ← job.writeFile (FilePath.ofString target) content
              job.log .info s!"Writing package typings: {path.shown}"
              pure { file := some path.shown, messages := plan.messages }

def writeRollups (job : Job) (surface : Surface) :
    List Tier → Extracting (List RollupResult)
  | [] => pure []
  | tier :: rest => do
      let result ← job.writeRollup surface tier
      let others ← job.writeRollups surface rest
      pure (result :: others)

/-! ## The entity table -/

def writeEntityTable (job : Job) (surface : Surface) : Extracting Unit := do
  match job.settings.path? "entity_table_path" with
  | none => pure ()
  | some target =>
      let table ← surface.entityTable
      let path := job.pathOf (FilePath.ofString target)
      saveFile path (job.platform.dataText table)
      job.log .info s!"Entity table written to: {path.shown}"

/-! ## The whole extraction -/

def logMessages (job : Job) : List Message → Extracting Unit
  | [] => pure ()
  | message :: rest => do
      job.logMessage message
      job.logMessages rest

def outcome (job : Job) (report : ReportResult) (rollups : List RollupResult)
    (messages : List Message) : Outcome :=
  let failures := rollups.filterMap RollupResult.failure
  let errors := report.errors + failures.length +
    (messages.filter fun message => message.level = .error).length
  let warnings := report.warnings +
    (messages.filter fun message => message.level = .warning).length
  { succeeded := errors = 0 && (job.isLocal || warnings = 0)
    errorCount := errors
    warningCount := warnings
    reportChanged := report.changed
    rollupFiles := rollups.filterMap RollupResult.file
    rollupErrors := failures
    reportError := report.failure }

def extractSurface (job : Job) (surface : Surface) : Extracting Outcome := do
  let reportEnabled := job.settings.enabled "report_enabled"
  let report ← if reportEnabled then job.writeReport surface else pure {}
  let rollups ←
    if job.settings.enabled "rollup_enabled" then job.writeRollups surface Tier.all
    else pure []
  job.writeEntityTable surface
  let messages := surface.router.forConsole reportEnabled ++
    rollups.flatMap RollupResult.messages
  job.logMessages messages
  pure (job.outcome report rollups messages)

def extract (job : Job) (graph : ModuleGraph) : Extracting Outcome := do
  let settings ← job.settings.expandPaths graph.packageName
  job.log .info s!"Analysis of {graph.packageName.plain}"
  let surface ←
    Surface.analyze graph { rules := (settings.lookup "messages").getD .null }
  Job.extractSurface { job with settings := settings } surface

end Job

end ApiSurface
