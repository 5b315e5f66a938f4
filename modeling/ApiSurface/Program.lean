import ApiSurface.CommandLine
import ApiSurface.Datum.Flow
import ApiSurface.Extraction
import ApiSurface.Package.Load

/-!
# The program

From arguments and files to an exit code, two output streams and new files.  The
exit code is zero for success, one for settings or input that cannot be used, two
for misused arguments, findings or unexpected faults, and three when a changed
report was asked to count as a failure.
-/

namespace ApiSurface

structure Exit where
  code : Nat
  output : Text := []
  errors : Text := []
  files : Files

def Argument.datum : Argument → Datum
  | .word text => .text text
  | .nothing => .list []

def Argument.path : Argument → Except Fault FilePath
  | .word text => .ok (FilePath.ofString text)
  | .nothing => .error (.notAPath (.list []))

namespace Options

def console (options : Options) : Console :=
  { level := .ofInt options.level, colored := !options.noColor }

def overrides (options : Options) : Settings :=
  let flag (value : Option Bool) : Datum := (value.map Datum.bool).getD .null
  let value (argument : Option Argument) : Datum :=
    (argument.map Argument.datum).getD .null
  [("local_build", flag options.localBuild),
    ("report_enabled", flag options.report),
    ("rollup_enabled", flag options.rollup),
    ("newline_kind", value options.newline),
    ("omit_trimming_comments", flag options.omitTrimmingComments),
    ("entity_table_path", value options.entityTable)]

def configPath? (options : Options) : Option FilePath :=
  match options.config with
  | some (.word name) =>
    if name.isEmpty then none else some (FilePath.ofString name)
  | _ => none

end Options

def Files.readDefaults (files : Files) (path : FilePath) : Except Fault Datum :=
  match files.read? path with
  | some text => Settings.readDefaults text
  | none => .ok (.map [])

def Files.readSettings (files : Files) :
    Option FilePath → Except Fault (Option Datum)
  | none => .ok none
  | some path =>
      match files.read? path with
      | some text => (Settings.readUser path.shown text).map some
      | none => .error (.settingsNotFound path.shown)

def Files.readDump (files : Files) (path : FilePath) : Except Fault ModuleGraph :=
  match files.read? path with
  | none => .error (.dumpNotFound path.shown)
  | some text =>
      match Datum.readDocument (Text.unifyNewlines text) with
      | .ok (.map entries) => ModuleGraph.ofDump (.map entries)
      | .ok _ => .error (.problem (.dumpNotAMap path.shown))
      | .error .malformed => .error (.problem (.unreadableDump path.shown))
      | .error (.tooManyDigits count) => .error (.problem (.tooManyDigits count))
      | .error (.noCharacter code) => .error (.noCharacter code)

namespace Program

/-- The folder of the project is given by its place, whatever path led there. -/
def prepare (platform : Platform) (files : Files) (options : Options) :
    Except Fault (Job × ModuleGraph) := do
  let user ← files.readSettings options.configPath?
  let settings ← Settings.layer (.record Settings.defaults) user
    (.record options.overrides)
  let graph ← files.readDump (← options.input.path)
  let folder := (← options.projectFolder.path).place files.current
  let job : Job :=
    { settings := settings
      folder := FilePath.ofPlace folder
      platform := platform
      console := options.console }
  pure (job, graph)

private def logText (log : List LogEntry) : Text :=
  log.flatMap fun entry => Text.line entry.text.toList

private def isUsage : Fault → Bool
  | .problem _ | .settingsNotFound _ | .dumpNotFound _ | .wrongShape _
    | .malformedData => true
  | .defect _ | .noOperation _ _ | .missingKey _ | .emptyList | .overflow _ => false

def isCut : Fault → Bool
  | .problem cause => cause.isCut
  | _ => false

private def faultText (console : Console) (fault : Fault) : Text :=
  let text :=
    (if isUsage fault then "Configuration or Usage Error: "
      else "An unexpected error occurred: ") ++
    fault.message
  if isCut fault then
    ((if console.colored then Severity.color .critical else "") ++ text).toList
  else Text.line (console.paint .critical text).toList

private def faultExit (console : Console) (fault : Fault) (workspace : Workspace) :
    Exit :=
  { code := if isUsage fault then 1 else 2
    errors := logText workspace.log ++ faultText console fault
    files := workspace.files }

def verdict (options : Options) (outcome : Outcome) : Nat × List LogEntry :=
  if !outcome.succeeded then
    (2, options.console.entries .error
      (s!"Extraction finished with {outcome.errorCount} error(s)" ++
        s!" and {outcome.warningCount} warning(s)."))
  else if options.failOnChange && outcome.reportChanged then
    (3, options.console.entries .warning
      "Exiting with code 3: --fail-on-change was set and the API report changed.")
  else (0, [])

def finish (options : Options) (outcome : Outcome) (workspace : Workspace) : Exit :=
  let (output, summaryLog) :=
    if options.printSummary then options.console.summary outcome.summary
    else ([], .ok [])
  let (code, lastLog) := verdict options outcome
  { code := code
    output := output
    errors := logText (workspace.log ++ (summaryLog.toOption.getD []) ++ lastLog)
    files := workspace.files }

def runOptions (platform : Platform) (files : Files) (options : Options) : Exit :=
  match prepare platform files options with
  | .error fault => faultExit options.console fault { files := files }
  | .ok (job, graph) =>
      match (job.extract graph).run.run { files := files } with
      | (.error fault, workspace) => faultExit options.console fault workspace
      | (.ok outcome, workspace) => finish options outcome workspace

private def usage : Text :=
  Text.line "usage: apirollup -i INPUT [options]".toList ++
    Switch.all.flatMap fun switch =>
    Text.line ("  " ++ ", ".intercalate switch.spellings).toList

def run (platform : Platform) (files : Files) (arguments : List String) : Exit :=
  match Options.parse arguments with
  | .ok options => runOptions platform files options
  | .error .help => { code := 0, output := usage, files := files }
  | .error interruption =>
      { code := 2,
        errors := Text.line ("apirollup: error: " ++ interruption.message).toList,
          files := files }

/-! ## Files to be read -/

private def approvedReport? (job : Job) (graph : ModuleGraph) : Option FilePath :=
  match job.settings.expandPaths graph.packageName with
  | .ok settings =>
      match Job.reportPaths { job with settings := settings } with
      | .ok (_, approved) => some approved
      | .error _ => none
  | .error _ => none

def inputs (platform : Platform) (files : Files) (arguments : List String) :
    List FilePath :=
  match Options.parse arguments with
  | .error _ => []
  | .ok options =>
      let given := options.input.path.toOption.toList ++ options.configPath?.toList
      let approved :=
        match prepare platform files options with
        | .ok (job, graph) => (approvedReport? job graph).toList
        | .error _ => []
      given ++ approved

end Program

end ApiSurface
