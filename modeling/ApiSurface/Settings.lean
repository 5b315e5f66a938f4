import ApiSurface.Datum.Reader
import ApiSurface.Package.Graph
import ApiSurface.Text.Newline

/-!
# Settings

Settings are built in layers: the defaults, the user's file, and what the caller
asks for.  A later layer replaces whole values, except that the message rules of the
user's file are merged into those of the defaults, id by id and field by field.
-/

namespace ApiSurface

abbrev Settings := List (String × Datum)

namespace Settings

def defaultRules : Datum :=
  .record
    [("default",
      .record [("log_level", .text "warning"), ("add_to_report", .bool true)]),
      ("ae-incompatible-trim",
        .record [("log_level", .text "warning"), ("add_to_report", .bool false)])]

def defaults : Settings :=
  [("report_enabled", .bool true),
    ("report_folder", .text "etc"),
    ("report_temp_folder", .text "temp"),
    ("report_file_name", .text "<unscopedPackageName>.api.md"),
    ("rollup_enabled", .bool false),
    ("untrimmed_file_path", .text "dist/<unscopedPackageName>.d.ts"),
    ("alpha_trimmed_file_path", .text ""),
    ("beta_trimmed_file_path", .text ""),
    ("public_trimmed_file_path", .text ""),
    ("omit_trimming_comments", .bool true),
    ("newline_kind", .text "lf"),
    ("local_build", .bool false),
    ("entity_table_path", .text ""),
    ("messages", defaultRules)]

/-! ## Layers -/

def ofEntries (entries : List (Datum × Datum)) : Settings :=
  entries.filterMap fun entry =>
    match entry.1 with
    | .text key => some (key, entry.2)
    | _ => none

def readDefaults (text : Text) : Except Fault Datum :=
  match Datum.read Datum.strict (Text.unifyNewlines text) with
  | .ok datum => .ok datum
  | .error .malformed => .error .malformedData
  | .error (.tooManyDigits count) => .error (.problem (.tooManyDigits count))
  | .error (.noCharacter code) => .error (.noCharacter code)

def readUser (path : String) (text : Text) : Except Fault Datum :=
  match Datum.read Datum.lenient (Text.unifyNewlines text) with
  | .ok datum => .ok datum
  | .error _ => .error (.problem (.unreadableSettings path))

def ofDefaults (defaults : Datum) : Except Fault Settings :=
  match defaults with
  | .map entries => .ok (ofEntries entries)
  | other => .error (.noOperation other.shape "update")

private def ruleEntries (rule : Datum) : Except Fault (List (Datum × Datum)) :=
  match rule with
  | .map entries => .ok entries
  | other =>
    .error (.wrongShape ("'" ++ other.shape ++ "' object is not a mapping"))

def mergeRule (rules : List (Datum × Datum)) (entry : Datum × Datum) :
    Except Fault (List (Datum × Datum)) := do
  let shared ← ruleEntries ((Datum.keyed? entry.1.key? rules).getD (.map []))
  let specific ← ruleEntries entry.2
  pure (Datum.insertEntry entry.1 (.map (Datum.mergeEntries shared specific)) rules)

def userEntries (user : Datum) : Except Fault Settings :=
  match user with
  | .map entries => .ok (ofEntries entries)
  | .list _ => .error (.wrongShape "pop expected at most 1 argument, got 2")
  | other => .error (.noOperation other.shape "pop")

def mergeUser (defaults user : Datum) : Except Fault Settings := do
  let entries ← userEntries user
  let settings ← ofDefaults defaults
  let userRules := (entries.lookup "messages").getD .null
  let merged := Entries.merge settings (Entries.erase "messages" entries)
  if userRules.present then
    let rules ← ((merged.lookup "messages").getD (.map [])).toEntries
    let rules ← (← userRules.entries).foldlM mergeRule rules
    pure (Entries.insert "messages" (.map rules) merged)
  else pure merged

/-- Lays what the caller asks for over the settings; null asks for nothing. -/
def override (settings overrides : Settings) : Settings :=
  Entries.merge settings (overrides.filter fun entry => !entry.2.isNull)

def isNewline : Datum → Bool
  | .text name => (NewlineKind.ofName? name).isSome
  | _ => false

def isMap : Datum → Bool
  | .map _ => true
  | _ => false

def validate (settings : Settings) : Except Fault Unit :=
  let newline := (settings.lookup "newline_kind").getD (.text "lf")
  if !isNewline newline then .error (.problem (.invalidNewlineSetting newline))
  else if !isMap ((settings.lookup "messages").getD (.map [])) then
    .error (.problem .messagesNotAMap)
  else .ok ()

def layer (base : Datum) (user : Option Datum) (overrides : Datum) :
    Except Fault Settings := do
  let settings ←
    match user with
    | some file => mergeUser base file
    | none => ofDefaults base
  let settings := settings.override (ofEntries (← overrides.entries))
  settings.validate
  pure settings

/-! ## Paths -/

def pathKeys : List String :=
  ["report_folder", "report_temp_folder", "report_file_name", "untrimmed_file_path",
    "alpha_trimmed_file_path", "beta_trimmed_file_path", "public_trimmed_file_path",
    "entity_table_path"]

def expandNames (packageName unscoped : String) (value : Text) : Text :=
  Text.replaceAll "<unscopedPackageName>".toList unscoped.toList
    (Text.replaceAll "<packageName>".toList packageName.toList value)

def expandPath (packageName unscoped : String) (settings : Settings)
    (key : String) : Except Fault Settings :=
  let value := (settings.lookup key).getD .null
  if value.present then
    match value with
    | .text path =>
        .ok
          (Entries.insert key
            (.text (String.ofList (expandNames packageName unscoped path.toList)))
              settings)
    | other => .error (.noOperation other.shape "replace")
  else .ok settings

def expandPaths (settings : Settings) (packageName : Datum) :
    Except Fault Settings := do
  let unscoped ← ModuleGraph.unscopedName packageName
  pathKeys.foldlM (expandPath packageName.plain unscoped) settings

/-! ## Looking up -/

def enabled (settings : Settings) (key : String) : Bool :=
  ((settings.lookup key).getD .null).present

def newline (settings : Settings) : Datum :=
  (settings.lookup "newline_kind").getD (.text "lf")

def omitsTrimmingComments (settings : Settings) : Bool :=
  ((settings.lookup "omit_trimming_comments").getD (.bool true)).present

def required (settings : Settings) (key : String) : Except Fault Datum :=
  match settings.lookup key with
  | some value => .ok value
  | none => .error (.missingKey (.text key))

def path? (settings : Settings) (key : String) : Option String :=
  match settings.lookup key with
  | some value => if value.present then some value.plain else none
  | none => none

end Settings

end ApiSurface
