import ApiSurface.Message
import ApiSurface.Outcome

/-!
# The console

A console writes log entries from a certain severity on, in color if asked.
Messages are logged at the severity that their level stands for.
-/

namespace ApiSurface

inductive Severity where
  | debug
  | info
  | warning
  | error
  | critical
  deriving DecidableEq, Repr

namespace Severity

def all : List Severity := [.debug, .info, .warning, .error, .critical]

def rank : Severity → Nat
  | .debug => 10
  | .info => 20
  | .warning => 30
  | .error => 40
  | .critical => 50

def name : Severity → String
  | .debug => "DEBUG"
  | .info => "INFO"
  | .warning => "WARNING"
  | .error => "ERROR"
  | .critical => "CRITICAL"

def ofName? (name : String) : Option Severity :=
  all.find? fun severity => severity.name = name.toUpper

def below (severity : Severity) (level : Decimal.Exact) : Bool :=
  (Decimal.Exact.ofInt severity.rank).below level

def color : Severity → String
  | .debug => "\x1b[2m"
  | .info => ""
  | .warning => "\x1b[33m"
  | .error => "\x1b[31m"
  | .critical => "\x1b[31m\x1b[1m"

end Severity

structure LogEntry where
  severity : Severity
  text : String
  deriving DecidableEq, Repr

structure Console where
  level : Decimal.Exact := .ofInt 20
  colored : Bool := false
  deriving DecidableEq, Repr

namespace Console

/-- The level that a value stands for; a number that is undefined is below every
severity. -/
def levelOf? : Datum → Option Decimal.Exact
  | .real value => some ((Decimal.Exact.ofFloat? value).getD .lowest)
  | other => other.amount?

private def colorReset : String := "\x1b[0m"

def paint (console : Console) (severity : Severity) (text : String) : String :=
  if console.colored && !severity.color.isEmpty then
    severity.color ++ text ++ colorReset
  else text

def entries (console : Console) (severity : Severity) (text : String) :
    List LogEntry :=
  if severity.below console.level then []
  else [⟨severity, console.paint severity text⟩]

def messageEntries (console : Console) (message : Message) :
    Printing (List LogEntry) := do
  if message.level = .silent then pure []
  else
    let text ← message.withLocation
    pure (match message.level with
      | .error => console.entries .error ("Error: " ++ text)
      | .warning => console.entries .warning ("Warning: " ++ text)
      | .info => console.entries .info text
      | _ => console.entries .debug text)

/-! ## The summary -/

private def labelWidth (rows : List (String × Datum)) : Nat :=
  (rows.map fun row => row.1.length).foldl max 0

private def summaryRow (width : Nat) (row : String × Datum) : Text :=
  Text.line
    (row.1.toList ++ List.replicate (width - row.1.length) ' ' ++
      s!" : {row.2.plain}".toList)

private def summaryRows (width : Nat) :
    List (String × Datum) → Text × Except Fault Unit
  | [] => ([], .ok ())
  | row :: rest =>
      if row.2.isCount then
        let (others, result) := summaryRows width rest
        (summaryRow width row ++ others, result)
      else
        ([], .error (.wrongShape
          ("'>' not supported between instances of '" ++ row.2.shape ++
            "' and 'int'")))

private def verdictEntries (console : Console) (succeeded : Bool) : List LogEntry :=
  if succeeded then console.entries .info "Extraction completed successfully."
  else console.entries .error "Extraction completed with errors."

/-- The printed summary and the entries logged after it; a quiet console gives
none.  What has been printed stays when a value turns out to be no count. -/
def summary (console : Console) (summary : Summary) :
    Text × Except Fault (List LogEntry) :=
  if Severity.below .info console.level then ([], .ok [])
  else
    let heading := Text.line [] ++ Text.line "--- API Rollup Summary ---".toList
    match summary.rows with
    | .error fault => (heading, .error fault)
    | .ok rows =>
        match summaryRows (labelWidth rows) rows with
        | (text, .error fault) => (heading ++ text, .error fault)
        | (text, .ok _) =>
            (heading ++ text ++ Text.line "--------------------------".toList,
              .ok (console.verdictEntries summary.succeeded.present))

end Console

end ApiSurface
