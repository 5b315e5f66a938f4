import ApiSurface.Datum.Access
import ApiSurface.Text.Digit

/-!
# Outcomes

What an extraction reports back when it is done.  A summary holds the same as data,
for whoever prints it: counts are shown as they are, and only what cannot be counted
is a fault.
-/

namespace ApiSurface

structure Outcome where
  succeeded : Bool := false
  errorCount : Nat := 0
  warningCount : Nat := 0
  reportChanged : Bool := false
  rollupFiles : List String := []
  rollupErrors : List (String × String) := []
  reportError : Option String := none
  deriving DecidableEq, Repr

structure Summary where
  succeeded : Datum := .bool false
  errorCount : Datum := .int 0
  warningCount : Datum := .int 0
  reportChanged : Datum := .bool false
  rollupFiles : Datum := .list []
  rollupErrors : Datum := .map []
  reportError : Datum := .null

def Outcome.summary (outcome : Outcome) : Summary :=
  { succeeded := .bool outcome.succeeded
    errorCount := .int outcome.errorCount
    warningCount := .int outcome.warningCount
    reportChanged := .bool outcome.reportChanged
    rollupFiles := .list (outcome.rollupFiles.map Datum.text)
    rollupErrors :=
      .record (outcome.rollupErrors.map fun entry => (entry.1, .text entry.2))
    reportError := (outcome.reportError.map Datum.text).getD .null }

namespace Datum

private def wholeLimit : Nat := 4300

/-- The whole number in a text.  That it has too many digits is found before what
comes after them. -/
private def wholeOfText (content : String) : Except Fault Int :=
  match Text.wholeNumber? content.toList with
  | none => .error (.problem (.notAWholeNumber (.text content)))
  | some (negative, digits, complete) =>
      if wholeLimit < digits.length then
        .error (.problem (.tooManyDigits digits.length))
      else if !complete then .error (.problem (.notAWholeNumber (.text content)))
      else
        let value : Nat := digits.foldl (fun value digit => 10 * value + digit) 0
        .ok (if negative then -(value : Int) else (value : Int))

private def toWhole (datum : Datum) : Except Fault Int :=
  match datum with
  | .bool value => .ok (if value then 1 else 0)
  | .int value => .ok value
  | .real value =>
      match Decimal.Exact.ofFloat? value with
      | none => .error (.problem .undefinedNumber)
      | some number =>
          match number.truncate? with
          | some whole => .ok whole
          | none => .error (.overflow "cannot convert float infinity to integer")
  | .text content => wholeOfText content
  | other => .error (.wrongShape
      ("int() argument must be a string, a bytes-like object or a real number," ++
        " not '" ++ other.shape ++ "'"))

def isCount : Datum → Bool
  | .bool _ | .int _ | .real _ => true
  | _ => false

end Datum

def Summary.fieldNames : List String :=
  ["succeeded", "error_count", "warning_count", "api_report_changed",
    "rollup_files", "rollup_errors", "report_error"]

def Summary.ofFields (datum : Datum) : Except Fault Summary := do
  let entries ←
    match datum with
    | .map entries => Datum.knownEntries Summary.fieldNames entries
    | other =>
      throw
        (.wrongShape ("argument after ** must be a mapping, not " ++ other.shape))
  let field (name : String) (fallback : Datum) : Datum :=
    (Datum.named? name entries).getD fallback
  let initial : Summary := {}
  pure
    { succeeded := field "succeeded" initial.succeeded
      errorCount := field "error_count" initial.errorCount
      warningCount := field "warning_count" initial.warningCount
      reportChanged := field "api_report_changed" initial.reportChanged
      rollupFiles := field "rollup_files" initial.rollupFiles
      rollupErrors := field "rollup_errors" initial.rollupErrors
      reportError := field "report_error" initial.reportError }

def Summary.fields (summary : Summary) : Datum :=
  .record
    [("succeeded", summary.succeeded),
      ("error_count", summary.errorCount),
      ("warning_count", summary.warningCount),
      ("api_report_changed", summary.reportChanged),
      ("rollup_files", summary.rollupFiles),
      ("rollup_errors", summary.rollupErrors),
      ("report_error", summary.reportError)]

def Summary.rows (summary : Summary) : Except Fault (List (String × Datum)) := do
  let changed ← summary.reportChanged.toWhole
  let written ← summary.rollupFiles.size
  let failed ← summary.rollupErrors.size
  pure
    [("Errors", summary.errorCount),
      ("Warnings", summary.warningCount),
      ("API Report Changed", .int changed),
      ("API Report Failed", .int (if summary.reportError.isNull then 0 else 1)),
      ("Rollups Written", .int written),
      ("Rollups Failed", .int failed)]

end ApiSurface
