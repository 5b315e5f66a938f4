import ApiSurface.Datum.Basic
import ApiSurface.Decimal.Shortest
import ApiSurface.Text.Quoted

/-!
# Data in diagnostics

A value is shown on one line: texts between quotation marks, lists in brackets, maps
in braces, and the three constants as `None`, `True` and `False`.
-/

namespace ApiSurface.Datum

mutual

def shown : Datum → String
  | .null => "None"
  | .bool true => "True"
  | .bool false => "False"
  | .int value => toString value
  | .real value => Decimal.floatText value
  | .text value => Text.quoted value
  | .list items => "[" ++ ", ".intercalate (shownItems items) ++ "]"
  | .map entries => "\x7b" ++ ", ".intercalate (shownEntries entries) ++ "\x7d"

private def shownItems : List Datum → List String
  | [] => []
  | item :: rest => shown item :: shownItems rest

private def shownEntries : List (Datum × Datum) → List String
  | [] => []
  | (key, value) :: rest => (shown key ++ ": " ++ shown value) :: shownEntries rest

end

def plain : Datum → String
  | .text value => value
  | datum => datum.shown

def characters (datum : Datum) : List Char := datum.plain.toList

end ApiSurface.Datum
