import ApiSurface.Datum.Basic
import ApiSurface.Decimal.Shortest
import ApiSurface.Text.Basic

/-!
# Writing data

A value is written on one line in the notation that `Datum.read` reads.  Keys are
written as texts.
-/

namespace ApiSurface.Datum

def escaped (character : Char) : Text :=
  if character = '"' then ['\\', '"']
  else if character = '\\' then ['\\', '\\']
  else if character = '\n' then ['\\', 'n']
  else if character = '\r' then ['\\', 'r']
  else if character = '\t' then ['\\', 't']
  else if character = '\x08' then ['\\', 'b']
  else if character = '\x0c' then ['\\', 'f']
  else if character.toNat < 0x20 then
    "\\u00".toList ++
      [Nat.digitChar (character.toNat / 16), Nat.digitChar (character.toNat % 16)]
  else [character]

private def writtenText (value : String) : Text :=
  ['"'] ++ value.toList.flatMap escaped ++ ['"']

private def writtenReal (value : Float) : String :=
  match Decimal.Binary.ofFloat value with
  | .undefined => "NaN"
  | .infinite negative => if negative then "-Infinity" else "Infinity"
  | .finite _ _ _ => Decimal.floatText value

private def keyText : Datum → String
  | .null => "null"
  | .bool true => "true"
  | .bool false => "false"
  | .int value => toString value
  | .real value => writtenReal value
  | .text value => value
  | _ => ""

mutual

def written : Datum → Text
  | .null => "null".toList
  | .bool true => "true".toList
  | .bool false => "false".toList
  | .int value => (toString value).toList
  | .real value => (writtenReal value).toList
  | .text value => writtenText value
  | .list items => ['['] ++ Text.join [',', ' '] (writtenItems items) ++ [']']
  | .map entries =>
    ['\x7b'] ++ Text.join [',', ' '] (writtenEntries entries) ++ ['\x7d']

private def writtenItems : List Datum → List Text
  | [] => []
  | item :: rest => written item :: writtenItems rest

private def writtenEntries : List (Datum × Datum) → List Text
  | [] => []
  | (key, value) :: rest =>
    (writtenText key.keyText ++ [':', ' '] ++ written value) :: writtenEntries rest

end

end ApiSurface.Datum
