import ApiSurface.Text.Printable

/-!
# Quoted texts

Diagnostics show a text between quotation marks.  Single marks are used unless the
text holds a single mark and no double one.  The backslash, the mark in use and
every character that is not printable are escaped, so a quoted text stands on one
line and can be read back.
-/

namespace ApiSurface.Text

private def hexDigit (value : Nat) : Char :=
  if value < 10 then Char.ofNat (0x30 + value) else Char.ofNat (0x57 + value)

private def hexDigits : Nat → Nat → Text
  | 0, _ => []
  | width + 1, value => hexDigits width (value / 16) ++ [hexDigit (value % 16)]

private def quotationMark (text : Text) : Char :=
  if text.contains '\'' && !text.contains '"' then '"' else '\''

private def escapeChar (mark character : Char) : Text :=
  if character = mark || character = '\\' then ['\\', character]
  else if character = '\n' then ['\\', 'n']
  else if character = '\r' then ['\\', 'r']
  else if character = '\t' then ['\\', 't']
  else if isPrintable character then [character]
  else if character.toNat < 0x100 then ['\\', 'x'] ++ hexDigits 2 character.toNat
  else if character.toNat < 0x10000 then ['\\', 'u'] ++ hexDigits 4 character.toNat
  else ['\\', 'U'] ++ hexDigits 8 character.toNat

private def quote (text : Text) : Text :=
  let mark := quotationMark text
  mark :: text.flatMap (escapeChar mark) ++ [mark]

def quoted (content : String) : String := String.ofList (quote content.toList)

end ApiSurface.Text
