import ApiSurface.Text.Blank

/-!
# Decimal digits

Every script with decimal digits has ten of them in a row; the table lists the
zeros.  A whole number may be written with the digits of any script, with a sign,
with single underscores between digits, and with blanks around it.
-/

namespace ApiSurface.Text

def zeros : List Nat := [
  0x30, 0x660, 0x6F0, 0x7C0, 0x966, 0x9E6, 0xA66, 0xAE6, 0xB66, 0xBE6, 0xC66,
  0xCE6, 0xD66, 0xDE6, 0xE50, 0xED0, 0xF20, 0x1040, 0x1090, 0x17E0, 0x1810, 0x1946,
  0x19D0, 0x1A80, 0x1A90, 0x1B50, 0x1BB0, 0x1C40, 0x1C50, 0xA620, 0xA8D0, 0xA900,
  0xA9D0, 0xA9F0, 0xAA50, 0xABF0, 0xFF10, 0x104A0, 0x10D30, 0x11066, 0x110F0,
  0x11136, 0x111D0, 0x112F0, 0x11450, 0x114D0, 0x11650, 0x116C0, 0x11730, 0x118E0,
  0x11950, 0x11C50, 0x11D50, 0x11DA0, 0x16A60, 0x16AC0, 0x16B50, 0x1D7CE, 0x1D7D8,
  0x1D7E2, 0x1D7EC, 0x1D7F6, 0x1E140, 0x1E2F0, 0x1E950, 0x1FBF0]

def digitValue? (character : Char) : Option Nat :=
  (zeros.find? fun first =>
    first ≤ character.toNat && character.toNat < first + 10).map fun first =>
    character.toNat - first

def isDecimal (character : Char) : Bool := (digitValue? character).isSome

/-- What may stand around a number: the blank characters without the information
separators. -/
private def isNumberBlank (character : Char) : Bool :=
  isBlank character && !(0x1C ≤ character.toNat && character.toNat ≤ 0x1F)

/-- Takes the digits off a text; single underscores may stand between digits, and
nothing comes of one that does not. `afterDigit` says that a digit came just before. -/
private def digitRun? (afterDigit : Bool) : Text → Option (List Nat × Text)
  | [] => some ([], [])
  | character :: rest =>
      if character = '_' then
        if afterDigit && (rest.head?.map isDecimal).getD false then
          digitRun? false rest
        else none
      else
        match digitValue? character with
        | none => some ([], character :: rest)
        | some digit => (digitRun? true rest).map fun run => (digit :: run.1, run.2)

private def takeSign : Text → Bool × Text
  | '-' :: rest => (true, rest)
  | '+' :: rest => (false, rest)
  | rest => (false, rest)

def wholeNumber? (text : Text) : Option (Bool × List Nat × Bool) := do
  let (negative, unsigned) := takeSign (text.dropWhile isNumberBlank)
  let (digits, rest) ← digitRun? false unsigned
  some (negative, digits, !digits.isEmpty && rest.all isNumberBlank)

end ApiSurface.Text
