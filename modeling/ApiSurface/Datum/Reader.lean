import ApiSurface.Datum.Key

/-!
# Reading data

Data is written in JSON, with names for the three numbers that have no digits.
Settings files are read in a wider dialect: a comment runs from `//` or `#` to the
end of its line, and one comma may stand before a closing bracket. Reading is one
fold over the characters.  A transducer makes tokens of them, and each token moves a
machine with a stack of open brackets, so the first fault in reading order is the
one that counts.
-/

namespace ApiSurface.Datum

structure Dialect where
  comments : Bool
  looseCommas : Bool
  constants : Bool

def strict : Dialect := ⟨false, false, true⟩

/-- The dialect of settings files.  It is used by the outer layer alone, which hands
over settings that have been read; no result depends on it. -/
def lenient : Dialect := ⟨true, true, false⟩

inductive ReadFailure where
  | malformed
  | tooManyDigits (count : Nat)
  | noCharacter (code : Nat)

private def digitLimit : Nat := 4300

/-! ## Tokens -/

inductive Token where
  | openList
  | closeList
  | openMap
  | closeMap
  | comma
  | colon
  | value (datum : Datum)

def punctuation? : Char → Option Token
  | '[' => some .openList
  | ']' => some .closeList
  | '\x7b' => some .openMap
  | '\x7d' => some .closeMap
  | ',' => some .comma
  | ':' => some .colon
  | _ => none

private def isSpace (character : Char) : Bool :=
  character = ' ' || character = '\t' || character = '\n' || character = '\r'

def takeDigits (characters : List Char) : List Char × List Char :=
  (characters.takeWhile Char.isDigit, characters.dropWhile Char.isDigit)

private def digitsValue (digits : List Char) : Nat :=
  digits.foldl (fun value digit => 10 * value + (digit.toNat - 0x30)) 0

def exponent? : List Char → Option Int
  | [] => some 0
  | mark :: rest =>
      let (negative, digits) :=
        match rest with
        | '-' :: digits => (true, digits)
        | '+' :: digits => (false, digits)
        | digits => (false, digits)
      if (mark = 'e' || mark = 'E') && !digits.isEmpty &&
        digits.all Char.isDigit then
        some (if negative then -(digitsValue digits : Int) else digitsValue digits)
      else none

def decimalValue (negative : Bool) (whole fraction : List Char) (exponent : Int) :
    Datum :=
  let mantissa := digitsValue (whole ++ fraction)
  let shift := exponent - fraction.length
  let magnitude := Float.ofScientific mantissa (shift < 0) shift.natAbs
  .real (if negative then -magnitude else magnitude)

def number (characters : List Char) : Except ReadFailure Datum :=
  let (negative, unsigned) :=
    match characters with
    | '-' :: rest => (true, rest)
    | rest => (false, rest)
  let (whole, rest) := takeDigits unsigned
  if whole.isEmpty || (whole.head? = some '0' && 1 < whole.length) then
    .error .malformed
  else
    match rest with
    | [] =>
        if digitLimit < whole.length then .error (.tooManyDigits whole.length)
        else .ok
          (.int
            (if negative then -(digitsValue whole : Int) else digitsValue whole))
    | '.' :: rest =>
        let (fraction, rest) := takeDigits rest
        match exponent? rest with
        | some exponent =>
            if fraction.isEmpty then .error .malformed
            else .ok (decimalValue negative whole fraction exponent)
        | none => .error .malformed
    | rest =>
        match exponent? rest with
        | some exponent => .ok (decimalValue negative whole [] exponent)
        | none => .error .malformed

private def constant? (characters : List Char) : Option Float :=
  if characters = "NaN".toList then some (0.0 / 0.0)
  else if characters = "Infinity".toList then some (1.0 / 0.0)
  else if characters = "-Infinity".toList then some (-1.0 / 0.0)
  else none

def word (dialect : Dialect) (characters : List Char) : Except ReadFailure Datum :=
  if characters = "null".toList then .ok .null
  else if characters = "true".toList then .ok (.bool true)
  else if characters = "false".toList then .ok (.bool false)
  else
    match if dialect.constants then constant? characters else none with
    | some value => .ok (.real value)
    | none => number characters

def hexValue? (character : Char) : Option Nat :=
  if character.isDigit then some (character.toNat - 0x30)
  else if 'a' ≤ character && character ≤ 'f' then some (character.toNat - 0x57)
  else if 'A' ≤ character && character ≤ 'F' then some (character.toNat - 0x37)
  else none

def simpleEscape? : Char → Option Char
  | '"' => some '"'
  | '\\' => some '\\'
  | '/' => some '/'
  | 'b' => some '\x08'
  | 'f' => some '\x0c'
  | 'n' => some '\n'
  | 'r' => some '\r'
  | 't' => some '\t'
  | _ => none

/-- Where the transducer stands.  Collected characters are kept last first; `high`
is the first half of an escaped pair that still waits for its second half. -/
inductive Scan where
  | between
  | slash
  | comment
  | word (collected : List Char)
  | quoted (collected : List Char) (high : Option Nat)
  | escaped (collected : List Char) (high : Option Nat)
  | unicode (collected : List Char) (high : Option Nat) (digits : Nat) (code : Nat)

private def replacementChar : Char := Char.ofNat 0xFFFD

private def settleHigh (collected : List Char) : Option Nat → List Char
  | some _ => replacementChar :: collected
  | none => collected

private def addUnit (collected : List Char) (high : Option Nat) (code : Nat) :
    Scan :=
  if 0xDC00 ≤ code && code ≤ 0xDFFF then
    match high with
    | some first =>
      .quoted
        (Char.ofNat (0x10000 + (first - 0xD800) * 0x400 + (code - 0xDC00)) ::
          collected) none
    | none => .quoted (replacementChar :: collected) none
  else if 0xD800 ≤ code && code ≤ 0xDBFF then
    .quoted (settleHigh collected high) (some code)
  else .quoted (Char.ofNat code :: settleHigh collected high) none

private def scanBetween (dialect : Dialect) (character : Char) :
    Option (List Token × Scan) :=
  match punctuation? character with
  | some token => some ([token], .between)
  | none =>
      if isSpace character then some ([], .between)
      else if character = '"' then some ([], .quoted [] none)
      else if dialect.comments && character = '#' then some ([], .comment)
      else if dialect.comments && character = '/' then some ([], .slash)
      else if dialect.comments && character = '\x0c' then some ([], .between)
      else some ([], .word [character])

def endsWord (dialect : Dialect) (character : Char) : Bool :=
  (punctuation? character).isSome || isSpace character || character = '"' ||
    (dialect.comments && (character = '#' || character = '/' || character = '\x0c'))

def expect {α : Type} : Option α → Except ReadFailure α
  | some value => .ok value
  | none => .error .malformed

private def scan (dialect : Dialect) :
    Scan → Char → Except ReadFailure (List Token × Scan)
  | .between, character => expect (scanBetween dialect character)
  | .slash, character =>
    if character = '/' then .ok ([], .comment) else .error .malformed
  | .comment, character => .ok ([], if character = '\n' then .between else .comment)
  | .word collected, character =>
      if endsWord dialect character then do
        let datum ← word dialect collected.reverse
        let (tokens, next) ← expect (scanBetween dialect character)
        pure (.value datum :: tokens, next)
      else .ok ([], .word (character :: collected))
  | .quoted collected high, character =>
      if character = '"' then
        .ok
          ([.value (.text (String.ofList (settleHigh collected high).reverse))],
            .between)
      else if character = '\\' then .ok ([], .escaped collected high)
      else if character.toNat < 0x20 then .error .malformed
      else .ok ([], .quoted (character :: settleHigh collected high) none)
  | .escaped collected high, character =>
      if character = 'u' then .ok ([], .unicode collected high 0 0)
      else do
        let plain ← expect (simpleEscape? character)
        pure ([], .quoted (plain :: settleHigh collected high) none)
  | .unicode collected high digits code, character => do
      let value ← expect (hexValue? character)
      let code := 16 * code + value
      pure
        ([], if digits = 3 then addUnit collected high code
          else .unicode collected high (digits + 1) code)

private def scanEnd (dialect : Dialect) : Scan → Except ReadFailure (List Token)
  | .between | .comment => .ok []
  | .word collected =>
    (word dialect collected.reverse).map fun datum => [.value datum]
  | _ => .error .malformed

/-! ## Values -/

inductive Frame where
  | list (items : List Datum)
  | map (entries : List (Datum × Datum))
  | entry (entries : List (Datum × Datum)) (key : String)

inductive Expected where
  | first
  | item
  | close
  | separator
  | colon
  | value
  | done
  deriving DecidableEq

structure Reading where
  stack : List Frame
  expected : Expected
  result : Datum

def Reading.finish (datum : Datum) : List Frame → Option Reading
  | [] => some ⟨[], .done, datum⟩
  | .list items :: outer =>
    some ⟨.list (datum :: items) :: outer, .separator, .null⟩
  | .entry entries key :: outer =>
    some ⟨.map (insertEntry (.text key) datum entries) :: outer, .separator, .null⟩
  | .map _ :: _ => none

def Reading.takesValue (reading : Reading) : Bool :=
  match reading.stack with
  | [] => reading.expected = .value
  | .list _ :: _ => reading.expected = .first || reading.expected = .item
  | .entry _ _ :: _ => reading.expected = .value
  | .map _ :: _ => false

private def Reading.closes (dialect : Dialect) (reading : Reading) : Bool :=
  match reading.expected with
  | .first | .separator | .close => true
  | .item => dialect.looseCommas
  | _ => false

def Reading.step (dialect : Dialect) (reading : Reading) : Token → Option Reading
  | .openList =>
      if reading.takesValue then some ⟨.list [] :: reading.stack, .first, .null⟩
      else none
  | .openMap =>
      if reading.takesValue then some ⟨.map [] :: reading.stack, .first, .null⟩
      else none
  | .closeList =>
      match reading.stack with
      | .list items :: outer =>
        if reading.closes dialect then Reading.finish (.list items.reverse) outer
        else none
      | _ => none
  | .closeMap =>
      match reading.stack with
      | .map entries :: outer =>
        if reading.closes dialect then Reading.finish (.map entries) outer else none
      | _ => none
  | .comma =>
      if reading.expected = .separator then some { reading with expected := .item }
      else if reading.expected = .first && dialect.looseCommas then
        some { reading with expected := .close }
      else none
  | .colon =>
      if reading.expected = .colon then some { reading with expected := .value }
      else none
  | .value datum =>
      match reading.stack, datum with
      | .map entries :: outer, .text key =>
          if reading.expected = .first || reading.expected = .item then
            some ⟨.entry entries key :: outer, .colon, .null⟩
          else none
      | _, _ =>
        if reading.takesValue then Reading.finish datum reading.stack else none

def readFrom (dialect : Dialect) :
    Scan → Reading → List Char → Except ReadFailure Reading
  | state, reading, [] => do
      expect ((← scanEnd dialect state).foldlM (Reading.step dialect) reading)
  | state, reading, character :: rest => do
      let (tokens, next) ← scan dialect state character
      let reading ← expect (tokens.foldlM (Reading.step dialect) reading)
      readFrom dialect next reading rest

def read (dialect : Dialect) (text : List Char) : Except ReadFailure Datum := do
  let reading ← readFrom dialect .between ⟨[], .value, .null⟩ text
  if reading.expected = .done then pure reading.result else throw .malformed

end ApiSurface.Datum
