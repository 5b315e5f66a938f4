import ApiSurface.Datum.Reader
import ApiSurface.Text.Basic

/-!
# Reading dumps

A dump file is written in JSON and read as a document in flow notation, which
differs in details.  Characters that cannot be printed are refused.  Only blanks,
line breaks and comments stand between tokens.  A line break inside a quoted text is
folded into a blank.  A key ends at most 1024 characters after its start and on the
same line.  Words are spelled as in JSON, and one with an exponent is a number only
if it has a point and the exponent a sign.  Numbers are taken level by level, so of
those that are too long the outermost is the one that counts.

Reading belongs to the outer layer of the program.  It stands for the library that
reads the files, and no result about packages, plans or outputs depends on it: they
hold for every dump, however it came about.
-/

namespace ApiSurface.Datum.Flow

def isPrintable (character : Char) : Bool :=
  let code := character.toNat
  code = 0x9 || code = 0xA || code = 0xD || (0x20 ≤ code && code ≤ 0x7E) ||
    code = 0x85 ||
    (0xA0 ≤ code && code ≤ 0xFFFD) || 0x10000 ≤ code

private def lineBreak? (character : Char) : Option Char :=
  if character = '\n' || character = '\r' || character = Char.ofNat 0x85 then
    some '\n'
  else if character = Char.ofNat 0x2028 || character = Char.ofNat 0x2029 then
    some character
  else none

def isBlank (character : Char) : Bool := character = ' ' || character = '\t'

private def endsHere : Text → Bool
  | [] => true
  | character :: _ => isBlank character || (lineBreak? character).isSome

private def separatesDocuments (text : Text) : Bool :=
  (text.take 3 = ['-', '-', '-'] || text.take 3 = ['.', '.', '.']) &&
    endsHere (text.drop 3)

/-! ## Words -/

private def decimal? (characters : Text) : Option Datum :=
  let (negative, unsigned) :=
    match characters with
    | '-' :: rest => (true, rest)
    | rest => (false, rest)
  let (whole, rest) := takeDigits unsigned
  match rest with
  | '.' :: rest =>
      let (fraction, rest) := takeDigits rest
      match rest with
      | [] => if whole.isEmpty then none
        else some (decimalValue negative whole fraction 0)
      | _ :: sign :: _ =>
          if whole.isEmpty || (sign ≠ '+' && sign ≠ '-') then none
          else (exponent? rest).map (decimalValue negative whole fraction)
      | _ => none
  | _ => none

/-- A word of JSON; one that stands for a number there and not here is a text. -/
def word (characters : Text) : Except ReadFailure Datum :=
  match Datum.word strict characters with
  | .ok (.real _) =>
    .ok ((decimal? characters).getD (.text (String.ofList characters)))
  | other => other

/-! ## Scanning -/

/-- Where the scanner stands.  Collected characters are kept last first. -/
inductive Mode where
  | between
  | comment
  | word (collected : Text)
  | quoted (collected : Text)
  | blanks (collected pending : Text)
  | broken (collected : Text) (first : Option Char) (breaks : Text)
  | escaped (collected : Text)
  | code (collected : Text) (digits : Nat) (value : Nat)

structure Excess where
  depth : Nat
  count : Nat

/-- The scanner with its place in the text, the number of open brackets, the place
where the last value starts, and the outermost number that is too long. -/
structure Scanner where
  mode : Mode := .between
  index : Nat := 0
  line : Nat := 0
  depth : Nat := 0
  mark : Nat × Nat := (0, 0)
  excess : Option Excess := none

private def keyLimit : Nat := 1024

private def codeLimit : Nat := 0x110000

def folded (first : Option Char) (breaks : Text) : Text :=
  match first with
  | none => breaks
  | some '\n' => if breaks.isEmpty then [' '] else breaks
  | some character => breaks ++ [character]

def simpleEscape? : Char → Option Char
  | '0' => some (Char.ofNat 0)
  | 'a' => some '\x07'
  | 'b' => some '\x08'
  | 't' | '\t' => some '\t'
  | 'n' => some '\n'
  | 'v' => some '\x0b'
  | 'f' => some '\x0c'
  | 'r' => some '\r'
  | 'e' => some '\x1b'
  | ' ' => some ' '
  | '"' => some '"'
  | '\\' => some '\\'
  | '/' => some '/'
  | 'N' => some (Char.ofNat 0x85)
  | '_' => some (Char.ofNat 0xA0)
  | 'L' => some (Char.ofNat 0x2028)
  | 'P' => some (Char.ofNat 0x2029)
  | _ => none

private def codeLength? : Char → Option Nat
  | 'x' => some 2
  | 'u' => some 4
  | 'U' => some 8
  | _ => none

def endsWord (character : Char) (rest : Text) : Bool :=
  isBlank character || (lineBreak? character).isSome ||
    [',', '?', '[', ']', '\x7b', '\x7d'].contains character ||
    (character = ':' &&
      (endsHere rest ||
      (rest.head?.map [',', '[', ']', '\x7b', '\x7d'].contains).getD false))

private def isIndicator (character : Char) : Bool :=
  ['?', ':', ',', '#', '&', '*', '!', '|', '>', '\'', '"', '%', '@', '\x60',
    '\t'].contains character

private def depthAfter (depth : Nat) : Token → Nat
  | .openList | .openMap => depth + 1
  | .closeList | .closeMap => depth - 1
  | .comma | .colon | .value _ => depth

def Scanner.between (scanner : Scanner) (character : Char) (rest : Text) :
    Except ReadFailure (List Token × Scanner) :=
  let next (mode : Mode) : Scanner := { scanner with mode := mode }
  let start (mode : Mode) : Scanner :=
    { scanner with mode := mode, mark := (scanner.index, scanner.line) }
  if character = ':' then
    if scanner.mark.2 = scanner.line &&
      scanner.index ≤ scanner.mark.1 + keyLimit then
      .ok ([.colon], next .between)
    else .error .malformed
  else
    match punctuation? character with
    | some token =>
      .ok ([token], { next .between with depth := depthAfter scanner.depth token })
    | none =>
        if character = ' ' || (lineBreak? character).isSome then
          .ok ([], next .between)
        else if character = '#' then .ok ([], next .comment)
        else if character = '"' then .ok ([], start (.quoted []))
        else if scanner.index = 0 && character = Char.ofNat 0xFEFF then
          .ok ([], next .between)
        else if isIndicator character || (character = '-' && endsHere rest) then
          .error .malformed
        else .ok ([], start (.word [character]))

def Excess.outermost (second : Excess) : Option Excess → Excess
  | some first => if second.depth < first.depth then second else first
  | none => second

/-- The token of a word; a number that is too long stands as zero for the time
being. -/
private def Scanner.finishWord (scanner : Scanner) (collected : Text) :
    Except ReadFailure (Token × Scanner) :=
  match Flow.word collected.reverse with
  | .ok datum => .ok (.value datum, { scanner with mode := .between })
  | .error (.tooManyDigits count) =>
      let excess : Excess := ⟨scanner.depth, count⟩
      .ok (.value (.int 0), { scanner with
        mode := .between
        excess := some (excess.outermost scanner.excess) })
  | .error failure => .error failure

def Scanner.quoted (scanner : Scanner) (collected : Text) (character : Char)
    (rest : Text) : Except ReadFailure (List Token × Scanner) :=
  if character = '"' then
    .ok
      ([.value (.text (String.ofList collected.reverse))],
        { scanner with mode := .between })
  else if character = '\\' then
    .ok ([], { scanner with mode := .escaped collected })
  else if isBlank character then
    .ok ([], { scanner with mode := .blanks collected [character] })
  else
    match lineBreak? character with
    | some first =>
        if separatesDocuments rest then .error .malformed
        else .ok ([], { scanner with mode := .broken collected (some first) [] })
    | none => .ok ([], { scanner with mode := .quoted (character :: collected) })

def Scanner.step (scanner : Scanner) (character : Char) (rest : Text) :
    Except ReadFailure (List Token × Scanner) :=
  match scanner.mode with
  | .between => scanner.between character rest
  | .comment =>
      .ok ([], { scanner with
        mode := if (lineBreak? character).isSome then .between else .comment })
  | .word collected =>
      if endsWord character rest then do
        let (token, scanner) ← scanner.finishWord collected
        let (tokens, scanner) ← scanner.between character rest
        .ok (token :: tokens, scanner)
      else .ok ([], { scanner with mode := .word (character :: collected) })
  | .quoted collected => scanner.quoted collected character rest
  | .blanks collected pending =>
      if isBlank character then
        .ok ([], { scanner with mode := .blanks collected (character :: pending) })
      else if (lineBreak? character).isSome then
        scanner.quoted collected character rest
      else scanner.quoted (pending ++ collected) character rest
  | .broken collected first breaks =>
      if isBlank character then .ok ([], scanner)
      else
        match lineBreak? character with
        | some next =>
            if separatesDocuments rest then .error .malformed
            else .ok
              ([],
                { scanner with mode := .broken collected first (next :: breaks) })
        | none => scanner.quoted (folded first breaks ++ collected) character rest
  | .escaped collected =>
      match simpleEscape? character, codeLength? character with
      | some plain, _ =>
        .ok ([], { scanner with mode := .quoted (plain :: collected) })
      | none, some length =>
        .ok ([], { scanner with mode := .code collected length 0 })
      | none, none =>
          if (lineBreak? character).isSome && !separatesDocuments rest then
            .ok ([], { scanner with mode := .broken collected none [] })
          else .error .malformed
  | .code collected digits value => do
      let digit ← expect (hexValue? character)
      let value := 16 * value + digit
      if digits ≠ 1 then
        .ok ([], { scanner with mode := .code collected (digits - 1) value })
      else if codeLimit ≤ value then .error (.noCharacter value)
      else
        .ok ([], { scanner with mode := .quoted (Char.ofNat value :: collected) })

private def Scanner.advance (scanner : Scanner) (character : Char) : Scanner :=
  { scanner with
    index := scanner.index + 1
    line :=
      if (lineBreak? character).isSome then scanner.line + 1 else scanner.line }

/-! ## Documents -/

def readFrom (scanner : Scanner) (reading : Reading) :
    Text → Except ReadFailure (Scanner × Reading)
  | [] =>
      match scanner.mode with
      | .between | .comment => .ok (scanner, reading)
      | .word collected => do
          let (token, scanner) ← scanner.finishWord collected
          pure (scanner, ← expect (reading.step strict token))
      | _ => .error .malformed
  | character :: rest => do
      let (tokens, scanner) ← scanner.step character rest
      let reading ← expect (tokens.foldlM (Reading.step strict) reading)
      readFrom (scanner.advance character) reading rest

end Flow

def readDocument (text : Text) : Except ReadFailure Datum := do
  if !text.all Flow.isPrintable then throw .malformed
  let (scanner, reading) ← Flow.readFrom {} ⟨[], .value, .null⟩ text
  match reading.expected, reading.stack, scanner.excess with
  | .done, _, some excess => throw (.tooManyDigits excess.count)
  | .done, _, none => pure reading.result
  | .value, [], _ => pure .null
  | _, _, _ => throw .malformed

end ApiSurface.Datum
