/-!
# Texts as lists of characters

Every offset, column and length in this library counts characters, so source texts
and generated documents are lists of characters.  Names and message wordings stay
strings; they meet documents through `String.toList`.
-/

namespace ApiSurface

abbrev Text := List Char

namespace Text

/-- The offset that a position stands for; a position below zero counts from the
end. -/
def offset (text : Text) (position : Int) : Nat :=
  if position < 0 then ((text.length : Int) + position).toNat else position.toNat

def between (text : Text) (start stop : Int) : Text :=
  (text.drop (text.offset start)).take (text.offset stop - text.offset start)

def slice (text : Text) (start stop : Int) : Text :=
  if stop ≤ start then [] else text.between start stop

def line (text : Text) : Text := text ++ ['\n']

def precedes : Text → Text → Bool
  | [], _ => true
  | _ :: _, [] => false
  | first :: left, second :: right =>
      if first = second then precedes left right else first.toNat < second.toNat

/-! ## Lines -/

def lineFeedsBefore (text : Text) (offset : Nat) : Nat :=
  (text.take offset).count '\n'

def lineStart (text : Text) (offset : Nat) : Nat :=
  let before := text.take offset
  before.length - (before.reverse.takeWhile (· ≠ '\n')).length

def lines : Text → List Text
  | [] => [[]]
  | character :: rest =>
      if character = '\n' then [] :: lines rest
      else
        match lines rest with
        | [] => [[character]]
        | first :: others => (character :: first) :: others

def unlines (rows : List Text) : Text := (rows.intersperse ['\n']).flatten

def dropTrailingBlanks (row : Text) : Text :=
  (row.reverse.dropWhile fun character =>
    character = ' ' || character = '\t').reverse

def trimLineEnds (text : Text) : Text :=
  unlines ((lines text).map dropTrailingBlanks)

/-! ## Searching and replacing -/

def replaceAll (pattern replacement : Text) : Text → Text
  | [] => []
  | character :: rest =>
      if pattern.isPrefixOf (character :: rest) then
        replacement ++
          replaceAll pattern replacement (rest.drop (pattern.length - 1))
      else
        character :: replaceAll pattern replacement rest
termination_by text => text.length
decreasing_by all_goals simp; try omega

def splitOn (separator : Char) : Text → List Text
  | [] => [[]]
  | character :: rest =>
      if character = separator then [] :: splitOn separator rest
      else
        match splitOn separator rest with
        | [] => [[character]]
        | first :: others => (character :: first) :: others

def afterLast (separator : Char) (text : Text) : Text :=
  (text.reverse.takeWhile (· ≠ separator)).reverse

def beforeFirst (separator : Char) (text : Text) : Text :=
  text.takeWhile (· ≠ separator)

def join (separator : Text) (pieces : List Text) : Text :=
  (pieces.intersperse separator).flatten

end Text

end ApiSurface
