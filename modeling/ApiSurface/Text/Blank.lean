import ApiSurface.Text.Basic

/-!
# Blank characters

The blank characters are the white space of Unicode together with the four
information separators.  Two documents are equivalent when they agree after every
run of blanks has been replaced by a single space.
-/

namespace ApiSurface.Text

private def blankRanges : List (Nat × Nat) :=
  [(0x9, 0xD), (0x1C, 0x20), (0x85, 0x85), (0xA0, 0xA0), (0x1680, 0x1680),
    (0x2000, 0x200A), (0x2028, 0x2029), (0x202F, 0x202F), (0x205F, 0x205F),
    (0x3000, 0x3000)]

def isBlank (character : Char) : Bool :=
  blankRanges.any fun range =>
    range.1 ≤ character.toNat && character.toNat ≤ range.2

def trim (text : Text) : Text :=
  ((text.dropWhile isBlank).reverse.dropWhile isBlank).reverse

def collapseFrom (inRun : Bool) : Text → Text
  | [] => []
  | character :: rest =>
      if isBlank character then
        if inRun then collapseFrom true rest else ' ' :: collapseFrom true rest
      else character :: collapseFrom false rest

def collapse (text : Text) : Text := collapseFrom false text

def equivalent (actual expected : Text) : Bool :=
  collapse actual == collapse expected

def endsWithLineBreak (text : Text) : Bool :=
  (text.reverse.takeWhile isBlank).contains '\n'

end ApiSurface.Text
