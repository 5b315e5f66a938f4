import ApiSurface.Fault

/-!
# Release tags and tiers

A release tag says how visible a declaration is.  A tier is one flavour of the
rollup; it shows the declarations whose tag is at least as visible as its threshold,
and those without a tag.
-/

namespace ApiSurface

/-- From the least to the most visible; `untagged` stands before all of them. -/
inductive ReleaseTag where
  | untagged
  | internal
  | alpha
  | beta
  | «public»
  deriving DecidableEq, Repr

namespace ReleaseTag

def rank : ReleaseTag → Nat
  | .untagged => 0
  | .internal => 1
  | .alpha => 2
  | .beta => 3
  | .public => 4

def all : List ReleaseTag := [.untagged, .internal, .alpha, .beta, .public]

def shown : ReleaseTag → String
  | .untagged => "(none)"
  | .internal => "@internal"
  | .alpha => "@alpha"
  | .beta => "@beta"
  | .public => "@public"

private def capitals : ReleaseTag → String
  | .untagged => "NONE"
  | .internal => "INTERNAL"
  | .alpha => "ALPHA"
  | .beta => "BETA"
  | .public => "PUBLIC"

/-- The capital of a character as far as tag names go: besides the ASCII letters
only the dotless i and the long s have an ASCII letter as their capital, and no
character has several letters of a tag name as its capital form. -/
private def capital (character : Char) : Char :=
  if character = Char.ofNat 0x131 then 'I'
  else if character = Char.ofNat 0x17F then 'S'
  else character.toUpper

def ofName (name : String) : Except Fault ReleaseTag :=
  if name.isEmpty then .ok .untagged
  else
    let spelling := String.ofList ((name.toList.dropWhile (· = '@')).map capital)
    match all.find? fun tag => tag.capitals = spelling with
    | some tag => .ok tag
    | none => .error (.problem (.unknownTag name))

def ofDatum (datum : Datum) : Except Fault ReleaseTag :=
  if !datum.present then .ok .untagged
  else
    match datum with
    | .text name => ofName name
    | other => .error (.noOperation other.shape "lstrip")

def least (first second : ReleaseTag) : ReleaseTag :=
  if second.rank < first.rank then second else first

def reaches (tag threshold : ReleaseTag) : Bool :=
  tag = .untagged || threshold.rank ≤ tag.rank

end ReleaseTag

inductive Tier where
  | internal
  | alpha
  | beta
  | «public»
  deriving DecidableEq, Repr

namespace Tier

def all : List Tier := [.internal, .alpha, .beta, .public]

def name : Tier → String
  | .internal => "internal"
  | .alpha => "alpha"
  | .beta => "beta"
  | .public => "public"

def ofName? (name : String) : Option Tier := all.find? fun tier => tier.name = name

def threshold : Tier → ReleaseTag
  | .internal => .internal
  | .alpha => .alpha
  | .beta => .beta
  | .public => .public

def includes (tier : Tier) (tag : ReleaseTag) : Bool := tag.reaches tier.threshold

end Tier

end ApiSurface
