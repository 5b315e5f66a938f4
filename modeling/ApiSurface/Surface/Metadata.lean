import ApiSurface.Datum.Access
import ApiSurface.Release.Tag

/-!
# What is known about a declaration

The flags of the documentation layer are data that only count as true or false.
Every declaration has a signature record.  Accessors that describe one property
share an API item: the setter is ancillary to the getter and has no API item of its
own.
-/

namespace ApiSurface

/-- What the documentation of one declaration says; null under `needsDocumentation`
stands for nothing recorded. -/
structure DocFlags where
  releaseTag : ReleaseTag := .untagged
  documented : Datum := .bool false
  isSealed : Datum := .bool false
  isVirtual : Datum := .bool false
  isOverride : Datum := .bool false
  isEventProperty : Datum := .bool false
  hasDeprecatedBlock : Datum := .bool false
  isPreapproved : Datum := .bool false
  needsDocumentation : Datum := .null

def DocFlags.undocumented (flags : DocFlags) : Datum :=
  if flags.needsDocumentation.isNull then .bool (!flags.documented.present)
  else flags.needsDocumentation

/-- A declaration as it was mentioned: its number, and the form in which the number
was given. -/
structure Mention where
  id : Nat
  form : Datum := .int id

structure Signature where
  documented : Datum := .bool false
  isAncillary : Bool := false
  ancillaries : List Mention := []
  primary : Option Mention := none

def Signature.owner (signature : Signature) (id : Datum) : Except Fault Datum :=
  if signature.isAncillary then
    match signature.primary with
    | some primary => .ok primary.form
    | none => .error (.defect .noPrimary)
  else .ok id

structure ApiItem where
  declaredTag : ReleaseTag := .untagged
  effectiveTag : ReleaseTag := .untagged
  sameAsParent : Bool := false
  isSealed : Bool := false
  isVirtual : Bool := false
  isOverride : Bool := false
  isEventProperty : Bool := false
  preapproved : Datum := .bool false
  hasDeprecatedBlock : Bool := false
  needsDocumentation : Bool := false

def ApiItem.isPreapproved (item : ApiItem) : Bool := item.preapproved.present

def ApiItem.fieldNames : List String :=
  ["declared_release_tag", "effective_release_tag", "release_tag_same_as_parent",
    "is_sealed", "is_virtual", "is_override", "is_event_property", "is_preapproved",
    "has_deprecated_block", "needs_documentation"]

def ApiItem.ofFields (datum : Datum) : Except Fault ApiItem := do
  let entries ← datum.toEntries
  let field (name : String) : Datum :=
    (Datum.named? name entries).getD (.bool false)
  let declared ← ReleaseTag.ofDatum (field "declared_release_tag")
  let effective ← ReleaseTag.ofDatum (field "effective_release_tag")
  let _ ← Datum.knownEntries ApiItem.fieldNames entries
  pure
    { declaredTag := declared
      effectiveTag := effective
      sameAsParent := (field "release_tag_same_as_parent").present
      isSealed := (field "is_sealed").present
      isVirtual := (field "is_virtual").present
      isOverride := (field "is_override").present
      isEventProperty := (field "is_event_property").present
      preapproved := field "is_preapproved"
      hasDeprecatedBlock := (field "has_deprecated_block").present
      needsDocumentation := (field "needs_documentation").present }

def ApiItem.footer (item : ApiItem) : List String :=
  (if !item.sameAsParent &&
    item.effectiveTag ≠ .untagged then [item.effectiveTag.shown] else []) ++
    (if item.isSealed then ["@sealed"] else []) ++
    (if item.isVirtual then ["@virtual"] else []) ++
    (if item.isOverride then ["@override"] else []) ++
    (if item.isEventProperty then ["@eventProperty"] else []) ++
    (if item.hasDeprecatedBlock then ["@deprecated"] else []) ++
    (if item.needsDocumentation then ["(undocumented)"] else [])

end ApiSurface
