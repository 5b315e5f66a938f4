import ApiSurface.Message
import ApiSurface.Surface.Declaration

/-!
# Accessor groups and API items

A setter is ancillary to the first getter of the same symbol.  Declarations that are
not ancillary have an API item, computed in the order of their numbers so that the
item of a parent is there before those of its members.  A declaration without a
release tag takes that of its parent, or is public when it has none; outside symbols
keep what they declare.
-/

namespace ApiSurface

abbrev Signatures := List (Nat × Signature)

abbrev ApiItems := List (Nat × ApiItem)

/-! ## Ancillary declarations -/

namespace Signatures

def record (signatures : Signatures) (id : Nat) : Except Fault Signature :=
  match signatures.lookup id with
  | some signature => .ok signature
  | none => .error (.missingKey (.int id))

def ancillaryDefect? (primary ancillary : Signature) (sameSymbol : Bool) :
    Option Defect :=
  if !sameSymbol then some .ancillaryOfOtherSymbol
  else if primary.isAncillary then some .ancillaryToAncillary
  else if ancillary.isAncillary then some .alreadyAncillary
  else if !ancillary.ancillaries.isEmpty then some .ancillaryWithOwn
  else none

def setPrimary (primary : Mention) (signature : Signature) : Signature :=
  { signature with isAncillary := true, primary := some primary }

def addAncillary (ancillary : Mention) (signature : Signature) : Signature :=
  { signature with ancillaries := signature.ancillaries ++ [ancillary] }

def update (change : Signature → Signature) (id : Nat) (signatures : Signatures) :
    Signatures :=
  signatures.map fun entry =>
    if entry.1 = id then (entry.1, change entry.2) else entry

def attach (signatures : Signatures) (sameSymbol : Bool)
    (primary ancillary : Mention) : Except Fault Signatures := do
  let target ← signatures.record primary.id
  let source ← signatures.record ancillary.id
  if target.ancillaries.any fun other => other.id = ancillary.id then
    pure signatures
  else
    match ancillaryDefect? target source sameSymbol with
    | some defect => throw (.defect defect)
    | none =>
      pure
        (update (addAncillary ancillary) primary.id
          (update (setPrimary primary) ancillary.id signatures))

end Signatures

namespace Inventory

def sameSymbol (inventory : Inventory) (first second : Nat) : Bool :=
  match inventory.declaration? first, inventory.declaration? second with
  | some one, some other => one.symbol.key = other.symbol.key
  | _, _ => false

def signatures (inventory : Inventory) (graph : ModuleGraph) : Signatures :=
  inventory.allDeclarations.map fun declaration =>
    (declaration.id, { documented := (graph.flagsFor declaration.node).documented })

def getterFor? (declarations : List Declaration) (setter : Declaration) :
    Option Declaration :=
  declarations.find? fun sibling =>
    sibling.id ≠ setter.id && sibling.kind = .getAccessor

def accessorPairs (inventory : Inventory) (symbol : Symbol) : List (Nat × Nat) :=
  let declarations := inventory.declarationsOf symbol.key
  (declarations.filter fun declaration =>
    declaration.kind = .setAccessor).filterMap fun setter =>
    (getterFor? declarations setter).map fun getter => (getter.id, setter.id)

def groupAccessors (inventory : Inventory) (graph : ModuleGraph) :
    Except Fault Signatures :=
  (inventory.symbols.flatMap inventory.accessorPairs).foldlM
    (fun signatures pair =>
      signatures.attach (inventory.sameSymbol pair.1 pair.2)
        { id := pair.1 } { id := pair.2 })
    (inventory.signatures graph)

end Inventory

/-! ## API items -/

def Declaration.issue (declaration : Declaration) (id text : String) : Issue :=
  { id := .text id
    text := .text text
    location := some declaration.site.location
    declaration := .int declaration.id }

def effectiveTag (flags : DocFlags) (external : Bool) (parent : Option ApiItem) :
    ReleaseTag :=
  if flags.releaseTag = .untagged && !external then
    match parent with
    | some item => item.effectiveTag
    | none => .public
  else flags.releaseTag

def apiItem (flags : DocFlags) (kind : NodeKind) (external : Bool)
    (parent : Option ApiItem) : ApiItem :=
  let tag := effectiveTag flags external parent
  { declaredTag := flags.releaseTag
    effectiveTag := tag
    sameAsParent :=
      (parent.map fun item => decide (item.effectiveTag = tag)).getD false
    isSealed := flags.isSealed.present
    isVirtual := flags.isVirtual.present
    isOverride := flags.isOverride.present
    isEventProperty := flags.isEventProperty.present
    preapproved :=
      if flags.isPreapproved.present && !kind.isPreapprovable then .bool false
      else flags.isPreapproved
    hasDeprecatedBlock := flags.hasDeprecatedBlock.present
    needsDocumentation := flags.undocumented.present }

abbrev Inspecting := StateT Router (Except Fault)

def record (issue : Issue) : Inspecting Unit := do
  let router ← get
  let message ← router.judge issue
  set (router.add message)

def setterWithDocs (declaration : Declaration) : Issue :=
  declaration.issue "ae-setter-with-docs"
    (s!"The doc comment for the property \"{declaration.symbol.name.plain}\"" ++
      " must appear on the getter, not the setter.")

def preapprovedUnsupported (declaration : Declaration) : Issue :=
  declaration.issue "ae-preapproved-unsupported-type"
    (s!"The @preapproved tag cannot be applied to \"{declaration.symbol.name.plain}\"" ++
      " because it is not a supported declaration type")

def parentItem (items : ApiItems) (declaration : Declaration) :
    Except Fault (Option ApiItem) :=
  match declaration.parent with
  | none => .ok none
  | some parent =>
      match items.lookup parent with
      | some item => .ok (some item)
      | none => .error (.missingKey (.int parent))

def addApiItem (graph : ModuleGraph) (signatures : Signatures) (items : ApiItems)
    (declaration : Declaration) : Inspecting ApiItems := do
  let signature ← signatures.record declaration.id
  if signature.isAncillary then
    if declaration.kind = .setAccessor && signature.documented.present then
      record (setterWithDocs declaration)
    pure items
  else
    let flags := graph.flagsFor declaration.node
    let parent ← parentItem items declaration
    if flags.isPreapproved.present && !declaration.kind.isPreapprovable then
      record (preapprovedUnsupported declaration)
    pure
      (items ++
        [(declaration.id,
          apiItem flags declaration.kind declaration.symbol.external parent)])

def apiItems (graph : ModuleGraph) (signatures : Signatures) :
    ApiItems → List Declaration → Inspecting ApiItems
  | items, [] => pure items
  | items, declaration :: rest => do
      let items ← addApiItem graph signatures items declaration
      apiItems graph signatures items rest

end ApiSurface
