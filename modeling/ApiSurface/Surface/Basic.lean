import ApiSurface.Surface.Grouping
import ApiSurface.Surface.Naming
import ApiSurface.Surface.Reach

/-!
# The surface of a package

The surface holds everything that the documents are written from: the declarations,
what they refer to, the entities with their names, and what is known about each
declaration.
-/

namespace ApiSurface

structure Surface where
  graph : ModuleGraph
  inventory : Inventory
  references : References
  entities : List Entity
  starExports : List Label
  signatures : Signatures
  items : ApiItems
  router : Router

namespace Surface

/-! ## Declarations -/

def declaration (surface : Surface) (id : Datum) : Except Fault Declaration := do
  let key ← id.key
  match surface.inventory.allDeclarations.find? fun declaration =>
    .whole declaration.id = key with
  | some declaration => pure declaration
  | none => throw (.defect (.unknownDeclaration id))

def member (owner : Declaration) (node : Node) : Except Fault Declaration :=
  match owner.members.find? fun declaration => declaration.node.id = node.id with
  | some declaration => .ok declaration
  | none => .error (.defect (.memberNotFound node.kind owner.symbol.name))

def declarationsOf (surface : Surface) (key : Key) : List Declaration :=
  surface.inventory.declarationsOf key

def declarationsOfEntity (surface : Surface) (entity : Entity) : List Declaration :=
  match entity.subject with
  | .symbol label _ => surface.declarationsOf label.key
  | .imported _ _ => []

/-! ## Entities -/

def entity? (surface : Surface) (id : EntityId) : Option Entity :=
  surface.entities.find? fun entity => entity.subject.id = id

/-- The first entity that denotes something; what the entities after it denote is
not asked. -/
def entityFor (surface : Surface) (key : Datum) : Except Fault (Option Entity) :=
  surface.entities.findM? fun entity => do pure ((← entity.subject.key).equals key)

def replaceEntity (surface : Surface) (entity : Entity) : Surface :=
  { surface with
    entities := surface.entities.map fun other =>
      if other.subject.id = entity.subject.id then entity else other }

def entityForNode (surface : Surface) (node : Node) :
    Except Fault (Option Entity) :=
  match surface.graph.resolve? node with
  | none => .ok none
  | some key => do
      let subject ← surface.inventory.lookup key
      pure (surface.entity? subject.id)

def writtenName (entity : Entity) : Except Fault Datum := do
  if entity.name.present then pure entity.name
  else throw (.defect (.noNameForEmit (← entity.localName)))

/-! ## Metadata -/

def signature (surface : Surface) (id : Datum) : Except Fault Signature := do
  let key ← id.key
  match surface.signatures.find? fun entry => .whole entry.1 = key with
  | some entry => pure entry.2
  | none => throw (.defect (.noSignature id))

def itemFor (surface : Surface) (id : Datum) : Except Fault ApiItem := do
  let owner ← (← surface.signature id).owner id
  match surface.items.find? fun entry => some (.whole entry.1) = owner.key? with
  | some entry => pure entry.2
  | none => throw (.defect (.noApiItem owner))

def item (surface : Surface) (id : Nat) : Except Fault ApiItem :=
  surface.itemFor (.int id)

def maxReleaseTag (surface : Surface) (key : Key) : Except Fault ReleaseTag :=
  (surface.declarationsOf key).foldlM (fun highest declaration => do
      let tag := (← surface.item declaration.id).effectiveTag
      pure (if highest.rank < tag.rank then tag else highest))
    .untagged

/-- The messages that a report shows at a declaration; those of ancillary
declarations are shown at their primary. -/
def reviewMessages (surface : Surface) (id : Datum) :
    Except Fault (List Message) := do
  let signature ← surface.signature id
  if signature.isAncillary then pure []
  else
    let key ← id.key
    pure
      (surface.router.forReview (key :: signature.ancillaries.map fun other =>
        .whole other.id))

def recorded (surface : Surface) (id : Datum) : Except Fault Mention := do
  let key ← id.key
  match surface.signatures.find? fun entry => .whole entry.1 = key with
  | some entry => pure { id := entry.1, form := id }
  | none => throw (.missingKey id)

def attach (surface : Surface) (primary ancillary : Datum) :
    Except Fault Surface := do
  let primary ← surface.recorded primary
  let ancillary ← surface.recorded ancillary
  let signatures ←
    surface.signatures.attach
      (surface.inventory.sameSymbol primary.id ancillary.id) primary ancillary
  pure { surface with signatures := signatures }

end Surface

end ApiSurface
