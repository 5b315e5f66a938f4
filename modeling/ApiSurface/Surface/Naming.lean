import ApiSurface.Surface.Entity

/-!
# Collision-free names

Every entity gets one name.  Its ideal name is the only name it is exported under,
or else its local name.  An entity keeps an ideal name under which it is exported;
otherwise the first of `x`, `x_1`, `x_2`, … is taken that is neither reserved, nor
global, nor exported by anything, nor given away before.  `default` is never a name.
-/

namespace ApiSurface.Naming

def exportNames : List Key → List Entity → Except Fault (List Key)
  | used, [] => .ok used
  | used, entity :: rest =>
      match entity.exportNames.find? fun name => used.contains name.key with
      | some name => .error (.defect (.duplicateExport name.datum))
      | none => exportNames (used ++ entity.exportNames.map Label.key) rest

def idealName (entity : Entity) : Except Fault Label := do
  let single := entity.singleExportName
  if single.isNull || single.equals (.text "default") then
    Label.ofDatum (← entity.localName)
  else Label.ofDatum single

def candidate (ideal : Label) : Nat → Label
  | 0 => ideal
  | count + 1 => Label.ofText s!"{ideal.plain}_{count + 1}"

/-- The first candidate that is not taken.  One of the first `taken.length + 1`
candidates is free, because they are all different. -/
def freshName (taken : List Key) (ideal : Label) : Label :=
  match (List.range (taken.length + 1)).find? fun count =>
    !taken.contains (candidate ideal count).key with
  | some count => candidate ideal count
  | none => ideal

def keepsIdeal (globals : List Key) (entity : Entity) (ideal : Label) : Bool :=
  Label.among entity.exportNames ideal.key && !globals.contains ideal.key &&
    ideal.key != .text "default"

def assign (globals : List Key) :
    List Key → List Entity → Except Fault (List Entity)
  | _, [] => .ok []
  | used, entity :: rest => do
      let ideal ← idealName entity
      if keepsIdeal globals entity ideal then
        let others ← assign globals used rest
        pure (entity.setName ideal.datum :: others)
      else
        let name := freshName (.text "default" :: used ++ globals) ideal
        let others ← assign globals (used ++ [name.key]) rest
        pure (entity.setName name.datum :: others)

def nameAll (globals : List Key) (entities : List Entity) :
    Except Fault (List Entity) := do
  let used ← exportNames [] entities
  assign globals used entities

end ApiSurface.Naming
