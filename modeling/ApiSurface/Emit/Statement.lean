import ApiSurface.Surface.Entity

/-!
# Import and export statements
-/

namespace ApiSurface.Emit

def braced (content : String) : String := "\x7b " ++ content ++ " \x7d"

def renamed (exportName name : String) (same : Bool) : String :=
  if same then exportName else s!"{exportName} as {name}"

def importClause (source : Import) (name : Datum) : Except Fault String :=
  let written := name.plain
  let given := source.exportName.plain
  let path := source.modulePath.plain
  let origin := s!" from '{path}';"
  let same := name.equals source.exportName
  match source.kind with
  | .default =>
    .ok ((if same then given else braced ("default as " ++ written)) ++ origin)
  | .named => .ok (braced (renamed given written same) ++ origin)
  | .star => .ok ("* as " ++ written ++ origin)
  | .equals => .ok (written ++ s!" = require('{path}');")
  | .importType =>
      if !source.exportName.present then .ok ("* as " ++ written ++ origin)
      else do
        let top ← source.topName
        pure (braced (renamed top written (name.equals (.text top))) ++ origin)

def importStatement (source : Import) (name : Datum) : Except Fault Text := do
  let clause ← importClause source name
  pure
    (Text.line
      ((if source.typeOnly then "import type " else "import ") ++ clause).toList)

def exportStatement (entity : Entity) (exportName : Datum) : Text :=
  Text.line <| String.toList <|
    if exportName.equals (.text "default") then
      s!"export default {entity.nameText};"
    else if entity.name.equals exportName then "export " ++ braced exportName.plain
    else "export " ++ braced s!"{entity.nameText} as {exportName.plain}"

def starExports : List Label → Text
  | [] => []
  | modulePaths => Text.line [] ++ modulePaths.flatMap fun path =>
    Text.line s!"export * from \"{path.plain}\";".toList

end ApiSurface.Emit
