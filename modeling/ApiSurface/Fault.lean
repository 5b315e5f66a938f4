import ApiSurface.Datum.Printer
import ApiSurface.Text.Basic
import ApiSurface.Tree.Kind

/-!
# Faults

Everything that can stop the program, by cause.  A `Defect` is a broken invariant
between the front end and this library; generating one document may meet a defect
while the others are still written.  A `Problem` is something wrong with what the
user supplied.  The remaining faults say that data did not have the shape that was
asked of it.
-/

namespace ApiSurface

inductive Defect where
  | outsideParent (child : NodeKind) (start stop : Datum) (parent : NodeKind)
    (parentStart parentStop : Datum)
  | overlapsSibling (child previous : NodeKind)
  | unnamed (kind : NodeKind) (text : Text)
  | notADeclaration (kind : NodeKind)
  | declaredTwice (node : String) (symbol : Datum)
  | unknownEntity (key : Datum)
  | nestedExport (name : Datum)
  | duplicateExport (name : Datum)
  | analyzedTwice
  | unknownDeclaration (id : Datum)
  | memberNotFound (kind : NodeKind) (owner : Datum)
  | noSignature (id : Datum)
  | noPrimary
  | noApiItem (id : Datum)
  | ancillaryOfOtherSymbol
  | ancillaryToAncillary
  | alreadyAncillary
  | ancillaryWithOwn
  | invalidTypeArguments (text : Text)
  | noNameForEmit (entity : Datum)
  | unsupportedVariable

namespace Defect

def reason : Defect → String
  | .outsideParent child start stop parent parentStart parentStop =>
      s!"{child.name} at {start.plain}:{stop.plain} lies outside its parent" ++
        s!" {parent.name} at {parentStart.plain}:{parentStop.plain}"
  | .overlapsSibling child previous =>
    s!"{child.name} overlaps its previous sibling {previous.name}"
  | .unnamed kind text =>
      "Unable to determine the name of " ++ kind.name ++ ": " ++
        Text.quoted (String.ofList text)
  | .notADeclaration kind => s!"{kind.name} is not a supported declaration kind"
  | .declaredTwice node symbol =>
    s!"The node {node} was declared twice (\"{symbol.plain}\")"
  | .unknownEntity key =>
    s!"The binding refers to an unknown entity \"{key.plain}\""
  | .nestedExport name => s!"The export \"{name.plain}\" refers to a nested member"
  | .duplicateExport name =>
    s!"A package cannot have two exports with the name \"{name.plain}\""
  | .analyzedTwice => "Collector.analyze() was called more than once"
  | .unknownDeclaration id => s!"Unknown declaration id {id.plain}"
  | .memberNotFound kind owner =>
    s!"Child declaration not found for {kind.name} under \"{owner.plain}\""
  | .noSignature id => s!"No signature metadata for declaration {id.plain}"
  | .noPrimary => "Ancillary declaration has no primary declaration"
  | .noApiItem id => s!"No API item metadata for declaration {id.plain}"
  | .ancillaryOfOtherSymbol =>
      "Invalid ancillary declaration: " ++
        "the declarations do not belong to the same symbol"
  | .ancillaryToAncillary =>
    "Invalid ancillary declaration: the target is ancillary itself"
  | .alreadyAncillary =>
      "Invalid ancillary declaration: " ++
        "the source is already ancillary to another declaration"
  | .ancillaryWithOwn =>
      "Invalid ancillary declaration: " ++
        "the source has ancillary declarations of its own"
  | .invalidTypeArguments text => "Invalid type arguments:\n" ++ String.ofList text
  | .noNameForEmit entity => s!"The entity \"{entity.plain}\" has no name_for_emit"
  | .unsupportedVariable => "Unsupported variable declaration"

def message (defect : Defect) : String := "Internal Error: " ++ defect.reason

end Defect

inductive Problem where
  | textAndChildren (kind : NodeKind)
  | duplicateLabel (label : Datum)
  | unknownLabel (label : Datum)
  | unnamedPackage
  | missingEntry (part key : String) (entry : Datum)
  | invalidTreeEntry (entry : Datum)
  | unsupportedKind (kind : Datum)
  | unsupportedImport (kind : Datum)
  | unknownFlags (names : List String)
  | unknownTag (name : String)
  | notPairs (index length : Nat)
  | duplicateSymbol (key : Datum)
  | duplicateEntity (key : Datum)
  | invalidLevel (level : Datum) (message : Datum)
  | invalidNewline (name : Datum)
  | invalidNewlineSetting (value : Datum)
  | messagesNotAMap
  | unreadableSettings (path : String)
  | unreadableDump (path : String)
  | dumpNotAMap (path : String)
  | notAMember (value : Datum) (set : String)
  | notAWholeNumber (value : Datum)
  | undefinedNumber
  | tooManyDigits (count : Nat)
  | noCharacter

namespace Problem

def message : Problem → String
  | .textAndChildren kind => s!"{kind.name} cannot have both text and children"
  | .duplicateLabel label => s!"Duplicate node reference \"{label.plain}\""
  | .unknownLabel label => s!"Unknown node reference \"{label.plain}\""
  | .unnamedPackage => "The front-end dump has no \"package.name\""
  | .missingEntry part key entry =>
      s!"Entry in \"{part}\" is missing \"{key}\": {entry.shown}"
  | .invalidTreeEntry entry => s!"Invalid tree entry: {entry.shown}"
  | .unsupportedKind kind => s!"Unsupported syntax kind \"{kind.plain}\""
  | .unsupportedImport kind => s!"Unsupported import kind \"{kind.plain}\""
  | .unknownFlags names => "Unknown doc flags: " ++ ", ".intercalate names
  | .unknownTag name => s!"Unknown release tag \"{name}\""
  | .notPairs index length =>
      s!"dictionary update sequence element #{index} has length {length}; 2 is required"
  | .duplicateSymbol key => s!"Duplicate symbol key \"{key.plain}\""
  | .duplicateEntity key => s!"Duplicate entity key \"{key.plain}\""
  | .invalidLevel level message =>
    s!"Invalid log_level \"{level.plain}\" for message \"{message.plain}\""
  | .invalidNewline name =>
    s!"Invalid newline_kind \"{name.plain}\". Expected \"lf\", \"crlf\" or \"os\"."
  | .invalidNewlineSetting value =>
      s!"Invalid newline_kind \"{value.plain}\". Expected one of: lf, crlf, os"
  | .messagesNotAMap => "The \"messages\" setting must be an object"
  | .unreadableSettings path => s!"Failed to parse config file {path}"
  | .unreadableDump path => s!"Failed to parse front-end dump {path}"
  | .dumpNotAMap path => s!"Front-end dump {path} must contain a mapping"
  | .notAMember value set => s!"{value.shown} is not a valid {set}"
  | .notAWholeNumber value => "invalid literal for int() with base 10: " ++
    String.ofList (value.shown.toList.take 200)
  | .undefinedNumber => "cannot convert float NaN to integer"
  | .tooManyDigits count =>
      "Exceeds the limit (4300 digits) for integer string conversion:" ++
        s!" value has {count} digits;" ++
        " use sys.set_int_max_str_digits() to increase the limit"
  | .noCharacter => "chr() arg not in range(0x110000)"

/-- The message ends without a line break, because the details of the failure would
follow. -/
def isCut : Problem → Bool
  | .unreadableSettings _ | .unreadableDump _ => true
  | _ => false

end Problem

inductive Fault where
  | defect (cause : Defect)
  | problem (cause : Problem)
  | settingsNotFound (path : String)
  | dumpNotFound (path : String)
  | noOperation (shape operation : String)
  | wrongShape (detail : String)
  | missingKey (key : Datum)
  | emptyList
  | malformedData
  | overflow (detail : String)

namespace Fault

def message : Fault → String
  | .defect cause => cause.message
  | .problem cause => cause.message
  | .settingsNotFound path => s!"Config file not found: {path}"
  | .dumpNotFound path => s!"Front-end dump not found: {path}"
  | .noOperation shape operation =>
    "'" ++ shape ++ "' object has no attribute '" ++ operation ++ "'"
  | .wrongShape detail => detail
  | .missingKey key => key.shown
  | .emptyList => "list index out of range"
  | .malformedData => "Expecting value"
  | .overflow detail => detail

/-- The fault of a code beyond the last character; the largest codes are no numbers
of the machine either. -/
def noCharacter (code : Nat) : Fault :=
  if code < 0x80000000 then .problem .noCharacter
  else .overflow "Python int too large to convert to C int"

def noKey (datum : Datum) : Fault :=
  .wrongShape ("unhashable type: '" ++ datum.shape ++ "'")

def notAPath (datum : Datum) : Fault :=
  .wrongShape ("expected str, bytes or os.PathLike object, not " ++ datum.shape)

def notJoinable (datum : Datum) : Fault :=
  .wrongShape
    ("sequence item 0: expected str instance, " ++ datum.shape ++ " found")

def notIndexed (datum : Datum) : Fault :=
  .wrongShape ("'" ++ datum.shape ++ "' object is not subscriptable")

def notIterable (datum : Datum) : Fault :=
  .wrongShape ("'" ++ datum.shape ++ "' object is not iterable")

end Fault

end ApiSurface
