import ApiSurface.Overlay.Span

/-!
# Edits

An edit says how one span is written: with another lead or tail, without its
children, without its separator, with its children sorted.  An assignment of edits
gives every address of a tree its edit; it never changes the tree.
-/

namespace ApiSurface

/-- What was handed over for a span that its edit cannot hold: pieces that are no
texts, where null stands for none, and flags that count as false without being
false. -/
structure Given where
  lead : Datum := .null
  tail : Datum := .null
  sortKey : Datum := .null
  omitChildren : Datum := .bool false
  omitSeparator : Datum := .bool false

structure Edit where
  lead : Option Text := none
  tail : Option Text := none
  omitChildren : Bool := false
  omitSeparator : Bool := false
  sortChildren : Bool := false
  sortKey : Option Text := none
  given : Given := {}

namespace Edit

def skipped (edit : Edit) : Bool :=
  edit.omitChildren && edit.omitSeparator && edit.lead == some [] &&
    edit.tail == some []

def skippedForm (edit : Edit) : Datum :=
  if !edit.omitChildren then edit.given.omitChildren
  else if !edit.omitSeparator then edit.given.omitSeparator
  else .bool edit.skipped

def leadForm (edit : Edit) (span : Span) : Datum :=
  if edit.given.lead.isNull then .text (String.ofList (edit.lead.getD span.lead))
  else edit.given.lead

def tailForm (edit : Edit) (span : Span) : Datum :=
  if edit.given.tail.isNull then .text (String.ofList (edit.tail.getD span.tail))
  else edit.given.tail

end Edit

abbrev Edits := Path → Edit

namespace Edits

def none : Edits := fun _ => {}

def below (edits : Edits) (index : Nat) : Edits := fun path => edits (index :: path)

def within (edits : Edits) (path : Path) : Edits :=
  fun inner => edits (path ++ inner)

end Edits

abbrev Change := Edit → Edit

namespace Change

def reset : Change := fun _ => {}

def skip : Change := fun edit =>
  { edit with
    lead := some []
    tail := some []
    omitChildren := true
    omitSeparator := true
    given := { edit.given with lead := .null, tail := .null } }

def setLead (text : Text) : Change := fun edit =>
  { edit with lead := some text, given := { edit.given with lead := .null } }

def setTail (text : Text) : Change := fun edit =>
  { edit with tail := some text, given := { edit.given with tail := .null } }

def prepend (text : Text) (span : Span) : Change := fun edit =>
  { edit with lead := some (text ++ edit.lead.getD span.lead) }

def omitSeparator : Change := fun edit => { edit with omitSeparator := true }

def omitChildren : Change := fun edit => { edit with omitChildren := true }

def sortChildren : Change := fun edit => { edit with sortChildren := true }

def setSortKey (key : Text) : Change :=
  fun edit => { edit with sortKey := some key }

/-! ### Values of any form -/

def giveLead (value : Datum) : Change :=
  match value with
  | .text text => setLead text.toList
  | .null => fun edit =>
    { edit with lead := none, given := { edit.given with lead := .null } }
  | other => fun edit =>
    { edit with
      lead := some other.characters
      given := { edit.given with lead := other } }

private def giveTail (value : Datum) : Change :=
  match value with
  | .text text => setTail text.toList
  | .null => fun edit =>
    { edit with tail := none, given := { edit.given with tail := .null } }
  | other => fun edit =>
    { edit with
      tail := some other.characters
      given := { edit.given with tail := other } }

/-- Null takes the sort key away; a value that counts as absent is an empty key. -/
private def giveSortKey (value : Datum) : Change := fun edit =>
  match value with
  | .null =>
    { edit with sortKey := none, given := { edit.given with sortKey := .null } }
  | .text text =>
    { edit with
      sortKey := some text.toList
      given := { edit.given with sortKey := .null } }
  | other =>
      { edit with
        sortKey := some []
        given :=
          { edit.given with sortKey := if other.present then other else .null } }

private def giveOmitChildren (value : Datum) : Change := fun edit =>
  { edit with
    omitChildren := value.present
    given := { edit.given with omitChildren := value } }

private def giveOmitSeparator (value : Datum) : Change := fun edit =>
  { edit with
    omitSeparator := value.present
    given := { edit.given with omitSeparator := value } }

def give (name : String) (value : Datum) : Change :=
  match name with
  | "prefix" => giveLead value
  | "suffix" => giveTail value
  | "omit_children" => giveOmitChildren value
  | "omit_separator_after" => giveOmitSeparator value
  | "sort_children" => fun edit => { edit with sortChildren := value.present }
  | "sort_key" => giveSortKey value
  | _ => id

end Change

abbrev Changes := List (Path × Change)

def Edits.apply (changes : Changes) (edits : Edits) : Edits := fun path =>
  changes.foldl (fun edit change =>
    if change.1 = path then change.2 edit else edit) (edits path)

def Changes.edits (changes : Changes) : Edits := Edits.none.apply changes

end ApiSurface
