import Mathlib.Data.List.Basic

/-! `body::form_data`, the fields of a parsed `multipart/form-data` body and the queries on them.
Every query looks a name up with `std::find_if`, so the first field of a name answers for all
fields of that name.
-/

namespace Httplib.Body

/-- `form_data::field`. -/
structure Field where
  name : List Char
  filename : List Char
  contentType : List Char
  content : List Char
  deriving DecidableEq, Repr

/-- `field::has_data`: the content is not empty. -/
def Field.hasData (f : Field) : Bool :=
  !f.content.isEmpty

/-- `field::is_file`: the part named a file. -/
def Field.isFile (f : Field) : Bool :=
  !f.filename.isEmpty

/-- `form_data`: the fields in body order, and the boundary. -/
structure FormData where
  fields : List Field
  boundary : List Char
  deriving DecidableEq, Repr

/-- `form_data::field_by_name`: the first field of that name. -/
def FormData.fieldByName (d : FormData) (fieldName : List Char) : Option Field :=
  d.fields.find? (·.name = fieldName)

/-- `form_data::has_data`: a field of that name exists. -/
def FormData.hasData (d : FormData) (fieldName : List Char) : Bool :=
  (d.fieldByName fieldName).isSome

/-- `form_data::has_content`: the first field of that name has data. -/
def FormData.hasContent (d : FormData) (fieldName : List Char) : Bool :=
  match d.fieldByName fieldName with
  | none => false
  | some field => field.hasData

/-- `form_data::content`: the first field's content, `none` when it is empty. -/
def FormData.content (d : FormData) (fieldName : List Char) : Option (List Char) :=
  match d.fieldByName fieldName with
  | none => none
  | some field => if !field.hasData then none else some field.content

/-- One field's lines in `form_data::dump`. -/
def dumpField (field : Field) : List Char :=
  field.name ++ ":\n".toList ++ "  type     = ".toList ++ field.contentType ++ "\n".toList
    ++ "  filename = ".toList ++ field.filename ++ "\n".toList
    ++ "  content  = ".toList ++ field.content ++ "\n".toList ++ "\n".toList

/-- `form_data::dump`: the fields with data, in order; the others are skipped. -/
def FormData.dump (d : FormData) : List Char :=
  d.fields.flatMap fun field => if !field.hasData then [] else dumpField field

-----------------------------------------------------------------------------------------
-- The first field of a name answers
-----------------------------------------------------------------------------------------

/-- A field `a` with content `1`. -/
def firstA : Field :=
  ⟨"a".toList, [], "text/plain".toList, "1".toList⟩

/-- A second field `a`, with content `2`. -/
def secondA : Field :=
  ⟨"a".toList, [], "text/plain".toList, "2".toList⟩

end Httplib.Body
