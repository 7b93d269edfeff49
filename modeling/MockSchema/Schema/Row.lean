/-
  MockSchema.Schema.Row — what happens to a row outside of expressions: merging a field's
  value into it, and projecting it in the end.

  A spliced object adds its fields under derived keys: the lead and the key itself if the
  lead ends in `_`, otherwise the lead and the key with its first character capitalised.
  Projection selects fields, gives some of them another name and drops what is then null or has
  an empty key; a later field replaces an earlier one of the same name.
-/

import MockSchema.Schema.Plan
import MockSchema.Store.Source
import MockSchema.Text.Upper

namespace MockSchema

/-- The key of a spliced field. -/
def spliceKey (lead key : String) : String :=
  if lead.toList.getLast? = some '_' then lead ++ key
  else match key.toList with
    | [] => lead
    | c :: cs => lead ++ String.ofList (Text.upper c ++ cs)

namespace Row

/-- Put a field's value into a row; a value that cannot be spliced gives the name of its type. -/
def merge (row : Row) (target : Target) (v : Value) : Except String Row :=
  match target with
  | .plain key => .ok (Dict.put row key v)
  | .splice lead =>
    match v with
    | .null => .ok row
    | .object fields =>
      .ok (fields.foldl (fun row kv => Dict.put row (spliceKey lead kv.1) kv.2) row)
    | v => .error v.typeName

end Row

namespace Projection

def selects (p : Projection) (key : String) : Bool :=
  match p.selection with
  | .all => true
  | .only names => names.contains key
  | .except names => !names.contains key

/-- The name under which a field leaves the row; the last renaming of a key counts. -/
def nameOf (p : Projection) (key : String) : String :=
  match p.renames.reverse.find? (·.inner == key) with
  | some pair => pair.outer.getD key
  | none => key

def apply (p : Projection) (row : Row) : Row :=
  (Dict.ofList ((row.filter (p.selects ·.1)).map fun kv => (p.nameOf kv.1, kv.2))).filter
    fun kv => kv.1 != "" && !kv.2.isNull

end Projection

end MockSchema
