import ImportSupply.Json.Outline

/-!
# Records in JSON

A record is read from an object by its fields' names, or from an array by their order. Fields that
are not known are skipped; a known field may stand once, and one that is required must stand.
-/

namespace ImportSupply.Json

/-- One field of a record: how its value is read into the record. -/
structure Field (ρ : Type) where
  name : String
  required : Bool
  read : Outline → Except Complaint (ρ → ρ)

/-- A record: what messages call it, its fields in order, and its value before any is read. -/
structure Record (ρ : Type) where
  title : String
  fields : List (Field ρ)
  unread : ρ

namespace Record

variable {ρ : Type}

/-- What messages call the record given as an array. -/
def lengthTitle (record : Record ρ) : String :=
  record.title ++ " with " ++ Nat.repr record.fields.length ++ " elements"

/-- The end of an array that held all fields: one item more is too many. -/
def finishItems (value : ρ) : Items → Except Complaint ρ
  | .done => .ok value
  | .broken fault =>
      .error
        (if fault.onReading = .expectedListEnd then .trailingCharacters else fault.onReading)
  | .more _ _ => .error .trailingCharacters

/-- Reads fields from an array, in order; those missing at its end keep their default. -/
def readItems (record : Record ρ) :
    (index : Nat) → List (Field ρ) → Items → ρ → Except Complaint ρ
  | _, [], items, value => finishItems value items
  | index, field :: fields, .done, value =>
      if field.required then .error (.wrongLength index record.lengthTitle)
      else record.readItems (index + 1) fields .done value
  | _, _ :: _, .broken fault, _ => .error fault.onReading
  | index, field :: fields, .more item rest, value => do
      let update ← field.read item
      record.readItems (index + 1) fields rest (update value)

/-- The end of an object: the first required field that was not seen is missing. -/
def finishMembers (record : Record ρ) (seen : List String) (value : ρ) : Except Complaint ρ :=
  match record.fields.find? fun field => field.required && !seen.contains field.name with
  | some field => .error (.missingField field.name)
  | none => .ok value

/-- Reads fields from an object, in its order. -/
def readMembers (record : Record ρ) : (seen : List String) → Members → ρ → Except Complaint ρ
  | seen, .done, value => record.finishMembers seen value
  | _, .broken fault, _ => .error fault.onReading
  | seen, .more key item rest, value => do
      let name ← key
      match record.fields.find? fun field => field.name == name with
      | none =>
          item.skip
          record.readMembers seen rest value
      | some field =>
          if seen.contains name then .error (.duplicateField name)
          else
            let update ← field.read item
            record.readMembers (name :: seen) rest (update value)

/-- Reads a record from an object only. -/
def readObject (record : Record ρ) : Outline → Except Complaint ρ
  | .object members => record.readMembers [] members record.unread
  | other => .error (other.wrongType record.title)

/-- Reads a record from an object or from an array. -/
def read (record : Record ρ) : Outline → Except Complaint ρ
  | .array items => record.readItems 0 record.fields items record.unread
  | other => record.readObject other

end Record

end ImportSupply.Json
