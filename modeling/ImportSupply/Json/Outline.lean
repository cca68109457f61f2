import ImportSupply.Json.Magnitude
import ImportSupply.Text.Quoted

/-!
# Outlines of JSON texts

The outline of a text is the tree of its values up to the point where the text breaks, with the
fault left in the tree at that point. Whoever goes through an outline from left to right meets a
value of the wrong shape and a fault of the text in the order in which they stand.

A text can be *read* or *skipped*, and the two complain differently: skipping is content with what
it need not understand, and expects a value or a key where reading sees that a comma was one too
many.
-/

namespace ImportSupply.Json

/-- A place where a text breaks: what reading and what skipping complains of there. -/
structure Fault where
  onReading : Complaint
  onSkipping : Complaint
  deriving DecidableEq, Repr

/-- A fault that reading and skipping see alike. -/
def Fault.plain (complaint : Complaint) : Fault :=
  ⟨complaint, complaint⟩

mutual

/-- A value as far as its text goes. A string whose escapes make no text carries the complaint that
reading it raises. -/
inductive Outline where
  | null
  | bool (value : Bool)
  | number (value : Numeral)
  | string (text : Except Complaint String)
  | array (items : Items)
  | object (members : Members)
  | broken (fault : Fault)

/-- The items of an array, up to its end or a fault. -/
inductive Items where
  | done
  | broken (fault : Fault)
  | more (item : Outline) (rest : Items)

/-- The members of an object, up to its end or a fault. -/
inductive Members where
  | done
  | broken (fault : Fault)
  | more (key : Except Complaint String) (value : Outline) (rest : Members)

end

mutual

/-- Skips a value: only a fault of the text is an obstacle. -/
def Outline.skip : Outline → Except Complaint Unit
  | .array items => items.skip
  | .object members => members.skip
  | .broken fault => .error fault.onSkipping
  | _ => .ok ()

/-- Skips the items of an array. -/
def Items.skip : Items → Except Complaint Unit
  | .done => .ok ()
  | .broken fault => .error fault.onSkipping
  | .more item rest => do
      item.skip
      rest.skip

/-- Skips the members of an object. -/
def Members.skip : Members → Except Complaint Unit
  | .done => .ok ()
  | .broken fault => .error fault.onSkipping
  | .more _ value rest => do
      value.skip
      rest.skip

end

mutual

/-- Reads a value of any shape, where `room` arrays and objects may still be opened inside one
another. -/
def Outline.read (room : Nat) : Outline → Except Complaint Value
  | .null => .ok .null
  | .bool value => .ok (.bool value)
  | .number value => do
      let _ ← value.magnitude
      return .number value
  | .string text => text.map .string
  | .array items =>
      if room ≤ 1 then .error .tooDeep else (items.read (room - 1)).map .array
  | .object members =>
      if room ≤ 1 then .error .tooDeep else (members.read (room - 1)).map .object
  | .broken fault => .error fault.onReading

/-- Reads the items of an array. -/
def Items.read (room : Nat) : Items → Except Complaint (List Value)
  | .done => .ok []
  | .broken fault => .error fault.onReading
  | .more item rest => do
      let first ← item.read room
      let others ← rest.read room
      return first :: others

/-- Reads the members of an object. -/
def Members.read (room : Nat) : Members → Except Complaint (List (String × Value))
  | .done => .ok []
  | .broken fault => .error fault.onReading
  | .more key value rest => do
      let name ← key
      let first ← value.read room
      let others ← rest.read room
      return (name, first) :: others

end

mutual

/-- The outline of a value's text. -/
def Value.outline : Value → Outline
  | .null => .null
  | .bool value => .bool value
  | .number value => .number value
  | .string text => .string (.ok text)
  | .array items => .array (outlineItems items)
  | .object members => .object (outlineMembers members)

/-- The outlines of an array's items. -/
def outlineItems : List Value → Items
  | [] => .done
  | item :: rest => .more item.outline (outlineItems rest)

/-- The outlines of an object's members. -/
def outlineMembers : List (String × Value) → Members
  | [] => .done
  | (key, value) :: rest => .more (.ok key) value.outline (outlineMembers rest)

end

/-- How many arrays and objects a text may open inside one another, plus one. -/
def depthLimit : Nat :=
  128

namespace Outline

/-- The complaint about a value of another type than is asked for. Words, numbers and strings are
read first, so that their own faults come first; arrays and objects are not opened. -/
def wrongType (want : String) : Outline → Complaint
  | .null => .wrongType "null" want
  | .bool value => .wrongType (if value then "boolean `true`" else "boolean `false`") want
  | .number value =>
      match value.magnitude with
      | .ok magnitude => .wrongType magnitude.describe want
      | .error complaint => complaint
  | .string (.ok text) => .wrongType ("string " ++ Text.quoted text) want
  | .string (.error complaint) => complaint
  | .array _ => .wrongType "sequence" want
  | .object _ => .wrongType "map" want
  | .broken fault => fault.onReading

/-- Reads a truth value. -/
def readBool : Outline → Except Complaint Bool
  | .bool value => .ok value
  | other => .error (other.wrongType "a boolean")

/-- Reads a string that stands for what is named. -/
def readText (want : String) : Outline → Except Complaint String
  | .string text => text
  | other => .error (other.wrongType want)

/-- Reads a string. -/
def readString : Outline → Except Complaint String :=
  readText "a string"

/-- Reads a string or null. -/
def readString? : Outline → Except Complaint (Option String)
  | .null => .ok none
  | other => other.readString.map some

end Outline

/-- Reads every item of an array the same way. -/
def Items.readEach {α : Type} (readItem : Outline → Except Complaint α) :
    Items → Except Complaint (List α)
  | .done => .ok []
  | .broken fault => .error fault.onReading
  | .more item rest => do
      let first ← readItem item
      let others ← rest.readEach readItem
      return first :: others

/-- Reads an array whose items are read the same way. -/
def Outline.readList {α : Type} (readItem : Outline → Except Complaint α) :
    Outline → Except Complaint (List α)
  | .array items => items.readEach readItem
  | other => .error (other.wrongType "a sequence")

end ImportSupply.Json
