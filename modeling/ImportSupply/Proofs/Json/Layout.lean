import ImportSupply.Json.Printer
import ImportSupply.Json.Reader
import Mathlib.Data.List.Basic
import Mathlib.Tactic.Common

/-!
# Layouts of JSON values

`Written value text` says that a text writes a value: its strings are escaped in the one way of the
printer, and any space may stand between two tokens. Numbers are left out, so it speaks of the
values that hold none (`Value.Fits`). Both layouts of the printer write the value they are given.
-/

namespace ImportSupply.Json

/-- Nothing but the characters that may stand between tokens. -/
def Spaces (text : List Char) : Prop :=
  ∀ c ∈ text, Reader.isSpace c = true

theorem spaces_nil : Spaces [] :=
  fun _ member => absurd member List.not_mem_nil

/-- What stands before an item or a member: space before the first one, and before a later one a
comma with space around it. -/
inductive Lead : (first : Bool) → List Char → Prop
  | first {space : List Char} : Spaces space → Lead true space
  | later {before behind : List Char} : Spaces before → Spaces behind →
      Lead false (before ++ ',' :: behind)

mutual

/-- A text that writes a value. -/
inductive Written : Value → List Char → Prop
  | null : Written .null "null".toList
  | bool (value : Bool) : Written (.bool value) (writeBool value)
  | string (text : String) : Written (.string text) (writeString text)
  | array {items : List Value} {inside : List Char} : WrittenItems true items inside →
      Written (.array items) ('[' :: inside)
  | object {members : List (String × Value)} {inside : List Char} :
      WrittenMembers true members inside → Written (.object members) ('\x7b' :: inside)

/-- The items of an array, the first one or a later one to start with, and its end. -/
inductive WrittenItems : (first : Bool) → List Value → List Char → Prop
  | done {first : Bool} {space : List Char} : Spaces space → WrittenItems first [] (space ++ [']'])
  | more {first : Bool} {item : Value} {items : List Value} {lead text inside : List Char} :
      Lead first lead → Written item text → WrittenItems false items inside →
      WrittenItems first (item :: items) (lead ++ (text ++ inside))

/-- A key, a colon and a value. -/
inductive WrittenMember : String × Value → List Char → Prop
  | pair {key : String} {value : Value} {before behind text : List Char} :
      Spaces before → Spaces behind → Written value text →
      WrittenMember (key, value) (writeString key ++ (before ++ ':' :: (behind ++ text)))

/-- The members of an object, the first one or a later one to start with, and its end. -/
inductive WrittenMembers : (first : Bool) → List (String × Value) → List Char → Prop
  | done {first : Bool} {space : List Char} :
      Spaces space → WrittenMembers first [] (space ++ ['\x7d'])
  | more {first : Bool} {member : String × Value} {members : List (String × Value)}
      {lead text inside : List Char} :
      Lead first lead → WrittenMember member text → WrittenMembers false members inside →
      WrittenMembers first (member :: members) (lead ++ (text ++ inside))

end

/-! ## Lists with a separator -/

section Separated

variable {α : Type} {close : Char} {piece : α → List Char → Prop}
  {listed : Bool → List α → List Char → Prop} {layout : α → List Char}
  {separator space : List Char}

/-- A list whose pieces stand between separators, closed by a bracket. -/
theorem listed_intercalate
    (done : ∀ {first space}, Spaces space → listed first [] (space ++ [close]))
    (more : ∀ {first item items lead text inside}, Lead first lead → piece item text →
      listed false items inside → listed first (item :: items) (lead ++ (text ++ inside)))
    (separates : Lead false separator) (blank : Spaces space) {items : List α} :
    ∀ {first : Bool} {lead : List Char} {item : α}, Lead first lead →
      (∀ each ∈ item :: items, piece each (layout each)) →
      listed first (item :: items)
        (lead ++ (separator.intercalate ((item :: items).map layout) ++ (space ++ [close]))) := by
  -- the first item stands apart: what leads to it is given, and to all others the separator leads
  induction items with
  | nil =>
    intro first lead item leads pieces
    rw [List.map_singleton, List.intercalate_singleton]
    exact more leads (pieces item List.mem_cons_self) (done blank)
  | cons next items ih =>
    intro first lead item leads pieces
    rw [List.map_cons, List.map_cons, List.intercalate_cons_cons, List.append_assoc,
      List.append_assoc, ← List.map_cons]
    exact more leads (pieces item List.mem_cons_self)
      (ih separates fun each member => pieces each (List.mem_cons_of_mem _ member))

end Separated

theorem compactItems_eq (items : List Value) :
    compactItems items = [','].intercalate (items.map Value.compact) := by
  induction items with
  | nil => rfl
  | cons item items ih =>
    cases items with
    | nil => simp [compactItems]
    | cons next items => rw [compactItems, ih]; simp [List.intercalate_cons_cons]

theorem compactMembers_eq (members : List (String × Value)) :
    compactMembers members =
      [','].intercalate
        (members.map fun member => writeString member.1 ++ ':' :: member.2.compact) := by
  induction members with
  | nil => rfl
  | cons member members ih =>
    cases members with
    | nil => simp [compactMembers]
    | cons next members => rw [compactMembers, ih]; simp [List.intercalate_cons_cons]

theorem indentedItems_eq (level : Nat) (items : List Value) :
    indentedItems level items =
      (',' :: newLine level).intercalate (items.map (Value.indented level)) := by
  induction items with
  | nil => rfl
  | cons item items ih =>
    cases items with
    | nil => simp [indentedItems]
    | cons next items => rw [indentedItems, ih]; simp [List.intercalate_cons_cons]

theorem indentedMembers_eq (level : Nat) (members : List (String × Value)) :
    indentedMembers level members =
      (',' :: newLine level).intercalate
        (members.map fun member =>
          writeString member.1 ++ ':' :: ' ' :: member.2.indented level) := by
  induction members with
  | nil => rfl
  | cons member members ih =>
    cases members with
    | nil => simp [indentedMembers]
    | cons next members => rw [indentedMembers, ih]; simp [List.intercalate_cons_cons]

/-! ## The two layouts -/

/-- A value that holds no number, and at most so many arrays and objects inside one another. -/
inductive Value.Fits : Nat → Value → Prop
  | null {depth : Nat} : Fits depth .null
  | bool {depth : Nat} (value : Bool) : Fits depth (.bool value)
  | string {depth : Nat} (text : String) : Fits depth (.string text)
  | array {depth : Nat} {items : List Value} :
      (∀ item ∈ items, Fits depth item) → Fits (depth + 1) (.array items)
  | object {depth : Nat} {members : List (String × Value)} :
      (∀ member ∈ members, Fits depth member.2) → Fits (depth + 1) (.object members)

theorem spaces_newLine (level : Nat) : Spaces (newLine level) := by
  intro c member
  rw [newLine, List.mem_cons, List.mem_replicate] at member
  obtain rfl | ⟨-, rfl⟩ := member <;> rfl

theorem spaces_blank : Spaces [' '] := by
  intro c member
  obtain rfl := List.mem_singleton.mp member
  rfl

namespace Value.Fits

variable {value : Value} {depth : Nat}

theorem array_map {α : Type} {write : α → Value} (fits : ∀ value, (write value).Fits depth)
    (values : List α) : (Value.array (values.map write)).Fits (depth + 1) := by
  refine .array ?_
  rw [List.forall_mem_map]
  exact fun value _ => fits value

theorem written_compact (fits : value.Fits depth) : Written value value.compact := by
  induction fits with
  | null => exact .null
  | bool value => exact .bool value
  | string text => exact .string text
  | @array _ items _ ih =>
    rw [Value.compact, compactItems_eq]
    cases items with
    | nil => exact .array (.done spaces_nil)
    | cons item items =>
      exact .array
        (listed_intercalate .done .more (.later spaces_nil spaces_nil) spaces_nil
          (.first spaces_nil) ih)
  | @object _ members _ ih =>
    rw [Value.compact, compactMembers_eq]
    cases members with
    | nil => exact .object (.done spaces_nil)
    | cons member members =>
      exact .object
        (listed_intercalate .done .more (.later spaces_nil spaces_nil) spaces_nil
          (.first spaces_nil)
          fun each member => .pair spaces_nil spaces_nil (ih each member))

theorem written_indented (fits : value.Fits depth) (level : Nat) :
    Written value (value.indented level) := by
  induction fits generalizing level with
  | null => exact .null
  | bool value => exact .bool value
  | string text => exact .string text
  | @array _ items _ ih =>
    cases items with
    | nil => exact .array (.done spaces_nil)
    | cons item items =>
      rw [Value.indented, indentedItems_eq, List.append_assoc, List.append_assoc]
      exact .array
        (listed_intercalate .done .more (.later spaces_nil (spaces_newLine _)) (spaces_newLine _)
          (.first (spaces_newLine _)) fun each member => ih each member _)
  | @object _ members _ ih =>
    cases members with
    | nil => exact .object (.done spaces_nil)
    | cons member members =>
      rw [Value.indented, indentedMembers_eq, List.append_assoc, List.append_assoc]
      exact .object
        (listed_intercalate .done .more (.later spaces_nil (spaces_newLine _)) (spaces_newLine _)
          (.first (spaces_newLine _))
          fun each member => .pair spaces_nil spaces_blank (ih each member _))

end Value.Fits

end ImportSupply.Json
