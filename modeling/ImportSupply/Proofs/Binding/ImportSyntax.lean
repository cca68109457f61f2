import ImportSupply.Proofs.Binding.Found
import ImportSupply.Proofs.Literal.Layout

/-!
# The syntax of imports and re-exports

Import statements and re-exports as syntax: the names they bind, the words and marks between them,
and the blanks and comments that may stand anywhere between two of these. Names are all that a
statement can bind, ASCII identifiers and keywords among them. Where two words meet there is some
layout between them (`Spacing`), elsewhere there may be some (`Layout`); only the words `as` and
`type` of a specifier have a space of their own next to them.

A statement has a text (`Statement.segments`) and names that it binds (`Statement.names`).
-/

namespace ImportSupply.Binding

open Literal

/-! ## Marks and names -/

theorem inert_star : ∀ c ∈ ['*'], isInert c = true := by
  decide

theorem inert_comma : ∀ c ∈ [','], isInert c = true := by
  decide

theorem inert_openBrace : ∀ c ∈ ['{'], isInert c = true := by
  decide

theorem inert_closeBrace : ∀ c ∈ ['}'], isInert c = true := by
  decide

/-- A name that a statement can bind. -/
structure Bindable where
  text : List Char
  bindable : Name.isBindable text = true

namespace Bindable

def name (bound : Bindable) : String :=
  String.ofList bound.text

theorem isTail_of_mem (bound : Bindable) {c : Char} (member : c ∈ bound.text) :
    Name.isTail c = true :=
  (Name.isBindable_iff.mp bound.bindable).2 c member

theorem ne_nil (bound : Bindable) : bound.text ≠ [] :=
  Kind.ne_nil_of_isBindable bound.bindable

def segment (bound : Bindable) : Segment :=
  .code bound.text fun _ member => isInert_of_accept (by decide) (bound.isTail_of_mem member)

@[simp]
theorem display_segment (bound : Bindable) : bound.segment.display = bound.text :=
  rfl

end Bindable

/-! ## Lists in braces -/

/-- The word `as` of a specifier and the name behind it. -/
structure Renaming where
  before : Layout
  after : Layout
  outer : Bindable

/-- One specifier of a list: `x`, `x as y`, `type x` or `type x as y`. Without the word `type` in
front of it, no specifier gives the name `type` another name. -/
structure Specifier where
  leading : Layout
  typed : Option Layout
  own : Bindable
  renamed : Option Renaming
  trailing : Layout
  clear : typed = none → renamed ≠ none → own.text ≠ "type".toList

/-- One place of a list: a specifier, or nothing as behind a last comma. -/
inductive Slot where
  | vacant (layout : Layout)
  | named (specifier : Specifier)

def Renaming.segments (renamed : Renaming) : List Segment :=
  renamed.before.segments ++ .code " as ".toList (by decide) ::
    (renamed.after.segments ++ [renamed.outer.segment])

namespace Specifier

/-- The word `type` in front of a name, with its space. -/
def typeSegments (specifier : Specifier) : List Segment :=
  match specifier.typed with
  | none => []
  | some layout => .code "type ".toList (by decide) :: layout.segments

/-- What stands behind a name that is bound under another one. -/
def renamedSegments (specifier : Specifier) : List Segment :=
  match specifier.renamed with
  | none => []
  | some renamed => renamed.segments

def segments (specifier : Specifier) : List Segment :=
  specifier.leading.segments ++ (specifier.typeSegments ++
    (specifier.own.segment :: specifier.renamedSegments)) ++ specifier.trailing.segments

/-- The name that a specifier binds. -/
def bound (specifier : Specifier) : Bindable :=
  match specifier.renamed with
  | none => specifier.own
  | some renamed => renamed.outer

end Specifier

namespace Slot

def segments : Slot → List Segment
  | vacant layout => layout.segments
  | named specifier => specifier.segments

def names : Slot → Option String
  | vacant _ => none
  | named specifier => some specifier.bound.name

end Slot

/-! ## Statements -/

/-- What a statement binds beside a default name, with the layout behind it. -/
inductive Target where
  /-- `{ x, y as z }` -/
  | list (slots : List Slot) (trailing : Layout)
  /-- `* as N` -/
  | star (before : Layout) (after : Spacing) (bound : Bindable) (trailing : Spacing)

/-- The clause of an import, with the layout around it. -/
inductive Clause where
  /-- `D` -/
  | default (leading : Spacing) (bound : Bindable) (trailing : Spacing)
  /-- `{ x }` or `* as N` -/
  | bare (leading : Layout) (target : Target)
  /-- `D, { x }` or `D, * as N` -/
  | both (leading : Spacing) (bound : Bindable) (before after : Layout) (target : Target)

/-- An import statement or a re-export. -/
inductive Statement where
  /-- `import 'm'` -/
  | effect (gap : Layout) (source : Quoted)
  /-- `import D, { x } from 'm'`, perhaps with `type` behind `import` -/
  | imports (typed : Option Spacing) (clause : Clause) (gap : Layout) (source : Quoted)
  /-- `export { x } from 'm'` or `export * as N from 'm'`, perhaps with `type` behind `export` -/
  | reexports (typed : Option Spacing) (leading : Layout) (target : Target) (gap : Layout)
      (source : Quoted)
  /-- `export * from 'm'` -/
  | everything (leading trailing gap : Layout) (source : Quoted)

/-- The slots of a list, with commas between them. -/
def listSegments (slots : List Slot) : List Segment :=
  [Segment.code [','] inert_comma].intercalate (slots.map Slot.segments)

namespace Target

def segments : Target → List Segment
  | list slots trailing =>
      .code ['{'] inert_openBrace :: (listSegments slots ++ .code ['}'] inert_closeBrace ::
        trailing.segments)
  | star before after bound trailing =>
      .code ['*'] inert_star :: (before.segments ++ .code "as".toList (by decide) ::
        (after.segments ++ bound.segment :: trailing.segments))

def names : Target → List String
  | list slots _ => slots.filterMap Slot.names
  | star _ _ bound _ => [bound.name]

end Target

namespace Clause

/-- The layout in front of a clause. -/
def leading : Clause → Layout
  | default leading _ _ => leading.layout
  | bare leading _ => leading
  | both leading _ _ _ _ => leading.layout

/-- A clause from its first word or mark to the word behind it. -/
def segments : Clause → List Segment
  | default _ bound trailing => bound.segment :: trailing.segments
  | bare _ target => target.segments
  | both _ bound before after target =>
      bound.segment :: (before.segments ++ .code [','] inert_comma ::
        (after.segments ++ target.segments))

def names : Clause → List String
  | default _ bound _ => [bound.name]
  | bare _ target => target.names
  | both _ bound _ _ target => target.names ++ [bound.name]

end Clause

/-- The word `type` behind the keyword of a statement. -/
def typeSegments : Option Spacing → List Segment
  | none => []
  | some spacing => spacing.segments ++ [.code "type".toList (by decide)]

namespace Statement

/-- A statement up to the string of its module. -/
def opening : Statement → List Segment
  | effect gap _ => .code "import".toList (by decide) :: gap.segments
  | imports typed clause gap _ =>
      .code "import".toList (by decide) :: (typeSegments typed ++ (clause.leading.segments ++
        (clause.segments ++ .code "from".toList (by decide) :: gap.segments)))
  | reexports typed leading target gap _ =>
      .code "export".toList (by decide) :: (typeSegments typed ++ (leading.segments ++
        (target.segments ++ .code "from".toList (by decide) :: gap.segments)))
  | everything leading trailing gap _ =>
      .code "export".toList (by decide) :: (leading.segments ++ .code ['*'] inert_star ::
        (trailing.segments ++ .code "from".toList (by decide) :: gap.segments))

def source : Statement → Quoted
  | effect _ source => source
  | imports _ _ _ source => source
  | reexports _ _ _ _ source => source
  | everything _ _ _ source => source

def segments (statement : Statement) : List Segment :=
  statement.opening ++ [.quoted statement.source]

/-- The names that a statement imports. -/
def imported : Statement → List String
  | imports _ clause _ _ => clause.names
  | _ => []

/-- The names that a statement re-exports. -/
def reexported : Statement → List String
  | reexports _ _ target _ _ => target.names
  | _ => []

/-- The names that a statement binds. -/
def names (statement : Statement) : List String :=
  statement.imported ++ statement.reexported

end Statement

/-- A statement and the layout behind it, a line end as a rule. -/
structure StatementLine where
  statement : Statement
  trailing : Layout

def StatementLine.segments (line : StatementLine) : List Segment :=
  line.statement.segments ++ line.trailing.segments

/-- A script of imports and re-exports. -/
def scriptOf (leading : Layout) (lines : List StatementLine) : List Segment :=
  leading.segments ++ lines.flatMap StatementLine.segments

end ImportSupply.Binding
