import ImportSupply.Proofs.Binding.DeclarationSyntax
import ImportSupply.Proofs.Export.PartReading

/-!
# The syntax of exports

Export statements as syntax: declarations of one name and default exports (`Naming`), lists of names
with or without a module they come from (`Listing`), and `export * from 'm'`. As in imports, blanks
and comments may stand between any two words or marks. Names are of word characters; of the reserved
words only `export` and `enum` have to be kept apart (`IsOrdinary`).

A statement has a text (`Statement.segments`) and makes entries (`Statement.entries`): a declaration
one of its name, a default export one of `default` under its name, a list one for each exported name
but `default`, and what comes from another module none.
-/

namespace ImportSupply.Export

open Literal

/-! ## Keywords -/

/-- The words between `export` and a name. -/
inductive Keyword where
  | declare
  | default
  | async
  | abstract
  | const
  | letWord
  | var
  | function
  | objectClass
  | typeAlias
  | interface
  | enumeration
  deriving DecidableEq

namespace Keyword

def word : Keyword → String
  | declare => "declare"
  | default => "default"
  | async => "async"
  | abstract => "abstract"
  | const => "const"
  | letWord => "let"
  | var => "var"
  | function => "function"
  | objectClass => "class"
  | typeAlias => "type"
  | interface => "interface"
  | enumeration => "enum"

theorem isWord_of_mem {keyword : Keyword} : ∀ c ∈ keyword.word.toList, Text.isWord c = true := by
  cases keyword <;> decide

def segment (keyword : Keyword) : Segment :=
  .code keyword.word.toList (Binding.isInert_of_isWord isWord_of_mem)

end Keyword

/-- The forms of exports that make entries. -/
inductive Form where
  | declared (kind : Binding.Kind)
  | default
  | list
  deriving DecidableEq

/-- The keywords of an export of one name, in their order. -/
def Form.keywords : Form → List (List Keyword)
  | declared .binding =>
      [[.const], [.letWord], [.var], [.declare, .const], [.declare, .letWord], [.declare, .var]]
  | declared .function =>
      [[.function], [.async, .function], [.declare, .function], [.declare, .async, .function]]
  | declared .objectClass =>
      [[.objectClass], [.abstract, .objectClass], [.declare, .objectClass],
        [.declare, .abstract, .objectClass]]
  | declared .enumeration =>
      [[.enumeration], [.const, .enumeration], [.declare, .enumeration],
        [.declare, .const, .enumeration]]
  | declared .typeAlias => [[.typeAlias], [.declare, .typeAlias]]
  | declared .interface => [[.interface], [.declare, .interface]]
  | default =>
      [[.default, .function], [.default, .async, .function], [.default, .objectClass],
        [.default, .abstract, .objectClass]]
  | list => []

/-! ## Exports of one name -/

/-- A name of word characters that is none of two reserved words. -/
structure IsOrdinary (bound : Binding.Bindable) : Prop where
  isWord : ∀ c ∈ bound.text, Text.isWord c = true
  ne_export : bound.text ≠ "export".toList
  ne_enum : bound.text ≠ "enum".toList

/-- What can follow the name behind a keyword: `() {}`, `{}` or `= L`. -/
def endsBehind (keyword : Keyword) : Binding.Ending → Bool
  | .call _ _ _ _ => keyword = .function
  | .block _ _ => keyword = .objectClass || keyword = .interface || keyword = .enumeration
  | .value _ =>
      keyword = .const || keyword = .letWord || keyword = .var || keyword = .typeAlias
  | .parameters _ _ _ _ => false

/-- What can separate the last keyword of a form from the name: layout, or the star of a declared
generator. -/
def separatesIn (form : Form) : Binding.Separator → Bool
  | .spaced _ => true
  | .starred _ _ => form = .declared .function

/-- An export of one name: `export const N = L`, `export default function N() {}` and so on. -/
structure Naming where
  form : Form
  gap : Spacing
  leads : List (Keyword × Spacing)
  keyword : Keyword
  known : leads.map Prod.fst ++ [keyword] ∈ form.keywords
  separator : Binding.Separator
  separates : separatesIn form separator = true
  bound : Binding.Bindable
  ordinary : IsOrdinary bound
  ending : Binding.Ending
  ends : endsBehind keyword ending = true

namespace Naming

/-- The words in front of the last keyword, each with the layout behind it. -/
def leadSegments (leads : List (Keyword × Spacing)) : List Segment :=
  leads.flatMap fun lead => lead.1.segment :: lead.2.segments

/-- What stands between `export` and the name. -/
def opening (naming : Naming) : List Segment :=
  leadSegments naming.leads ++ naming.keyword.segment :: naming.separator.segments

/-- An export of one name behind the word `export` and its layout. -/
def body (naming : Naming) : List Segment :=
  naming.opening ++ naming.bound.segment :: naming.ending.segments

/-- The entry that an export of a name makes. -/
def entryOf? (source : String) (types : Bool) : Form → String → Option Entry
  | .declared .typeAlias, name => if types then some (.type name source) else none
  | .declared .interface, name => if types then some (.type name source) else none
  | .declared _, name => some (.value name source)
  | .default, name => some (defaultEntry source name)
  | .list, _ => none

end Naming

/-! ## Lists -/

/-- A slot whose names are ordinary. -/
def IsOrdinarySlot : Binding.Slot → Prop
  | .vacant _ => True
  | .named specifier =>
      IsOrdinary specifier.own ∧ ∀ renamed ∈ specifier.renamed, IsOrdinary renamed.outer

/-- The module that a list comes from, and the layout around the word `from`. -/
structure Origin where
  before : Layout
  after : Layout
  source : Quoted

theorem inert_from : ∀ c ∈ "from".toList, isInert c = true := by
  decide

theorem inert_export : ∀ c ∈ "export".toList, isInert c = true := by
  decide

/-- A list of exported names: `export { a, b as c }`, perhaps with `type` in front of it or a module
behind it. -/
structure Listing where
  gap : Spacing
  typed : Option Spacing
  slots : List Binding.Slot
  ordinary : ∀ slot ∈ slots, IsOrdinarySlot slot
  origin : Option Origin

namespace Listing

/-- The word `type` in front of a list. -/
def typeSegments : Option Spacing → List Segment
  | none => []
  | some spacing => Keyword.typeAlias.segment :: spacing.segments

def originSegments : Option Origin → List Segment
  | none => []
  | some origin =>
      origin.before.segments ++ .code "from".toList inert_from ::
        (origin.after.segments ++ [.quoted origin.source])

/-- A list behind the word `export` and its layout. -/
def body (listing : Listing) : List Segment :=
  typeSegments listing.typed ++ .code ['{'] Binding.inert_openBrace ::
    (Binding.listSegments listing.slots ++ .code ['}'] Binding.inert_closeBrace ::
      originSegments listing.origin)

/-- The entry of one slot of a list. -/
def entryOf? (source : String) (listIsType types : Bool) : Binding.Slot → Option Entry
  | .vacant _ => none
  | .named specifier =>
      if specifier.bound.name = "default" then none
      else if specifier.typed.isSome || listIsType then
        if types then some (.type specifier.bound.name source) else none
      else some (.value specifier.bound.name source)

def entries (listing : Listing) (source : String) (types : Bool) : List Entry :=
  match listing.origin with
  | none => listing.slots.filterMap (entryOf? source listing.typed.isSome types)
  | some _ => []

end Listing

/-! ## Statements -/

/-- An export statement. -/
inductive Statement where
  | named (naming : Naming)
  | listed (listing : Listing)
  /-- `export * from 'm'` -/
  | everything (gap : Spacing) (origin : Origin)

namespace Statement

/-- The layout behind the word `export`. -/
def gap : Statement → Spacing
  | named naming => naming.gap
  | listed listing => listing.gap
  | everything gap _ => gap

/-- A statement behind the word `export` and its layout. -/
def body : Statement → List Segment
  | named naming => naming.body
  | listed listing => listing.body
  | everything _ origin =>
      .code ['*'] Binding.inert_star :: Listing.originSegments (some origin)

def segments (statement : Statement) : List Segment :=
  .code "export".toList inert_export :: (statement.gap.segments ++ statement.body)

/-- The form of a statement that makes entries. -/
def form? : Statement → Option Form
  | named naming => some naming.form
  | listed _ => some .list
  | everything _ _ => none

/-- The entries that a statement makes under a module's specifier; types only if they are wanted. -/
def entries (source : String) (types : Bool) : Statement → List Entry
  | named naming => (Naming.entryOf? source types naming.form naming.bound.name).toList
  | listed listing => listing.entries source types
  | everything _ _ => []

end Statement

/-- A statement and the layout behind it, a line end as a rule. -/
structure StatementLine where
  statement : Statement
  trailing : Layout

def StatementLine.segments (line : StatementLine) : List Segment :=
  line.statement.segments ++ line.trailing.segments

/-- A script of exports. -/
def exportScript (leading : Layout) (lines : List StatementLine) : List Segment :=
  leading.segments ++ lines.flatMap StatementLine.segments

end ImportSupply.Export
