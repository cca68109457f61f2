import ImportSupply.Proofs.Binding.ImportSyntax

/-!
# The syntax of declarations

Local declarations as syntax: functions, variables, classes, types, interfaces and enumerations,
which name one thing (`Named`), and variables taken out of a value (`Destructured`). As in imports,
names are all that a statement can bind, and blanks and comments may stand between any two words or
marks. Values are strings.

A declaration has a text (`Declaration.segments`) and the names that it declares
(`Declaration.names`).
-/

namespace ImportSupply.Binding

open Literal

/-! ## Declarations of one name -/

/-- A word in front of the keyword of a declaration. -/
inductive Lead where
  | exported
  | default
  | async
  | abstract
  | const
  deriving DecidableEq

def Lead.word : Lead → String
  | exported => "export"
  | default => "default"
  | async => "async"
  | abstract => "abstract"
  | const => "const"

theorem Lead.isWord_of_mem {lead : Lead} : ∀ c ∈ lead.word.toList, Text.isWord c = true := by
  cases lead <;> decide

theorem isInert_of_isWord {text : List Char} (words : ∀ c ∈ text, Text.isWord c = true) :
    ∀ c ∈ text, isInert c = true :=
  fun c member => isInert_of_accept (by decide) (words c member)

/-- The words in front of a declaration, each with the layout behind it. -/
def leadSegments (leads : List (Lead × Spacing)) : List Segment :=
  leads.flatMap fun lead =>
    .code lead.1.word.toList (isInert_of_isWord Lead.isWord_of_mem) :: lead.2.segments

/-- The words that can stand in front of a declaration of a kind, in their order. -/
def Kind.leads : Kind → List Lead
  | function => [.exported, .default, .async]
  | objectClass => [.exported, .default, .abstract]
  | enumeration => [.exported, .const]
  | _ => [.exported]

/-- What stands between a keyword and the name. -/
inductive Separator where
  | spaced (spacing : Spacing)
  /-- The star of a generator. -/
  | starred (before after : Layout)

namespace Separator

def fits : Separator → Kind → Bool
  | spaced _, _ => true
  | starred _ _, kind => kind == .function

def segments : Separator → List Segment
  | spaced spacing => spacing.segments
  | starred before after => before.segments ++ .code ['*'] inert_star :: after.segments

end Separator

/-- The characters of the parameters of a type: blanks, commas, equals signs, angle brackets and
what names are made of. -/
def isParameterChar (c : Char) : Bool :=
  Text.isBlank c || Name.isTail c || c == ',' || c == '=' || c == '<' || c == '>'

/-- A value behind an equals sign. -/
structure Assigned where
  before : Layout
  after : Layout
  value : Quoted

def Assigned.segments (assigned : Assigned) : List Segment :=
  assigned.before.segments ++ .code ['='] (by decide) ::
    (assigned.after.segments ++ [.quoted assigned.value])

/-- What follows the name of a declaration. -/
inductive Ending where
  /-- `() {}` -/
  | call (before inside between body : Layout)
  /-- `{}` -/
  | block (before body : Layout)
  /-- `= L` -/
  | value (assigned : Assigned)
  /-- `<P> = L` -/
  | parameters (before : Layout) (inner : List Char)
      (allowed : ∀ c ∈ inner, isParameterChar c = true) (assigned : Assigned)

namespace Ending

def fits : Ending → Kind → Bool
  | call _ _ _ _, kind => kind == .function
  | block _ _, kind => kind == .objectClass || kind == .interface || kind == .enumeration
  | value _, kind => kind == .binding || kind == .typeAlias
  | parameters _ _ _ _, kind => kind == .typeAlias

def segments : Ending → List Segment
  | call before inside between body =>
      before.segments ++ .code ['('] (by decide) :: (inside.segments ++ .code [')'] (by decide) ::
        (between.segments ++ .code ['{'] inert_openBrace :: (body.segments ++
          [.code ['}'] inert_closeBrace])))
  | block before body =>
      before.segments ++ .code ['{'] inert_openBrace :: (body.segments ++
        [.code ['}'] inert_closeBrace])
  | value assigned => assigned.segments
  | parameters before inner allowed assigned =>
      before.segments ++ .code ['<'] (by decide) ::
        (.code inner (fun c member => isInert_of_accept (by decide) (allowed c member)) ::
          .code ['>'] (by decide) :: assigned.segments)

end Ending

/-- A declaration of one name. -/
structure Named where
  kind : Kind
  leads : List (Lead × Spacing)
  ordered : (leads.map Prod.fst).Sublist kind.leads
  word : String
  known : word ∈ kind.words
  separator : Separator
  separates : separator.fits kind = true
  bound : Bindable
  ending : Ending
  ends : ending.fits kind = true

/-- The keyword of a declaration. -/
def wordSegment {kind : Kind} {word : String} (known : word ∈ kind.words) : Segment :=
  .code word.toList (isInert_of_isWord (Kind.isWord_of_mem_words known))

namespace Named

/-- A declaration from its keyword on. -/
def heading (named : Named) : List Segment :=
  wordSegment named.known :: (named.separator.segments ++
    named.bound.segment :: named.ending.segments)

def segments (named : Named) : List Segment :=
  leadSegments named.leads ++ named.heading

end Named

/-! ## Destructuring -/

inductive Bracket where
  | curly
  | square

namespace Bracket

def opening : Bracket → Char
  | curly => '{'
  | square => '['

def closing : Bracket → Char
  | curly => '}'
  | square => ']'

end Bracket

/-- The name that a part of a pattern is bound under. -/
structure Retargeting where
  before : Layout
  after : Layout
  target : Bindable

/-- One part of a pattern: `a`, `a: b`, `a = L`, `a: b = L` or `...r`. -/
inductive Element where
  | single (leading : Layout) (own : Bindable) (renamed : Option Retargeting)
      (fallback : Option Assigned) (trailing : Layout)
  | rest (leading between : Layout) (own : Bindable) (trailing : Layout)

namespace Element

def renamedSegments : Option Retargeting → List Segment
  | none => []
  | some renamed =>
      renamed.before.segments ++ .code [':'] (by decide) ::
        (renamed.after.segments ++ [renamed.target.segment])

def fallbackSegments : Option Assigned → List Segment
  | none => []
  | some assigned => assigned.segments

def segments : Element → List Segment
  | single leading own renamed fallback trailing =>
      leading.segments ++ own.segment :: (renamedSegments renamed ++
        (fallbackSegments fallback ++ trailing.segments))
  | rest leading between own trailing =>
      leading.segments ++ .code "...".toList (by decide) ::
        (between.segments ++ own.segment :: trailing.segments)

/-- The name that a part of a pattern declares. -/
def bound : Element → Bindable
  | single _ own none _ _ => own
  | single _ _ (some renamed) _ _ => renamed.target
  | rest _ _ own _ => own

end Element

/-- Variables taken out of a value. -/
structure Destructured where
  exported : Option Spacing
  word : String
  known : word ∈ Kind.binding.words
  between : Layout
  bracket : Bracket
  elements : List Element
  assigned : Assigned

namespace Destructured

def leads (destructured : Destructured) : List (Lead × Spacing) :=
  (destructured.exported.map fun spacing => (Lead.exported, spacing)).toList

/-- The parts of a pattern, with commas between them. -/
def body (destructured : Destructured) : List Segment :=
  [Segment.code [','] inert_comma].intercalate (destructured.elements.map Element.segments)

/-- A declaration from its keyword on. -/
def heading (destructured : Destructured) : List Segment :=
  wordSegment destructured.known :: (destructured.between.segments ++
    .code [destructured.bracket.opening] (by cases destructured.bracket <;> decide) ::
      (destructured.body ++
        .code [destructured.bracket.closing] (by cases destructured.bracket <;> decide) ::
          destructured.assigned.segments))

def segments (destructured : Destructured) : List Segment :=
  leadSegments destructured.leads ++ destructured.heading

end Destructured

/-! ## Scripts of declarations -/

inductive Declaration where
  | named (declaration : Named)
  | destructured (declaration : Destructured)

namespace Declaration

def segments : Declaration → List Segment
  | named declaration => declaration.segments
  | destructured declaration => declaration.segments

def names : Declaration → List String
  | named declaration => [declaration.bound.name]
  | destructured declaration => declaration.elements.map fun element => element.bound.name

end Declaration

/-- A declaration and the layout behind it, a line end as a rule. -/
structure DeclarationLine where
  declaration : Declaration
  trailing : Layout

def DeclarationLine.segments (line : DeclarationLine) : List Segment :=
  line.declaration.segments ++ line.trailing.segments

/-- A script of declarations. -/
def declarationScript (leading : Layout) (lines : List DeclarationLine) : List Segment :=
  leading.segments ++ lines.flatMap DeclarationLine.segments

end ImportSupply.Binding
