import ImportSupply.Glob.Parser

/-!
# Filters

A filter accepts the paths that one of its globs accepts. Globs whose expressions nest too deeply
make no filter. Which of them is reported, and how, depends on the kinds of the globs: plain texts
with a wildcard before or behind them need no expression at all; globs that end with an extension
are taken up first, each alone; the others are taken up together and known by their numbers.
-/

namespace ImportSupply.Glob

/-- Why globs make no filter. -/
inductive Fault where
  /-- A glob cannot be read. -/
  | unreadable (text : String) (flaw : Flaw)
  /-- A glob that ends with an extension nests too deeply; it is shown spelled out. -/
  | deepAlone (spelling : String)
  /-- One of the globs taken up together nests too deeply. -/
  | deepAmong (number : Nat)
  deriving DecidableEq, Repr

/-- The wording of a fault. -/
def Fault.message : Fault → String
  | unreadable text flaw => "error parsing glob '" ++ text ++ "': " ++ flaw.message
  | deepAlone spelling => "error parsing glob '" ++ spelling ++ "': error parsing pattern 0"
  | deepAmong number => "error parsing pattern " ++ Nat.repr number

/-! ## Kinds of globs -/

/-- The text of tokens that are all literals. -/
def literalText? (tokens : List Token) : Option (List Char) :=
  tokens.mapM Token.literal?

/-- Whether tokens are a text of at least one character. -/
def isText (tokens : List Token) : Bool :=
  (literalText? tokens).any fun text => !text.isEmpty

/-- Whether tokens are a text that is more than a slash. -/
def isEnding (tokens : List Token) : Bool :=
  (literalText? tokens).any fun text => !text.isEmpty && text != ['/']

/-- Whether tokens are a text that may go on: with anything, or below. -/
def isBeginning (tokens : List Token) : Bool :=
  match tokens.reverse with
  | .star :: before => isText before
  | .trailing :: before => before.all fun token => token.literal?.isSome
  | _ => isText tokens

/-- Whether tokens are a text with a wildcard before or behind it at most. -/
def isPlain : List Token → Bool
  | .leading :: .star :: rest => isEnding rest
  | .leading :: rest => isText rest
  | .star :: rest => isEnding rest
  | tokens => isBeginning tokens

/-- Whether tokens, given last first, begin with a name's extension and its dot. -/
def endsExtension : List Token → Bool
  | .literal '/' :: _ => false
  | .literal '.' :: _ => true
  | .literal _ :: before => endsExtension before
  | _ => false

/-- How a glob is taken up. -/
inductive Kind where
  | plain
  | withExtension
  | general
  deriving DecidableEq, Repr

/-- How a glob is taken up. -/
def kind (glob : Glob) : Kind :=
  if isPlain glob.tokens then .plain
  else if endsExtension glob.tokens.reverse then .withExtension
  else .general

/-! ## Making filters -/

/-- How deep an expression may nest. -/
def depthLimit : Nat :=
  250

/-- Whether a glob nests too deeply, with the row of the whole glob counted. -/
def isDeep (glob : Glob) : Bool :=
  depthLimit < 1 + depthInRow glob.row

/-- A glob spelled out. -/
def spelling (glob : Glob) : String :=
  String.ofList ("(?-u)^".toList ++ spellRow glob.row ++ ['$'])

/-- Paths that one of some globs accepts. -/
structure Filter where
  globs : List Glob

/-- The filter of some globs, unless one of them nests too deeply. -/
def Filter.ofGlobs (globs : List Glob) : Except Fault Filter :=
  match globs.find? fun glob => glob.kind == .withExtension && glob.isDeep with
  | some glob => .error (.deepAlone glob.spelling)
  | none =>
      match (globs.filter fun glob => glob.kind == .general).findIdx? isDeep with
      | some number => .error (.deepAmong number)
      | none => .ok ⟨globs⟩

/-- Whether a filter accepts a path. -/
def Filter.accepts (filter : Filter) (path : String) : Bool :=
  filter.globs.any (·.accepts path)

end ImportSupply.Glob
