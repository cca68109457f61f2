/-!
# The modes of a script scan

Scanning a script keeps a stack of modes: the mode of the text at hand on top, the modes it returns
to below. The bottom of the stack is plain code.
-/

namespace ImportSupply.Literal

/-- The two quotes that delimit a plain string. -/
inductive Quote where
  | single
  | double
  deriving DecidableEq, Repr

/-- The character a quote is written with. -/
def Quote.char : Quote → Char
  | .single => '\''
  | .double => '"'

/-- What the text at hand is part of. -/
inductive Mode where
  /-- Code outside every literal. -/
  | code
  /-- A comment that ends with its line. -/
  | lineComment
  /-- A comment that ends with `*/`. -/
  | blockComment
  /-- The body of a plain string. -/
  | quoted (quote : Quote)
  /-- The static text of a template. -/
  | template
  /-- Code in an interpolation of a template, inside so many open braces. -/
  | interpolation (depth : Nat)
  deriving DecidableEq, Repr

/-- The mode of the text at hand; of no modes at all, plain code. -/
def Mode.top (stack : List Mode) : Mode :=
  stack.headD .code

/-- A character that a masked text does not show: line ends stay, all else is a space. -/
def blank (c : Char) : Char :=
  if c = '\n' ∨ c = '\r' then c else ' '

end ImportSupply.Literal
