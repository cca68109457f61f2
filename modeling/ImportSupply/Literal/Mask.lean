import ImportSupply.Literal.Mode

/-!
# Masked scripts

Masking shows code and delimiters and blanks the rest. A cursor goes through a script from left to
right, one to three characters at a time, and adds what shows for them to a buffer. What it does at
a place depends on the mode there, the character at hand and the two behind it.
-/

namespace ImportSupply.Literal

/-- What a scan does at a place: how many characters it reads, the modes behind them, and what
shows for them. -/
structure Move where
  count : Nat
  stack : List Mode
  shown : List Char
  forward : 0 < count := by decide

namespace Move

/-- In executable code a comment, a string or a template may open, and braces are counted inside an
interpolation. -/
def inCode (stack : List Mode) (c : Char) (next : Option Char) : Move :=
  match c, next, stack with
  | '/', some '/', _ => { count := 2, stack := .lineComment :: stack, shown := [' ', ' '] }
  | '/', some '*', _ => { count := 2, stack := .blockComment :: stack, shown := [' ', ' '] }
  | '\'', _, _ => { count := 1, stack := .quoted .single :: stack, shown := [c] }
  | '"', _, _ => { count := 1, stack := .quoted .double :: stack, shown := [c] }
  | '\x60', _, _ => { count := 1, stack := .template :: stack, shown := [c] }
  -- braces count only where one of them can end the interpolation
  | '{', _, .interpolation depth :: below =>
      { count := 1, stack := .interpolation (depth + 1) :: below, shown := [c] }
  | '}', _, .interpolation 0 :: below => { count := 1, stack := below, shown := [c] }
  | '}', _, .interpolation (depth + 1) :: below =>
      { count := 1, stack := .interpolation depth :: below, shown := [c] }
  | _, _, _ => { count := 1, stack, shown := [c] }

/-- A backslash in a plain string hides the next character. It shows before a line end, so that the
masked string goes on behind it, too. -/
def atBackslash (stack : List Mode) (next second : Option Char) : Move :=
  match next, second with
  | some '\r', some '\n' => { count := 3, stack, shown := ['\\', '\r', '\n'] }
  | some '\n', _ => { count := 2, stack, shown := ['\\', '\n'] }
  | some '\r', _ => { count := 2, stack, shown := ['\\', '\r'] }
  | some escaped, _ => { count := 2, stack, shown := [' ', blank escaped] }
  | none, _ => { count := 1, stack, shown := [' '] }

/-- A plain string ends at its quote or, unclosed, with its line. -/
def inString (quote : Quote) (stack : List Mode) (c : Char) (next second : Option Char) : Move :=
  if c = '\\' then atBackslash stack next second
  else if c = quote.char then { count := 1, stack := stack.tail, shown := [c] }
  else if c = '\n' then { count := 1, stack := stack.tail, shown := [c] }
  else { count := 1, stack, shown := [blank c] }

/-- In static template text a backslash hides the next character, a backtick ends the template, and
`$` before a brace opens an interpolation. -/
def inTemplate (stack : List Mode) (c : Char) (next : Option Char) : Move :=
  match c, next with
  -- two characters are passed even where the script ends behind the backslash
  | '\\', _ => { count := 2, stack, shown := ' ' :: (next.map blank).toList }
  | '\x60', _ => { count := 1, stack := stack.tail, shown := [c] }
  | '$', some '{' => { count := 2, stack := .interpolation 0 :: stack, shown := ['$', '{'] }
  | _, _ => { count := 1, stack, shown := [blank c] }

/-- What a scan does at a character, given its modes and the next two characters. -/
def ofStack (stack : List Mode) (c : Char) (next second : Option Char) : Move :=
  match Mode.top stack with
  | .lineComment =>
      { count := 1, stack := if c = '\n' then stack.tail else stack, shown := [blank c] }
  | .blockComment =>
      if c = '*' ∧ next = some '/' then { count := 2, stack := stack.tail, shown := [' ', ' '] }
      else { count := 1, stack, shown := [blank c] }
  | .quoted quote => inString quote stack c next second
  | .template => inTemplate stack c next
  | .code => inCode stack c next
  | .interpolation _ => inCode stack c next

end Move

/-- A scan under way: the place it stands at, its modes, top first, and what has been shown. -/
structure Cursor where
  place : Nat
  stack : List Mode
  shown : Array Char

namespace Cursor

/-- The cursor before a script: plain code, nothing shown. -/
def start : Cursor :=
  ⟨0, [.code], #[]⟩

/-- The cursor behind a move. -/
def advance (cursor : Cursor) (move : Move) : Cursor :=
  ⟨cursor.place + move.count, move.stack, cursor.shown ++ move.shown⟩

/-- What a cursor inside a script does next. -/
def move (script : Array Char) (cursor : Cursor) (inside : cursor.place < script.size) : Move :=
  Move.ofStack cursor.stack script[cursor.place] script[cursor.place + 1]? script[cursor.place + 2]?

/-- Goes on until the cursor stands behind the script. -/
def scan (script : Array Char) (cursor : Cursor) : Cursor :=
  if inside : cursor.place < script.size then
    scan script (cursor.advance (cursor.move script inside))
  else cursor
termination_by script.size - cursor.place
decreasing_by
  have forward := (cursor.move script inside).forward
  simp only [advance]
  omega

end Cursor

/-- A script with its comments, string bodies and static template text blanked. -/
def mask (script : List Char) : List Char :=
  (Cursor.start.scan script.toArray).shown.toList

end ImportSupply.Literal
