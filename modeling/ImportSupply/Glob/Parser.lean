import ImportSupply.Glob.Token

/-!
# Reading globs

A glob is read character by character. Groups in braces nest; the tokens of each open group's
current alternative, its finished alternatives and the tokens before it are kept on a stack.
-/

namespace ImportSupply.Glob

/-- What can be wrong with a glob. -/
inductive Flaw where
  | unclosedClass
  | invalidRange (low high : Char)
  | unopenedGroup
  | unclosedGroup
  | danglingEscape
  deriving DecidableEq, Repr

/-- The wording of a flaw. -/
def Flaw.message : Flaw → String
  | unclosedClass => "unclosed character class; missing ']'"
  | invalidRange low high =>
      "invalid range; '" ++ String.singleton low ++ "' > '" ++ String.singleton high ++ "'"
  | unopenedGroup =>
      "unopened alternate group; missing '\x7b' (maybe escape '\x7d' with '[\x7d]'?)"
  | unclosedGroup =>
      "unclosed alternate group; missing '\x7d' (maybe escape '\x7b' with '[\x7b]'?)"
  | danglingEscape => "dangling '\\'"

/-- An open group: the tokens before it and its finished alternatives, both last first. -/
structure Frame where
  before : List Token
  finished : List (List Token)

/-- What has been read: the tokens of the current row, last first, and the open groups, innermost
first. -/
structure State where
  tokens : List Token
  frames : List Frame

namespace State

/-- Appends a token to the current row. -/
def push (state : State) (token : Token) : State :=
  ⟨token :: state.tokens, state.frames⟩

/-- Puts a token in place of the last one, unless that already stands for whole components at an
end. -/
def replaceLast (state : State) (token : Token) : State :=
  match state.tokens with
  | .leading :: _ => state
  | .trailing :: _ => state
  | _ :: before => ⟨token :: before, state.frames⟩
  | [] => state.push token

/-- Opens a group. -/
def openGroup (state : State) : State :=
  ⟨[], ⟨state.tokens, []⟩ :: state.frames⟩

/-- A comma: the next alternative of the innermost group, or itself. -/
def comma (state : State) : State :=
  match state.frames with
  | [] => state.push (.literal ',')
  | frame :: outer => ⟨[], ⟨frame.before, state.tokens.reverse :: frame.finished⟩ :: outer⟩

/-- Closes the innermost group. -/
def closeGroup (state : State) : Except Flaw State :=
  match state.frames with
  | [] => .error .unopenedGroup
  | frame :: outer =>
      .ok
        ⟨Token.groupOf (state.tokens.reverse :: frame.finished).reverse :: frame.before, outer⟩

/-- Whether two stars behind `before` can stand for whole components: nothing precedes them in the
row, or a slash does, or the start of an alternative. -/
def startsComponent (state : State) (before : Option Char) : Bool :=
  before == some '/' ||
    (!state.frames.isEmpty && (before == some ',' || before == some '\x7b'))

/-- Whether two stars before `next` end the row. -/
def endsRow (state : State) (next : Option Char) : Bool :=
  match next with
  | none => true
  | some c => !state.frames.isEmpty && (c == ',' || c == '\x7d')

/-- A star behind `before`: the state with its token, and how many of the following characters
belong to it. -/
def star (state : State) (before : Option Char) : List Char → State × Nat
  | '*' :: behind =>
      let twoStars := (state.push .star).push .star
      -- two stars are more than two single ones only where they stand for whole components
      if state.tokens.isEmpty then
        match behind with
        | [] => (state.push .leading, 1)
        | '/' :: _ => (state.push .leading, 2)
        | _ => (twoStars, 1)
      else if state.startsComponent before then
        match behind with
        | '/' :: _ => (state.replaceLast .inner, 2)
        | next =>
            if state.endsRow next.head? then (state.replaceLast .trailing, 1) else (twoStars, 1)
      else (twoStars, 1)
  | _ => (state.push .star, 0)

end State

/-- A class of characters being read: its ranges, last first, whether nothing has been read yet, and
whether a dash waits for the upper end of a range. -/
structure ClassState where
  negated : Bool
  ranges : List (Char × Char)
  isFirst : Bool
  inRange : Bool

namespace ClassState

/-- Adds a character to a class, as the upper end of a range if one waits for it. -/
def add (state : ClassState) (c : Char) : Except Flaw ClassState :=
  if state.inRange then
    match state.ranges with
    | (low, _) :: before =>
        if c < low then .error (.invalidRange low c)
        else .ok ⟨state.negated, (low, c) :: before, false, false⟩
    | [] => .ok ⟨state.negated, [(c, c)], false, false⟩
  else .ok ⟨state.negated, (c, c) :: state.ranges, false, false⟩

/-- A dash in a class: itself at the start or as the upper end of a range, otherwise it opens a
range. -/
def dash (state : ClassState) : Except Flaw ClassState :=
  if state.isFirst || state.inRange then state.add '-'
  else .ok ⟨state.negated, state.ranges, false, true⟩

/-- The token of a class; a dash that still waits is itself. -/
def token (state : ClassState) : Token :=
  .oneOf state.negated
    (if state.inRange then ('-', '-') :: state.ranges else state.ranges).reverse

end ClassState

/-- What the next character is part of. -/
inductive Mode where
  | row
  /-- A token already read, of which so many characters follow this one. -/
  | passed (more : Nat)
  /-- Behind a backslash. -/
  | escape
  /-- Right behind an opening bracket. -/
  | classStart
  | inside (state : ClassState)

/-- The mode in which so many characters are passed over. -/
def Mode.pass : Nat → Mode
  | 0 => .row
  | more + 1 => .passed more

/-- Reads a glob on from a state, where `before` is the character just passed. -/
def readFrom (mode : Mode) (state : State) (before : Option Char) :
    List Char → Except Flaw (List Token)
  | [] =>
      match mode with
      | .escape => .error .danglingEscape
      | .classStart => .error .unclosedClass
      | .inside _ => .error .unclosedClass
      | _ => if state.frames.isEmpty then .ok state.tokens.reverse else .error .unclosedGroup
  | c :: rest =>
      match mode with
      | .passed more => readFrom (.pass more) state (some c) rest
      | .escape => readFrom .row (state.push (.literal c)) (some c) rest
      | .classStart =>
          if c = '!' ∨ c = '^' then readFrom (.inside ⟨true, [], true, false⟩) state (some c) rest
          else readFrom (.inside ⟨false, [(c, c)], false, false⟩) state (some c) rest
      | .inside ranges =>
          if c = ']' ∧ !ranges.isFirst then readFrom .row (state.push ranges.token) (some c) rest
          else
            match if c = '-' then ranges.dash else ranges.add c with
            | .ok next => readFrom (.inside next) state (some c) rest
            | .error flaw => .error flaw
      | .row =>
          if c = '?' then readFrom .row (state.push .any) (some c) rest
          else if c = '[' then readFrom .classStart state (some c) rest
          else if c = '\x7b' then readFrom .row state.openGroup (some c) rest
          else if c = '\x7d' then
            match state.closeGroup with
            | .ok next => readFrom .row next (some c) rest
            | .error flaw => .error flaw
          else if c = ',' then readFrom .row state.comma (some c) rest
          else if c = '\\' then readFrom .escape state (some c) rest
          else if c = '*' then
            let (next, more) := state.star before rest
            readFrom (.pass more) next (some c) rest
          else readFrom .row (state.push (.literal c)) (some c) rest

end ImportSupply.Glob

namespace ImportSupply

/-- A glob: its tokens. -/
structure Glob where
  tokens : List Glob.Token

namespace Glob

/-- Reads a glob. -/
def parse (text : String) : Except Flaw Glob :=
  (readFrom .row ⟨[], []⟩ none text.toList).map Glob.mk

/-- What a glob means; any components before nothing are all paths. -/
def row (glob : Glob) : List Expression :=
  match glob.tokens with
  | [.leading] => [.anything]
  | tokens => tokens.flatMap Token.expressions

/-- Whether a glob matches a path. -/
def accepts (glob : Glob) (path : String) : Bool :=
  rowMatches glob.row path.toUTF8.toList

end Glob

end ImportSupply
