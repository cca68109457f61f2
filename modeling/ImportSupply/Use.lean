import ImportSupply.Name

/-!
# Names a text uses

A text falls into runs of name characters. A run is a *word* together with the number of dots right
before it: one or two dots make it a property, three or more are a spread, and a property is no use
of a name.
-/

namespace ImportSupply

/-- A run of name characters and how many dots stand right before it. -/
structure Word where
  dots : Nat
  characters : List Char
  deriving DecidableEq, Repr

namespace Word

/-- The word read so far, if any, where its characters are held in reverse. -/
def finish (dots : Nat) (reversed : List Char) : List Word :=
  if reversed.isEmpty then [] else [⟨dots, reversed.reverse⟩]

/-- The words of a text from inside a run: the dots before it and its characters so far, in
reverse. -/
def readFrom : (dots : Nat) → (reversed : List Char) → List Char → List Word
  | dots, reversed, [] => finish dots reversed
  | dots, reversed, c :: rest =>
      if Name.isRunChar c then readFrom dots (c :: reversed) rest
      else
        -- dots count for the run right behind them, and a run in between ends the count
        let dotsBefore := if reversed.isEmpty then dots else 0
        finish dots reversed ++ readFrom (if c == '.' then dotsBefore + 1 else 0) [] rest

/-- The words of a text, from left to right. -/
def ofText (text : List Char) : List Word :=
  readFrom 0 [] text

/-- Whether a word stands for a value of its own: no number, and no property of something else. -/
def isFree (word : Word) : Bool :=
  !(word.characters.head?.any Char.isDigit) && (word.dots == 0 || 3 ≤ word.dots)

/-- The name a word spells. -/
def name (word : Word) : String :=
  String.ofList word.characters

end Word

/-- The known names that occur freely in a text, in the order of their first free occurrence. -/
def usedNames (known : String → Bool) (text : List Char) : List String :=
  (((Word.ofText text).filter Word.isFree).map Word.name |>.filter known).eraseDups

end ImportSupply
