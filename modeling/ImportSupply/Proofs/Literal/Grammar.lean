import ImportSupply.Proofs.Literal.Transition
import Mathlib.Data.List.Infix

/-!
# Masking the grammar of literals

The literals of a script as a grammar: code with balanced braces, comments, plain strings and
templates, and in the interpolations of a template code again, to any depth. A piece of code has a
text (`Code.text`) and the text that a masked script shows of it (`Code.display`), both by recursion
on the syntax.

The scanner keeps a stack of modes instead. Reading a piece of code leaves the stack as it was
(`Code.shown_text_append`), and so does a template (`Template.shown_text_append`): a group of braces
raises the depth of an interpolation and lowers it again, an interpolation is pushed on its template
and popped. So masking shows exactly the display (`mask_text`).
-/

namespace ImportSupply.Literal

/-! ## Syntax -/

/-- The line ends that a plain string can continue over. -/
inductive LineEnd where
  | lineFeed
  | carriageReturn
  | both
  deriving DecidableEq, Repr

def LineEnd.text : LineEnd → List Char
  | lineFeed => ['\n']
  | carriageReturn => ['\r']
  | both => ['\r', '\n']

/-- What the body of a plain string consists of. -/
inductive StringItem where
  | char (c : Char)
  /-- A backslash and a character that is no line end. -/
  | escape (c : Char)
  /-- A backslash and a line end. -/
  | continuation (lineEnd : LineEnd)
  deriving DecidableEq, Repr

mutual

/-- Code: plain characters, groups in braces, comments, strings and templates, in any order. -/
inductive Code where
  | done
  | plain (c : Char) (rest : Code)
  | group (inner rest : Code)
  | lineComment (body : List Char) (rest : Code)
  | blockComment (body : List Char) (rest : Code)
  | quoted (quote : Quote) (body : List StringItem) (rest : Code)
  | template (body : Template) (rest : Code)

/-- The body of a template: static characters, escaped characters and interpolated code. -/
inductive Template where
  | done
  | static (c : Char) (rest : Template)
  | escape (c : Char) (rest : Template)
  | interpolation (inner : Code) (rest : Template)

end

/-! ## Text and display -/

def StringItem.text : StringItem → List Char
  | char c => [c]
  | escape c => ['\\', c]
  | continuation lineEnd => '\\' :: lineEnd.text

/-- Only a continuation shows. -/
def StringItem.display : StringItem → List Char
  | continuation lineEnd => '\\' :: lineEnd.text
  | item => item.text.map blank

mutual

/-- Code as it is written. -/
def Code.text : Code → List Char
  | .done => []
  | .plain c rest => c :: rest.text
  | .group inner rest => '{' :: (inner.text ++ '}' :: rest.text)
  | .lineComment body rest => '/' :: '/' :: (body ++ '\n' :: rest.text)
  | .blockComment body rest => '/' :: '*' :: (body ++ '*' :: '/' :: rest.text)
  | .quoted quote body rest =>
      quote.char :: (body.flatMap StringItem.text ++ quote.char :: rest.text)
  | .template body rest => '\x60' :: (body.text ++ '\x60' :: rest.text)

def Template.text : Template → List Char
  | .done => []
  | .static c rest => c :: rest.text
  | .escape c rest => '\\' :: c :: rest.text
  | .interpolation inner rest => '$' :: '{' :: (inner.text ++ '}' :: rest.text)

end

mutual

/-- Code with its comments, string bodies and static template text blanked. -/
def Code.display : Code → List Char
  | .done => []
  | .plain c rest => c :: rest.display
  | .group inner rest => '{' :: (inner.display ++ '}' :: rest.display)
  | .lineComment body rest => ' ' :: ' ' :: (body.map blank ++ '\n' :: rest.display)
  | .blockComment body rest => ' ' :: ' ' :: (body.map blank ++ ' ' :: ' ' :: rest.display)
  | .quoted quote body rest =>
      quote.char :: (body.flatMap StringItem.display ++ quote.char :: rest.display)
  | .template body rest => '\x60' :: (body.display ++ '\x60' :: rest.display)

def Template.display : Template → List Char
  | .done => []
  | .static c rest => blank c :: rest.display
  | .escape c rest => ' ' :: blank c :: rest.display
  | .interpolation inner rest => '$' :: '{' :: (inner.display ++ '}' :: rest.display)

end

/-! ## Well-formedness -/

/-- Characters that make a comment of a slash before them. -/
def isCommentMark (c : Char) : Bool :=
  c == '/' || c == '*'

/-- Plain code: no quote, no backtick and no brace. -/
def isPlain (c : Char) : Bool :=
  !(c == '\'' || c == '"' || c == '\x60' || c == '{' || c == '}')

/-- An item that neither ends a string of its quote nor reads as another item. -/
def StringItem.fits (quote : Quote) : StringItem → Bool
  | char c => !(c == '\\' || c == quote.char || c == '\n')
  | escape c => !isLineEnd c
  | continuation _ => true

mutual

/-- Code whose text reads as written: no plain slash stands before a comment mark, comments and
strings do not end early. -/
def Code.isFormed : Code → Bool
  | .done => true
  | .plain c rest =>
      isPlain c && !(c == '/' && rest.text.head?.any isCommentMark) && rest.isFormed
  | .group inner rest => inner.isFormed && rest.isFormed
  | .lineComment body rest => !body.contains '\n' && rest.isFormed
  | .blockComment body rest => !decide (['*', '/'] <:+: body) && rest.isFormed
  | .quoted quote body rest => body.all (StringItem.fits quote) && rest.isFormed
  | .template body rest => body.isFormed && rest.isFormed

/-- A template body whose text reads as written: no static dollar stands before a brace. -/
def Template.isFormed : Template → Bool
  | .done => true
  | .static c rest =>
      !(c == '\\' || c == '\x60' || c == '$' && rest.text.head? == some '{') && rest.isFormed
  | .escape _ rest => rest.isFormed
  | .interpolation inner rest => inner.isFormed && rest.isFormed

end

/-! ## Comments -/

theorem shown_lineComment_append {body : List Char} (oneLine : '\n' ∉ body) (below : List Mode)
    (rest : List Char) :
    Scanner.shown ⟨.lineComment :: below, []⟩ (body ++ '\n' :: rest) =
      body.map blank ++ '\n' :: Scanner.shown ⟨below, []⟩ rest := by
  induction body with
  | nil => exact (Transition.lineCommentEnds below rest).shown_cons
  | cons c body ih =>
    rw [List.mem_cons, not_or] at oneLine
    rw [List.cons_append, (Transition.inLineComment below _ (Ne.symm oneLine.1)).shown_cons,
      ih oneLine.2]
    rfl

theorem shown_blockComment_append {body : List Char} (unclosed : ¬ ['*', '/'] <:+: body)
    (below : List Mode) (rest : List Char) :
    Scanner.shown ⟨.blockComment :: below, []⟩ (body ++ '*' :: '/' :: rest) =
      body.map blank ++ ' ' :: ' ' :: Scanner.shown ⟨below, []⟩ rest := by
  induction body with
  | nil =>
    rw [List.nil_append, (Transition.blockCommentEnds below rfl).shown_cons,
      (Transition.decided _ _ _ _ _).shown_cons]
    rfl
  | cons c body ih =>
    have inside : ¬ (c = '*' ∧ (body ++ '*' :: '/' :: rest).head? = some '/') := by
      rintro ⟨rfl, slash⟩
      cases body with
      | nil => simp at slash
      | cons d body =>
        -- a star and a slash at the start of the body would end the comment there
        obtain rfl : d = '/' := by simpa using slash
        exact unclosed ⟨[], body, rfl⟩
    have tail := ih fun inner => unclosed (inner.trans (List.suffix_cons c body).isInfix)
    rw [List.cons_append, (Transition.inBlockComment below inside).shown_cons, tail]
    rfl

/-! ## Plain strings -/

theorem Quote.char_ne_lineFeed (quote : Quote) : quote.char ≠ '\n' := by
  cases quote <;> decide

/-- In a string that goes on to its quote, no line feed comes next. -/
theorem head?_items_ne_lineFeed {quote : Quote} {body : List StringItem}
    (fits : ∀ item ∈ body, item.fits quote = true) (rest : List Char) :
    (body.flatMap StringItem.text ++ quote.char :: rest).head? ≠ some '\n' := by
  cases body with
  | nil => simpa using quote.char_ne_lineFeed
  | cons item body =>
    have first := fits item List.mem_cons_self
    cases item with
    | char c =>
      simp only [StringItem.fits, Bool.not_eq_true', Bool.or_eq_false_iff,
        beq_eq_false_iff_ne] at first
      simpa [StringItem.text] using first.2
    | escape c => simp [StringItem.text]
    | continuation lineEnd => simp [StringItem.text]

theorem StringItem.shown_text_append {quote : Quote} {item : StringItem}
    (fits : item.fits quote = true) (below : List Mode) {rest : List Char}
    (next : rest.head? ≠ some '\n') :
    Scanner.shown ⟨.quoted quote :: below, []⟩ (item.text ++ rest) =
      item.display ++ Scanner.shown ⟨.quoted quote :: below, []⟩ rest := by
  cases item with
  | char c =>
    simp only [StringItem.fits, Bool.not_eq_true', Bool.or_eq_false_iff,
      beq_eq_false_iff_ne] at fits
    obtain ⟨⟨backslash, closing⟩, lineFeed⟩ := fits
    exact (Transition.inString quote below rest backslash closing lineFeed).shown_cons
  | escape c =>
    have noEnd : isLineEnd c = false := by simpa [StringItem.fits] using fits
    show Scanner.shown _ ('\\' :: c :: rest) = _
    rw [(Transition.stringEscape quote below (by simpa using noEnd)).shown_cons,
      (Transition.decided _ _ _ _ _).shown_cons]
    rfl
  | continuation lineEnd =>
    cases lineEnd with
    | lineFeed =>
      show Scanner.shown _ ('\\' :: '\n' :: rest) = _
      rw [(Transition.continuation quote below rfl (by simp)).shown_cons,
        (Transition.decided _ _ _ _ _).shown_cons]
      rfl
    | carriageReturn =>
      -- the line feed that would make one line end with the carriage return is not there
      show Scanner.shown _ ('\\' :: '\r' :: rest) = _
      rw [(Transition.continuation quote below rfl (by simpa using next)).shown_cons,
        (Transition.decided _ _ _ _ _).shown_cons]
      rfl
    | both =>
      show Scanner.shown _ ('\\' :: '\r' :: '\n' :: rest) = _
      rw [(Transition.longContinuation quote below rest).shown_cons,
        (Transition.decided _ _ _ _ _).shown_cons, (Transition.decided _ _ _ _ _).shown_cons]
      rfl

theorem shown_quoted_append {quote : Quote} {body : List StringItem}
    (fits : ∀ item ∈ body, item.fits quote = true) (below : List Mode) (rest : List Char) :
    Scanner.shown ⟨.quoted quote :: below, []⟩
        (body.flatMap StringItem.text ++ quote.char :: rest) =
      body.flatMap StringItem.display ++ quote.char :: Scanner.shown ⟨below, []⟩ rest := by
  induction body with
  | nil => exact (Transition.stringEnds quote below rest).shown_cons
  | cons item body ih =>
    have others : ∀ other ∈ body, other.fits quote = true := fun other member =>
      fits other (List.mem_cons_of_mem item member)
    rw [List.flatMap_cons, List.append_assoc,
      StringItem.shown_text_append (fits item List.mem_cons_self) below
        (head?_items_ne_lineFeed others rest),
      ih others, List.flatMap_cons, List.append_assoc]

/-! ## Code and templates -/

/-- Braces around code that leaves every stack of executable code as it was leave it as it was. -/
theorem shown_group_append {inner display : List Char}
    (same : ∀ stack, Executable stack → ∀ rest, rest.head?.any isCommentMark = false →
      Scanner.shown ⟨stack, []⟩ (inner ++ rest) = display ++ Scanner.shown ⟨stack, []⟩ rest)
    {stack : List Mode} (isCode : Executable stack) (rest : List Char) :
    Scanner.shown ⟨stack, []⟩ ('{' :: (inner ++ '}' :: rest)) =
      '{' :: (display ++ '}' :: Scanner.shown ⟨stack, []⟩ rest) := by
  cases isCode with
  | code =>
    -- outside templates braces are code like any other
    have passive (c : Char) (brace : c = '{' ∨ c = '}') (text : List Char) :
        Passive [.code] c text := by
      rcases brace with rfl | rfl <;> constructor <;> simp
    rw [(Transition.inCode .code (passive '{' (.inl rfl) _)).shown_cons,
      same _ .code _ (by rfl), (Transition.inCode .code (passive '}' (.inr rfl) _)).shown_cons]
    rfl
  | @interpolation depth below isCode =>
    rw [(Transition.braceOpens depth _ _).shown_cons,
      same _ (.interpolation (depth + 1) isCode) _ (by rfl),
      (Transition.braceCloses depth _ _).shown_cons]
    rfl

mutual

/-- Code is shown as its display, and what follows it is read on the same stack. -/
theorem Code.shown_text_append (code : Code) (formed : code.isFormed = true) {stack : List Mode}
    (isCode : Executable stack) (rest : List Char) (next : rest.head?.any isCommentMark = false) :
    Scanner.shown ⟨stack, []⟩ (code.text ++ rest) =
      code.display ++ Scanner.shown ⟨stack, []⟩ rest := by
  cases code with
  | done => rfl
  | plain c code =>
    simp only [Code.isFormed, Bool.and_eq_true, Bool.not_eq_true', Bool.and_eq_false_imp] at formed
    obtain ⟨⟨plain, slash⟩, formed⟩ := formed
    -- behind a slash comes neither a mark of the code nor one of what follows the code
    have noMark (mark : c = '/') : (code.text ++ rest).head?.any isCommentMark = false := by
      have inside := slash (by simpa using mark)
      cases text : code.text with
      | nil => simpa using next
      | cons d tail => simpa [text] using inside
    have passive : Passive stack c (code.text ++ rest) := by
      simp only [isPlain, Bool.not_eq_true', Bool.or_eq_false_iff, beq_eq_false_iff_ne] at plain
      obtain ⟨⟨⟨⟨single, double⟩, backtick⟩, opening⟩, closing⟩ := plain
      refine ⟨?_, ?_, single, double, backtick, fun _ => ⟨opening, closing⟩⟩
      · rintro ⟨mark, head⟩
        simpa [head, isCommentMark] using noMark mark
      · rintro ⟨mark, head⟩
        simpa [head, isCommentMark] using noMark mark
    show Scanner.shown _ (c :: (code.text ++ rest)) = _
    rw [(Transition.inCode isCode passive).shown_cons,
      Code.shown_text_append code formed isCode rest next]
    rfl
  | group inner code =>
    simp only [Code.isFormed, Bool.and_eq_true] at formed
    have same := fun stack isCode rest => @Code.shown_text_append inner formed.1 stack isCode rest
    have whole : (Code.group inner code).text ++ rest =
        '{' :: (inner.text ++ '}' :: (code.text ++ rest)) := by
      simp [Code.text]
    rw [whole, shown_group_append same isCode,
      Code.shown_text_append code formed.2 isCode rest next]
    simp [Code.display]
  | lineComment body code =>
    simp only [Code.isFormed, Bool.and_eq_true, Bool.not_eq_true'] at formed
    have whole : (Code.lineComment body code).text ++ rest =
        '/' :: '/' :: (body ++ '\n' :: (code.text ++ rest)) := by
      simp [Code.text]
    rw [whole, (Transition.lineCommentOpens isCode rfl).shown_cons,
      (Transition.decided _ _ _ _ _).shown_cons,
      shown_lineComment_append (by simpa using formed.1),
      Code.shown_text_append code formed.2 isCode rest next]
    simp [Code.display, Role.display, blank]
  | blockComment body code =>
    simp only [Code.isFormed, Bool.and_eq_true, Bool.not_eq_true', decide_eq_false_iff_not]
      at formed
    have whole : (Code.blockComment body code).text ++ rest =
        '/' :: '*' :: (body ++ '*' :: '/' :: (code.text ++ rest)) := by
      simp [Code.text]
    rw [whole, (Transition.blockCommentOpens isCode rfl).shown_cons,
      (Transition.decided _ _ _ _ _).shown_cons, shown_blockComment_append formed.1,
      Code.shown_text_append code formed.2 isCode rest next]
    simp [Code.display, Role.display, blank]
  | quoted quote body code =>
    simp only [Code.isFormed, Bool.and_eq_true, List.all_eq_true] at formed
    have whole : (Code.quoted quote body code).text ++ rest =
        quote.char :: (body.flatMap StringItem.text ++ quote.char :: (code.text ++ rest)) := by
      simp [Code.text]
    rw [whole, (Transition.stringOpens quote isCode _).shown_cons, shown_quoted_append formed.1,
      Code.shown_text_append code formed.2 isCode rest next]
    simp [Code.display, Role.display]
  | template body code =>
    simp only [Code.isFormed, Bool.and_eq_true] at formed
    have whole : (Code.template body code).text ++ rest =
        '\x60' :: (body.text ++ '\x60' :: (code.text ++ rest)) := by
      simp [Code.text]
    rw [whole, (Transition.templateOpens isCode _).shown_cons,
      Template.shown_text_append body formed.1 isCode,
      Code.shown_text_append code formed.2 isCode rest next]
    simp [Code.display, Role.display]

/-- The body of a template is shown as its display, and behind its backtick the stack is as it was
before the template. -/
theorem Template.shown_text_append (body : Template) (formed : body.isFormed = true)
    {below : List Mode} (isCode : Executable below) (rest : List Char) :
    Scanner.shown ⟨.template :: below, []⟩ (body.text ++ '\x60' :: rest) =
      body.display ++ '\x60' :: Scanner.shown ⟨below, []⟩ rest := by
  cases body with
  | done => exact (Transition.templateEnds below rest).shown_cons
  | static c body =>
    simp only [Template.isFormed, Bool.and_eq_true, Bool.not_eq_true', Bool.or_eq_false_iff,
      beq_eq_false_iff_ne, Bool.and_eq_false_imp] at formed
    obtain ⟨⟨⟨backslash, backtick⟩, dollar⟩, formed⟩ := formed
    have inside : ¬ (c = '$' ∧ (body.text ++ '\x60' :: rest).head? = some '{') := by
      rintro ⟨mark, brace⟩
      have noBrace := dollar (by simpa using mark)
      cases text : body.text with
      | nil => simp [text] at brace
      | cons d tail => simp_all
    show Scanner.shown _ (c :: (body.text ++ '\x60' :: rest)) = _
    rw [(Transition.inTemplate below backslash backtick inside).shown_cons,
      Template.shown_text_append body formed isCode rest]
    rfl
  | escape c body =>
    show Scanner.shown _ ('\\' :: c :: (body.text ++ '\x60' :: rest)) = _
    rw [(Transition.templateEscape below _).shown_cons, (Transition.decided _ _ _ _ _).shown_cons,
      Template.shown_text_append body formed isCode rest]
    rfl
  | interpolation inner body =>
    simp only [Template.isFormed, Bool.and_eq_true] at formed
    have whole : (Template.interpolation inner body).text ++ '\x60' :: rest =
        '$' :: '{' :: (inner.text ++ '}' :: (body.text ++ '\x60' :: rest)) := by
      simp [Template.text]
    -- the interpolation opens at depth zero, so the brace behind its code closes it
    rw [whole, (Transition.interpolationOpens below rfl).shown_cons,
      (Transition.decided _ _ _ _ _).shown_cons,
      Code.shown_text_append inner formed.1 (.interpolation 0 isCode) _ (by rfl),
      (Transition.interpolationCloses _ _).shown_cons,
      Template.shown_text_append body formed.2 isCode rest]
    simp [Template.display, Role.display]

end

/-- **Masking shows the display.** Of well-formed code a masked script blanks the comments, the
bodies of strings and the static text of templates, and nothing else, at every depth. -/
theorem mask_text (code : Code) (formed : code.isFormed = true) :
    mask code.text = code.display := by
  have whole := code.shown_text_append formed .code [] rfl
  simpa [mask_eq_shown, Scanner.start] using whole

/-- A quote in a comment, and in an interpolation a group with a continued string, a template of its
own and a comment with a backtick. -/
theorem mask_text_nested :
    let inner : Code :=
      .group (.quoted .double [.escape '"', .continuation .both, .char 'q'] .done)
        (.template (.interpolation (.plain 'x' .done) (.static '$' .done))
          (.blockComment ['\x60', '*'] .done))
    let code : Code :=
      .plain 'a' (.plain '/' (.plain 'b' (.lineComment "it's".toList
        (.template (.static 't' (.interpolation inner (.escape '\x60' .done))) .done))))
    code.isFormed = true ∧
      code.text = ("a/b//it's\n" ++ "\x60t$\x7b\x7b\"\\\"\\\r\nq\"\x7d" ++
        "\x60$\x7bx\x7d$\x60/*\x60**/\x7d\\\x60\x60").toList ∧
      mask code.text = ("a/b      \n" ++ "\x60 $\x7b\x7b\"  \\\r\n \"\x7d" ++
        "\x60$\x7bx\x7d \x60      \x7d  \x60").toList := by
  intro inner code
  have formed : code.isFormed = true := by decide
  exact ⟨formed, rfl, mask_text code formed⟩

end ImportSupply.Literal
