import ImportSupply.Proofs.Export.Declared
import ImportSupply.Proofs.Export.Listed

/-!
# Parts of a script

A masked script is a sequence of parts: headings of declarations, exported or not, local export
lists, and other code. If the word `export` stands nowhere else, an export that is found in the
script starts where one of its parts does (`exists_part_of_spells`), and every heading is found as a
declaration (`mem_declaredIn_of_mem_declaredNames`).
-/

namespace ImportSupply.Export

open Pattern Binding

/-! ## Parts of a script -/

/-- At least one blank. -/
structure Gap where
  text : List Char
  isGap : IsGap text

/-- A name that a declaration is found by: a letter of ASCII, `_` or `$`, and characters of words or
`$` behind it. -/
structure Identifier where
  text : List Char
  bindable : Name.isBindable text = true

def Identifier.name (identifier : Identifier) : String :=
  String.ofList identifier.text

/-- A word and the gap behind it, or nothing. -/
def optionalWord (word : String) : Option Gap → List Char
  | none => []
  | some gap => word.toList ++ gap.text

/-- The words that may stand between `export` and a heading. -/
def modifierWords : List String :=
  ["declare", "default", "async", "abstract", "const"]

/-- A word in front of a heading and the gap behind it. -/
structure Modifier where
  word : String
  gap : Gap
  own : word ∈ modifierWords

/-- The heading of a declaration. -/
structure Heading where
  kind : Kind
  word : String
  separator : List Char
  name : Identifier
  closing : List Char
  own : word ∈ kind.words
  separates : kind.Separates separator
  closes : kind.Closes closing

def Modifier.text (modifier : Modifier) : List Char :=
  modifier.word.toList ++ modifier.gap.text

def Heading.text (heading : Heading) : List Char :=
  heading.word.toList ++ (heading.separator ++ (heading.name.text ++ heading.closing))

/-- What an export list says of one name: whether it is a type, and its name outside. -/
structure Specifier where
  leading : List Char
  typed : Option Gap
  name : Identifier
  renamed : Option (Gap × Gap × Identifier)
  trailing : List Char
  padded : ∀ c ∈ leading ++ trailing, Text.isBlank c = true

namespace Specifier

/-- The specifier without the blanks around it. -/
def core (specifier : Specifier) : List Char :=
  optionalWord "type" specifier.typed ++ (specifier.name.text ++
    match specifier.renamed with
    | none => []
    | some (before, after, outer) => before.text ++ ("as".toList ++ (after.text ++ outer.text)))

def text (specifier : Specifier) : List Char :=
  specifier.leading ++ specifier.core ++ specifier.trailing

/-- The other name that a specifier gives with `as`. -/
def outer? (specifier : Specifier) : Option Identifier :=
  specifier.renamed.map fun (_, _, outer) => outer

/-- The name under which a specifier exports. -/
def exported (specifier : Specifier) : Identifier :=
  specifier.outer?.getD specifier.name

end Specifier

/-- One place of a list: a specifier, or blanks as behind a last comma. -/
inductive Slot where
  | blank (blanks : List Char) (padded : ∀ c ∈ blanks, Text.isBlank c = true)
  | named (specifier : Specifier)

def Slot.text : Slot → List Char
  | blank blanks _ => blanks
  | named specifier => specifier.text

def Slot.specifier? : Slot → Option Specifier
  | blank _ _ => none
  | named specifier => some specifier

/-- One part of a script. -/
inductive Part where
  /-- Other code: initial values, bodies, other statements. -/
  | code (text : List Char)
  /-- The heading of a declaration and what stands in front of it. -/
  | declaration (exported : Option Gap) (modifiers : List Modifier) (heading : Heading)
  /-- A local export list. -/
  | list (gap : Gap) (typed : Option Gap) (slots : List Slot)

namespace Part

/-- What stands in front of a heading. -/
def lead (exported : Option Gap) (modifiers : List Modifier) : List Char :=
  optionalWord "export" exported ++ modifiers.flatMap Modifier.text

def text : Part → List Char
  | code text => text
  | declaration exported modifiers heading => lead exported modifiers ++ heading.text
  | list gap typed slots =>
      "export".toList ++ (gap.text ++ (optionalWord "type" typed ++
        '\x7b' :: ([','].intercalate (slots.map Slot.text) ++ ['\x7d'])))

theorem text_declaration (exported : Option Gap) (modifiers : List Modifier) (heading : Heading) :
    (declaration exported modifiers heading).text = lead exported modifiers ++ heading.text :=
  rfl

theorem text_list (gap : Gap) (typed : Option Gap) (slots : List Slot) :
    (list gap typed slots).text = "export".toList ++ (gap.text ++ (optionalWord "type" typed ++
      '\x7b' :: ([','].intercalate (slots.map Slot.text) ++ ['\x7d']))) :=
  rfl

def isExport : Part → Bool
  | code _ => false
  | declaration exported _ _ => exported.isSome
  | list _ _ _ => true

def declared : Part → List String
  | declaration _ _ heading => [heading.name.name]
  | _ => []

def specifiers : Part → List Specifier
  | list _ _ slots => slots.filterMap Slot.specifier?
  | _ => []

end Part

/-- The text of a script. -/
def textOf (parts : List Part) : List Char :=
  parts.flatMap Part.text

/-- The word that starts an export. -/
def exportWord : Pattern Char :=
  all [wordEdge, text "export", gap]

/-- Whether a pattern matches nowhere in a text, given what stands around it. -/
def absent (pattern : Pattern Char) (back : List Char) : Option Char → List Char → Bool
  | _, [] => true
  | before, c :: text =>
      (pattern.matchAt ⟨before, 0, c :: (text ++ back)⟩).isNone && absent pattern back (some c) text

namespace Part

/-- Whether the word `export` stands in a part only where the part starts with it. -/
def isQuiet (front back : List Char) (part : Part) : Bool :=
  if part.isExport then absent exportWord back (some 'e') part.text.tail
  else absent exportWord back (lastOf none front) part.text

/-- Whether the words of a heading are whole, and its keyword is not read as part of an earlier
declaration. -/
def isWhole (front back : List Char) : Part → Bool
  | declaration exported modifiers heading =>
      !front.getLast?.any Name.isTail && !(heading.closing ++ back).head?.any Name.isTail &&
        !heading.kind.isOpen (front ++ lead exported modifiers)
  | _ => true

/-- Whether a part can stand between two texts. -/
def fits (front back : List Char) (part : Part) : Bool :=
  part.isQuiet front back && part.isWhole front back

end Part

/-- Whether parts can follow each other behind a text. -/
def isFormed : List Char → List Part → Bool
  | _, [] => true
  | front, part :: parts =>
      part.fits front (textOf parts) && isFormed (front ++ part.text) parts

/-- The names that the parts of a script declare. -/
def declaredNames (parts : List Part) : List String :=
  parts.flatMap Part.declared

/-- The specifiers of the export lists of a script. -/
def specifiersOf (parts : List Part) : List Specifier :=
  parts.flatMap Part.specifiers

/-! ## Where exports start -/

theorem not_spells_of_absent {pattern : Pattern Char} {back : List Char} {before : Option Char}
    {front text : List Char} (nonempty : text ≠ [])
    (isAbsent : absent pattern back before (front ++ text) = true) {piece rest : List Char}
    {captures : List (Capture Char)} (same : text ++ back = piece ++ rest) :
    ¬pattern.Spells (lastOf before front) piece rest captures := by
  induction front generalizing before with
  | nil =>
    obtain ⟨c, text, rfl⟩ := List.exists_cons_of_ne_nil nonempty
    intro spells
    let place : Place Char := ⟨before, 0, c :: (text ++ back)⟩
    have starts : place.rest = piece ++ rest := same
    obtain ⟨found, here⟩ := exists_matchAt_of_spells starts spells
    rw [List.nil_append, absent, Bool.and_eq_true, here] at isAbsent
    cases isAbsent.1
  | cons c front ih =>
    rw [List.cons_append, absent, Bool.and_eq_true] at isAbsent
    rw [lastOf_cons]
    exact ih isAbsent.2

theorem ne_nil_of_spells_exportWord {before : Option Char} {piece rest : List Char}
    {captures : List (Capture Char)} (spells : exportWord.Spells before piece rest captures) :
    piece ≠ [] := by
  obtain ⟨_, _, _, _, edge, behindEdge, rfl, rfl⟩ := spells_all_cons.mp spells
  obtain ⟨-, rfl, rfl⟩ := spells_wordEdge.mp edge
  obtain ⟨_, _, _, _, word, -, rfl, rfl⟩ := spells_all_cons.mp behindEdge
  obtain ⟨rfl, -⟩ := spells_text.mp word
  exact List.cons_ne_nil _ _

theorem textOf_append (parts others : List Part) :
    textOf (parts ++ others) = textOf parts ++ textOf others :=
  List.flatMap_append

theorem textOf_cons (part : Part) (parts : List Part) :
    textOf (part :: parts) = part.text ++ textOf parts :=
  List.flatMap_cons

/-- Each part fits where it stands. -/
theorem fits_of_isFormed {front : List Char} {parts after : List Part} {part : Part}
    (formed : isFormed front (parts ++ part :: after) = true) :
    part.fits (front ++ textOf parts) (textOf after) = true := by
  induction parts generalizing front with
  | nil =>
    rw [List.nil_append, isFormed, Bool.and_eq_true] at formed
    simpa [textOf] using formed.1
  | cons first parts ih =>
    rw [List.cons_append, isFormed, Bool.and_eq_true] at formed
    rw [textOf_cons, ← List.append_assoc]
    exact ih formed.2

/-- Inside a quiet part no export starts. -/
theorem Part.not_spells_of_isQuiet {front back middle text : List Char} {part : Part}
    (quiet : part.isQuiet front back = true) (split : part.text = middle ++ text)
    (nonempty : text ≠ []) (inner : part.isExport = true → middle ≠ []) {piece rest : List Char}
    {captures : List (Capture Char)} (same : text ++ back = piece ++ rest) :
    ¬exportWord.Spells (lastOf none (front ++ middle)) piece rest captures := by
  rw [isQuiet] at quiet
  split at quiet
  next exports =>
    -- the word that the part itself starts with is passed over
    obtain ⟨c, middle, rfl⟩ := List.exists_cons_of_ne_nil (inner exports)
    have first : c = 'e' := by
      cases part with
      | code _ => cases exports
      | list gap typed slots => exact (List.cons.inj split).1.symm
      | declaration exported modifiers heading =>
        cases exported with
        | none => cases exports
        | some gap => exact (List.cons.inj split).1.symm
    subst first
    rw [split, List.cons_append, List.tail_cons] at quiet
    have absent := @not_spells_of_absent _ _ _ _ _ nonempty quiet _ _ captures same
    rwa [lastOf_append, lastOf_cons]
  next =>
    rw [split] at quiet
    rw [lastOf_append]
    exact not_spells_of_absent nonempty quiet same

/-- Where the word `export` stands, an exporting part starts. -/
theorem exists_part_of_spells {front : List Char} {parts : List Part}
    (formed : isFormed front parts = true) {middle piece rest : List Char}
    {captures : List (Capture Char)} (same : textOf parts = middle ++ (piece ++ rest))
    (spells : exportWord.Spells (lastOf none (front ++ middle)) piece rest captures) :
    ∃ part after, part ∈ parts ∧ part.isExport = true ∧
      part.fits (front ++ middle) (textOf after) = true ∧
        piece ++ rest = part.text ++ textOf after := by
  induction parts generalizing front middle with
  | nil =>
    have empty : middle ++ (piece ++ rest) = [] := same.symm
    rw [List.append_eq_nil_iff, List.append_eq_nil_iff] at empty
    exact absurd empty.2.1 (ne_nil_of_spells_exportWord spells)
  | cons part parts ih =>
    -- the word lies behind the first part
    have later {more : List Char} (passed : middle = part.text ++ more)
        (left : textOf parts = more ++ (piece ++ rest)) :
        ∃ own after, own ∈ part :: parts ∧ own.isExport = true ∧
          own.fits (front ++ middle) (textOf after) = true ∧
            piece ++ rest = own.text ++ textOf after := by
      rw [isFormed, Bool.and_eq_true] at formed
      subst passed
      rw [← List.append_assoc] at spells ⊢
      obtain ⟨own, after, member, rest⟩ := ih formed.2 left spells
      exact ⟨own, after, List.mem_cons_of_mem _ member, rest⟩
    rw [textOf_cons] at same
    rcases List.append_eq_append_iff.mp same with ⟨more, passed, left⟩ | ⟨text, split, here⟩
    · exact later passed left
    · by_cases behind : text = []
      · rw [behind, List.append_nil] at split
        exact later (by rw [split, List.append_nil]) (by simpa [behind] using here.symm)
      · have fits : part.fits front (textOf parts) = true := by
          rw [isFormed, Bool.and_eq_true] at formed
          exact formed.1
        -- It lies in the first part. At the start of an exporting part it is that part's own, and
        -- anywhere else a part that fits is quiet.
        by_cases start : part.isExport = true ∧ middle = []
        · obtain ⟨exports, rfl⟩ := start
          refine ⟨part, parts, List.mem_cons_self, exports, by simpa using fits, ?_⟩
          rw [here, split, List.nil_append]
        · have inner : part.isExport = true → middle ≠ [] := fun exports empty =>
            start ⟨exports, empty⟩
          have quiet := ((Bool.and_eq_true _ _).mp fits).1
          exact absurd spells (Part.not_spells_of_isQuiet quiet split behind inner here.symm)

/-- Where a pattern matches that starts with the word `export`, an exporting part starts. -/
theorem exists_part_of_match {parts : List Part} (formed : isFormed [] parts = true)
    {others : List (Pattern Char)} {front piece rest : List Char} {captures : List (Capture Char)}
    (same : textOf parts = front ++ (piece ++ rest))
    (spells : (all ([wordEdge, text "export", gap] ++ others)).Spells (lastOf none front) piece rest
      captures) :
    ∃ part after, part ∈ parts ∧ part.isExport = true ∧ part.isWhole front (textOf after) = true ∧
      part.text ++ textOf after = piece ++ rest := by
  obtain ⟨first, second, _, _, word, -, rfl, -⟩ := spells_all_append.mp spells
  rw [List.append_assoc] at same ⊢
  obtain ⟨part, after, own, exports, fits, here⟩ := exists_part_of_spells formed same word
  exact ⟨part, after, own, exports, ((Bool.and_eq_true _ _).mp fits).2, here.symm⟩

/-! ## Declared names -/

theorem Part.getLast?_lead {front : List Char} (edge : front.getLast?.any Name.isTail = false)
    (exported : Option Gap) (modifiers : List Modifier) :
    (front ++ lead exported modifiers).getLast?.any Name.isTail = false := by
  have behind (front : List Char) (word : String) (gap : Gap) :
      (front ++ (word.toList ++ gap.text)).getLast?.any Name.isTail = false := by
    rw [← List.append_assoc]
    exact getLast?_append_gap gap.isGap _ Name.isTail_eq_false_of_isBlank
  have start : (front ++ optionalWord "export" exported).getLast?.any Name.isTail = false := by
    cases exported with
    | none => simpa [optionalWord] using edge
    | some gap => exact behind front "export" gap
  rw [lead, ← List.append_assoc]
  generalize front ++ optionalWord "export" exported = front at start
  induction modifiers generalizing front with
  | nil => simpa using start
  | cons modifier modifiers ih =>
    rw [List.flatMap_cons, ← List.append_assoc]
    exact ih _ (behind front modifier.word modifier.gap)

theorem Heading.heads (heading : Heading) {back : List Char}
    (stops : (heading.closing ++ back).head?.any Name.isTail = false) :
    heading.kind.Heads heading.name.text (heading.text ++ back) :=
  ⟨heading.word, heading.own, heading.separator, heading.closing, back, heading.separates,
    heading.name.bindable, stops, heading.closes, by simp [Heading.text]⟩

/-- The name of every heading is found. -/
theorem mem_declaredIn_of_mem_declaredNames {parts : List Part} (formed : isFormed [] parts = true)
    {name : String} (member : name ∈ declaredNames parts) : name ∈ declaredIn (textOf parts) := by
  obtain ⟨part, own, named⟩ := List.mem_flatMap.mp member
  cases part with
  | code _ | list _ _ _ => cases named
  | declaration exported modifiers heading =>
    obtain rfl := List.mem_singleton.mp named
    obtain ⟨before, after, rfl⟩ := List.append_of_mem own
    have whole := ((Bool.and_eq_true _ _).mp (fits_of_isFormed formed)).2
    simp only [List.nil_append, Part.isWhole, Bool.and_eq_true, Bool.not_eq_true'] at whole
    obtain ⟨⟨edge, stops⟩, closed⟩ := whole
    have found := (heading.heads stops).mem_namesOf
      (Part.getLast?_lead edge exported modifiers) closed
    have text : textOf (before ++ .declaration exported modifiers heading :: after) =
        textOf before ++ Part.lead exported modifiers ++ (heading.text ++ textOf after) := by
      rw [textOf_append, textOf_cons, Part.text_declaration, List.append_assoc, List.append_assoc]
    rw [text]
    exact Kind.mem_declaredIn_of_mem_namesOf found

end ImportSupply.Export
