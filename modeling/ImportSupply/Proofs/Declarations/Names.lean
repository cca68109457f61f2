import ImportSupply.Declarations
import ImportSupply.Globals
import ImportSupply.Proofs.ImportBlock.Line
import ImportSupply.Proofs.Pattern.Run
import ImportSupply.Proofs.Text.Classes
import Mathlib.Data.List.Nodup
import Mathlib.Data.String.Basic

/-!
# Declaration files declare the registered names

A declaration file is read back by three searches that know nothing of lines: one for the global
block, and in its body one for constants and one for types. What they find is composed from what
they find in the parts of the file (`Yields`):

* **the declared name** — a line's own search finds the name behind the line's keyword
  (`yields_declared`);
* **the other kind of line** — a search is stuck where its mark does not come before that of the
  line (`skips_foreign`);
* **the module behind it** — without blanks no keyword in a specifier is followed by a name
  (`skips_reference`).
-/

namespace ImportSupply

open Pattern

/-- What the parts of an entry must be for its declaration to be read back: the local name is a run
of name characters, and the module's specifier and the provided name hold no blank and no closing
brace. -/
structure Entry.Declarable (entry : Entry) : Prop where
  named : entry.localName.toList ≠ []
  localName : ∀ c ∈ entry.localName.toList, Name.isTail c = true
  source : ∀ c ∈ entry.source.toList, Text.isBlank c = false ∧ c ≠ '}'
  name : ∀ c ∈ entry.name.toList, Text.isBlank c = false ∧ c ≠ '}'

instance (entry : Entry) : Decidable entry.Declarable :=
  decidable_of_iff
    (entry.localName.toList ≠ [] ∧ (∀ c ∈ entry.localName.toList, Name.isTail c = true) ∧
      (∀ c ∈ entry.source.toList, Text.isBlank c = false ∧ c ≠ '}') ∧
      ∀ c ∈ entry.name.toList, Text.isBlank c = false ∧ c ≠ '}')
    ⟨fun ⟨named, localName, source, name⟩ => ⟨named, localName, source, name⟩,
      fun ⟨named, localName, source, name⟩ => ⟨named, localName, source, name⟩⟩

/-! ## Names found in a text -/

namespace Pattern

/-- The pieces that matches remember in group 1, as names. -/
def named (found : List (Match Char)) : List String :=
  found.filterMap fun one => (one.piece? 1).map String.ofList

/-- A text in which a pattern finds certain names, whatever stands around it. -/
def Yields (pattern : Pattern Char) (text : List Char) (names : List String) : Prop :=
  ∀ before index back,
    named (pattern.matchesFrom 0 before index (text ++ back)) =
      names ++ named (pattern.matchesFrom 0 (lastOf before text) (index + text.length) back)

variable {pattern : Pattern Char} {text other : List Char} {names more : List String}

theorem Yields.append (first : Yields pattern text names) (second : Yields pattern other more) :
    Yields pattern (text ++ other) (names ++ more) := by
  intro before index back
  rw [List.append_assoc, first, second, lastOf_append, List.length_append, List.append_assoc,
    Nat.add_assoc]

theorem Skips.yields (skips : pattern.Skips text) : Yields pattern text [] := by
  intro before index back
  rw [skips.matchesFrom_append, List.nil_append]

theorem yields_of_matchAt (nonempty : text ≠ []) {name : List Char}
    (starts : ∀ before index back, ∃ found,
      pattern.matchAt ⟨before, index, text ++ back⟩ = some found ∧
        found.length = text.length ∧ found.piece? 1 = some name) :
    Yields pattern text [String.ofList name] := by
  obtain ⟨c, text, rfl⟩ := List.exists_cons_of_ne_nil nonempty
  intro before index back
  obtain ⟨found, starts, length, piece⟩ := starts before index back
  rw [List.cons_append] at starts ⊢
  rw [matchesFrom, starts]
  simp only [length, List.length_cons, Nat.add_sub_cancel]
  rw [matchesFrom_length, lastOf_cons, Nat.add_comm text.length, ← Nat.add_assoc]
  simp [named, piece]

theorem Yields.flatMap {γ : Type} {parts : List γ} {part : γ → List Char} {found : γ → List String}
    (yields : ∀ one ∈ parts, Yields pattern (part one) (found one)) :
    Yields pattern (parts.flatMap part) (parts.flatMap found) := by
  induction parts with
  | nil => exact fun _ _ _ => rfl
  | cons one parts ih =>
    rw [List.flatMap_cons, List.flatMap_cons]
    exact (yields one List.mem_cons_self).append
      (ih fun other member => yields other (List.mem_cons_of_mem one member))

theorem Yields.namesOf_eq (yields : Yields pattern text names) :
    Globals.namesOf pattern text = names := by
  have all := yields none 0 []
  rw [List.append_nil] at all
  simpa [matchesFrom, named, Globals.namesOf, allMatches] using all

end Pattern

namespace Globals

/-! ## One declaration -/

/-- A declaration in a global block: its keyword, its name in group 1 and the mark behind it. -/
def declarationOf (word : String) (mark : Char) : Pattern Char :=
  all [text word, gap, declaredName, blanks, one (· == mark)]

theorem constant_eq : constant = declarationOf "const" ':' :=
  rfl

theorem typeAlias_eq : typeAlias = declarationOf "type" '=' :=
  rfl

theorem head?_isBlank_of_isTail {name : List Char} (tail : ∀ c ∈ name, Name.isTail c = true)
    (nonempty : name ≠ []) (rest : List Char) :
    (name ++ rest).head?.any Text.isBlank = false := by
  obtain ⟨c, name, rfl⟩ := List.exists_cons_of_ne_nil nonempty
  exact Name.isBlank_eq_false_of_isTail (tail c List.mem_cons_self)

/-- A search finds the name behind its keyword. -/
theorem yields_declared (word : String) {mark : Char} (outside : Name.isTail mark = false)
    (visible : Text.isBlank mark = false) {name pad : List Char}
    (tail : ∀ c ∈ name, Name.isTail c = true) (nonempty : name ≠ [])
    (padded : ∀ c ∈ pad, Text.isBlank c = true) :
    Yields (declarationOf word mark) (word.toList ++ (' ' :: (name ++ (pad ++ [mark]))))
      [String.ofList name] := by
  refine yields_of_matchAt (by simp) fun before index back => ?_
  have space : ∀ c ∈ [' '], Text.isBlank c = true := by decide
  have whole : word.toList ++ (' ' :: (name ++ (pad ++ [mark]))) ++ back =
      word.toList ++ ([' '] ++ (name ++ (pad ++ mark :: back))) := by
    simp
  refine ⟨⟨index, (word.toList ++ (' ' :: (name ++ (pad ++ [mark])))).length,
    [⟨1, name ++ (pad ++ mark :: back), name.length⟩]⟩, ?_, rfl, ?_⟩
  · have parts : declarationOf word mark =
        seq (text word) (seq gap (seq declaredName (seq blanks (one (· == mark))))) :=
      rfl
    rw [whole, matchAt, parts, run_seq, run_text_append, run_seq, gap,
      run_several_append (by simp) space (head?_isBlank_of_isTail tail nonempty _), run_seq,
      declaredName, run,
      run_several_append nonempty tail (Name.head?_isTail_of_padded padded outside _), run_seq,
      blanks,
      run_many_append padded (by simpa using visible), run_one (· == mark) (by simp)]
    simp only [List.length_append, List.length_cons, List.length_nil, Option.some.injEq,
      Match.mk.injEq, List.cons.injEq, Capture.mk.injEq, and_true, true_and]
    omega
  · simp [Match.piece?, Capture.piece]

/-- Before another line's mark a search is stuck, as its own mark does not come first. -/
theorem skips_foreign {word : String} {mark barrier : Char} (other : mark ≠ barrier)
    (closed : ∀ part ∈ [text word, gap, declaredName, blanks], part.reads barrier = false)
    {front : List Char} (without : mark ∉ front) :
    (declarationOf word mark).Skips (front ++ [barrier]) := by
  refine @skips_of_stuck _ _ _ (· != mark) _ (fun back => ?_) fun c member => ?_
  · refine stuck_all [text word, gap, declaredName, blanks] [] closed ?_
    exact stuck_before [mark] rfl (by simp [starts]) (by simp) (by simpa using Ne.symm other) back
  · rw [bne_iff_ne]
    rintro rfl
    exact without member

/-- Without blanks, up to a closing bracket, no keyword is followed by a name. -/
theorem skips_reference {word : String} (mark : Char) (closed : (text word).reads ']' = false)
    {front : List Char} (solid : ∀ c ∈ front, Text.isBlank c = false) :
    (declarationOf word mark).Skips (front ++ [']']) := by
  refine @skips_of_stuck _ _ _ (fun c => !Text.isBlank c) _ (fun back => ?_) fun c member => ?_
  · refine stuck_all [text word] [declaredName, blanks, one (· == mark)] (by simpa using closed) ?_
    refine stuck_before_of_starts rfl (fun c begins => ?_) (by decide) back
    simpa [gap, several, starts, nullable] using begins
  · simpa using solid c member

/-- A global block remembers what stands between its braces. -/
theorem matchAt_globalBlock {body : List Char} (closed : '\x7d' ∉ body) (before : Option Char)
    (index : Nat) (back : List Char) :
    ∃ found, globalBlock.matchAt ⟨before, index, "declare".toList ++ ([' '] ++ ("global".toList ++
      ([' '] ++ '\x7b' :: (body ++ '\x7d' :: back))))⟩ = some found ∧
        found.piece? 1 = some body := by
  have inside : ∀ c ∈ body, (c != '\x7d') = true := by
    intro c member
    rw [bne_iff_ne]
    rintro rfl
    exact closed member
  have space : ∀ c ∈ [' '], Text.isBlank c = true := by decide
  have parts : globalBlock = seq (text "declare") (seq gap (seq (text "global") (seq blanks
      (seq (one (· == '\x7b')) (seq (group 1 (many (· != '\x7d'))) (one (· == '\x7d'))))))) :=
    rfl
  rw [matchAt, parts, run_seq, run_text_append, run_seq, gap,
    run_several_append (by simp) space rfl, run_seq, run_text_append, run_seq, blanks,
    run_many_append space rfl, run_seq, run_one (· == '\x7b') (by decide), run_seq, run,
    run_many_append inside rfl, run_one (· == '\x7d') (by decide)]
  refine ⟨_, rfl, ?_⟩
  simp [Match.piece?, Capture.piece]

end Globals

namespace Declarations

open Globals

/-! ## One line -/

/-- What a line refers to, up to the last bracket. -/
def reference (entry : Entry) : List Char :=
  "import(".toList ++ ImportBlock.quoteSource entry.source ++ ")['".toList ++ entry.name.toList ++
    ['\'']

theorem line_eq_of_isType {entry : Entry} (isType : entry.isType = true) :
    line entry = "  ".toList ++ ("type".toList ++ (' ' :: (entry.localName.toList ++
      ([' '] ++ ['=']))) ++ (" ".toList ++ (reference entry ++ [']'] ++ ['\n']))) := by
  unfold line reference
  simp only [isType, if_true, List.append_assoc, List.cons_append, List.nil_append]
  simp

theorem line_eq_of_not_isType {entry : Entry} (isValue : entry.isType = false) :
    line entry = "  ".toList ++ ("const".toList ++ (' ' :: (entry.localName.toList ++
      ([] ++ [':']))) ++ (" typeof ".toList ++ (reference entry ++ [']'] ++ ['\n']))) := by
  unfold line reference
  simp only [isValue, Bool.false_eq_true, if_false, List.append_assoc, List.cons_append,
    List.nil_append]
  simp

theorem mem_reference {entry : Entry} {c : Char} (member : c ∈ reference entry) :
    c ∈ "import()['\\".toList ∨ c ∈ entry.source.toList ∨ c ∈ entry.name.toList := by
  unfold reference at member
  simp only [List.mem_append, List.mem_singleton] at member
  rcases member with (((member | member) | member) | member) | rfl
  · left; revert c; decide
  · rcases ImportBlock.mem_quoteSource member with added | own
    · left
      clear member
      revert c
      decide
    · exact .inr (.inl own)
  · left; revert c; decide
  · exact .inr (.inr member)
  · left; decide

theorem isBlank_eq_false_of_mem_reference {entry : Entry} (declarable : entry.Declarable) {c : Char}
    (member : c ∈ reference entry) : Text.isBlank c = false := by
  rcases mem_reference member with written | member | member
  · clear member
    revert c
    decide
  · exact (declarable.source c member).1
  · exact (declarable.name c member).1

theorem brace_not_mem_reference {entry : Entry} (declarable : entry.Declarable) :
    '}' ∉ reference entry := by
  intro member
  rcases mem_reference member with member | member | member
  · revert member; decide
  · exact (declarable.source _ member).2 rfl
  · exact (declarable.name _ member).2 rfl

theorem not_mem_localName {entry : Entry} (declarable : entry.Declarable) {c : Char}
    (outside : Name.isTail c = false) : c ∉ entry.localName.toList := by
  intro member
  rw [declarable.localName c member] at outside
  cases outside

/-- A search finds in a line what it finds up to the mark behind the name, if it passes over the
words in front of the reference. -/
theorem yields_line {entry : Entry} (declarable : entry.Declarable) {word : String} {mark : Char}
    {heading words : List Char} {names : List String}
    (split : line entry =
      "  ".toList ++ (heading ++ (words ++ (reference entry ++ [']'] ++ ['\n']))))
    (needs : (declarationOf word mark).nullable = false)
    (solid : ∀ c ∈ [' ', '\n'], (declarationOf word mark).starts c = false)
    (closed : (Pattern.text word).reads ']' = false)
    (found : Yields (declarationOf word mark) heading names)
    (between : Yields (declarationOf word mark) words []) :
    Yields (declarationOf word mark) (line entry) names := by
  have indent : Yields (declarationOf word mark) "  ".toList [] :=
    Skips.yields (skips_of_starts needs (by simpa using solid ' ' (by simp)))
  have lineEnd : Yields (declarationOf word mark) ['\n'] [] :=
    Skips.yields (skips_of_starts needs (by simpa using solid '\n' (by simp)))
  have behind : Yields (declarationOf word mark) (reference entry ++ [']']) [] := Skips.yields
    (skips_reference mark closed fun c => isBlank_eq_false_of_mem_reference declarable)
  have whole := indent.append (found.append (between.append (behind.append lineEnd)))
  rw [split]
  simpa only [List.append_nil, List.nil_append] using whole

/-- In the line of a value, the search for constants finds its name. -/
theorem yields_constant_line {entry : Entry} (declarable : entry.Declarable) :
    Yields constant (line entry) (if entry.isType == false then [entry.localName] else []) := by
  rw [constant_eq]
  cases isType : entry.isType with
  | true =>
    -- a type's line ends its name with an equals sign and never gets to a colon
    have foreign : Yields (declarationOf "const" ':')
        ("type".toList ++ (' ' :: (entry.localName.toList ++ ([' '] ++ ['='])))) [] := by
      have without : ':' ∉ "type ".toList ++ entry.localName.toList ++ [' '] := by
        simp [not_mem_localName declarable (by decide : Name.isTail ':' = false)]
      have skips := @skips_foreign "const" ':' '=' (by decide) (by decide) _ without
      simpa using skips.yields
    exact yields_line declarable (line_eq_of_isType isType) rfl (by decide) rfl foreign
      (Skips.yields (skips_of_starts rfl (by decide)))
  | false =>
    have own := @yields_declared "const" ':' (by decide) (by decide) entry.localName.toList []
      declarable.localName declarable.named (by simp)
    rw [String.ofList_toList] at own
    exact yields_line declarable (line_eq_of_not_isType isType) rfl (by decide) rfl own
      (Skips.yields (skips_of_starts rfl (by decide)))

/-- In the line of a type, the search for types finds its name; `typeof` is no keyword of it. -/
theorem yields_typeAlias_line {entry : Entry} (declarable : entry.Declarable) :
    Yields typeAlias (line entry) (if entry.isType == true then [entry.localName] else []) := by
  rw [typeAlias_eq]
  cases isType : entry.isType with
  | true =>
    have own := @yields_declared "type" '=' (by decide) (by decide) entry.localName.toList [' ']
      declarable.localName declarable.named (by decide)
    rw [String.ofList_toList] at own
    exact yields_line declarable (line_eq_of_isType isType) rfl (by decide) rfl own
      (Skips.yields (skips_of_starts rfl (by decide)))
  | false =>
    have foreign : Yields (declarationOf "type" '=')
        ("const".toList ++ (' ' :: (entry.localName.toList ++ ([] ++ [':'])))) [] := by
      have without : '=' ∉ "const ".toList ++ entry.localName.toList := by
        simp [not_mem_localName declarable (by decide : Name.isTail '=' = false)]
      have skips := @skips_foreign "type" '=' ':' (by decide) (by decide) _ without
      simpa using skips.yields
    -- the keyword `type` starts here, and its gap fails at the `o`
    have words : Yields (declarationOf "type" '=') " typeof ".toList [] := by
      have typeof : (declarationOf "type" '=').Skips ['t', 'y', 'p', 'e', 'o'] :=
        ⟨fun _ _ _ => rfl, fun _ _ _ => rfl, fun _ _ _ => rfl, fun _ _ _ => rfl,
          fun _ _ _ => rfl, trivial⟩
      have space : (declarationOf "type" '=').Skips [' '] := skips_of_starts rfl (by decide)
      have ending : (declarationOf "type" '=').Skips ['f', ' '] := skips_of_starts rfl (by decide)
      exact Skips.yields (space.append (typeof.append ending))
    exact yields_line declarable (line_eq_of_not_isType isType) rfl (by decide) rfl foreign words

/-! ## The whole file -/

/-- The text of a declaration file up to its global block. -/
def front : List Char :=
  banner.toList ++ "\nexport \x7b\x7d\n\n".toList

/-- What stands between the braces of the global block. -/
def body (registry : Registry) : List Char :=
  '\n' :: (sorted registry.entries).flatMap line

theorem text_eq (registry : Registry) :
    text registry = front ++ ("declare".toList ++ ([' '] ++ ("global".toList ++
      ([' '] ++ ('\x7b' :: (body registry ++ '\x7d' :: ['\n'])))))) := by
  unfold text front body
  simp

/-- No `d` in front of the global block begins the word that it needs. -/
theorem skips_front : globalBlock.Skips front := by
  have generated : globalBlock.Skips "// Generate".toList := skips_of_starts rfl (by decide)
  have blank : globalBlock.Skips ['d', ' '] := ⟨fun _ _ _ => rfl, fun _ _ _ => rfl, trivial⟩
  have words : globalBlock.Skips "by auto-imports-native. Do not e".toList :=
    skips_of_starts rfl (by decide)
  have letter : globalBlock.Skips ['d', 'i'] := ⟨fun _ _ _ => rfl, fun _ _ _ => rfl, trivial⟩
  have ending : globalBlock.Skips "t.\nexport \x7b\x7d\n\n".toList :=
    skips_of_starts rfl (by decide)
  have pieces : front = "// Generate".toList ++ (['d', ' '] ++
      ("by auto-imports-native. Do not e".toList ++ (['d', 'i'] ++
        "t.\nexport \x7b\x7d\n\n".toList))) := by
    decide
  rw [pieces]
  exact generated.append (blank.append (words.append (letter.append ending)))

theorem mem_sorted {entry : Entry} {entries : List Entry} :
    entry ∈ sorted entries ↔ entry ∈ entries :=
  (List.mergeSort_perm entries _).mem_iff

theorem brace_not_mem_line {entry : Entry} (declarable : entry.Declarable) :
    '\x7d' ∉ line entry := by
  have reference := brace_not_mem_reference declarable
  have name := not_mem_localName declarable (by decide : Name.isTail '\x7d' = false)
  cases isType : entry.isType with
  | true =>
    rw [line_eq_of_isType isType]
    simp [reference, name]
  | false =>
    rw [line_eq_of_not_isType isType]
    simp [reference, name]

theorem brace_not_mem_body {registry : Registry}
    (declarable : ∀ entry ∈ registry.entries, entry.Declarable) : '\x7d' ∉ body registry := by
  intro member
  rcases List.mem_cons.mp member with wrong | member
  · revert wrong; decide
  · obtain ⟨entry, own, member⟩ := List.mem_flatMap.mp member
    exact brace_not_mem_line (declarable entry (mem_sorted.mp own)) member

/-- The first global block of a declaration file is the one written. -/
theorem firstMatch?_text {registry : Registry}
    (declarable : ∀ entry ∈ registry.entries, entry.Declarable) :
    ((globalBlock.firstMatch? (text registry)).bind fun found => found.piece? 1) =
      some (body registry) := by
  obtain ⟨found, starts, piece⟩ := matchAt_globalBlock (brace_not_mem_body declarable)
    (lastOf none front) (0 + front.length) ['\n']
  have leftmost : (globalBlock.firstMatch? (text registry)) = some found := by
    rw [firstMatch?, allMatches, text_eq, skips_front.matchesFrom_append]
    exact head?_matchesFrom starts (by simp)
  rw [leftmost, Option.bind_some, piece]

/-- The entries of one kind, in increasing order of their local names. -/
def sortedNames (registry : Registry) (isType : Bool) : List String :=
  ((sorted registry.entries).filter fun entry => entry.isType == isType).map Entry.localName

theorem sortedNames_eq_flatMap (registry : Registry) (isType : Bool) :
    sortedNames registry isType = (sorted registry.entries).flatMap fun entry =>
      if entry.isType == isType then [entry.localName] else [] := by
  rw [sortedNames]
  induction sorted registry.entries with
  | nil => rfl
  | cons entry entries ih =>
    rw [List.flatMap_cons, List.filter_cons, ← ih]
    split <;> rfl

/-- Local names are registered once, so they increase strictly. -/
theorem pairwise_sorted (registry : Registry) :
    (sorted registry.entries).Pairwise fun a b => a.localName < b.localName := by
  have increasing : (sorted registry.entries).Pairwise fun a b => a.localName ≤ b.localName := by
    refine (List.pairwise_mergeSort (fun a b c => ?_) (fun a b => ?_) registry.entries).imp ?_
    · simpa using le_trans
    · simpa using le_total a.localName b.localName
    · simp
  have nodup : ((sorted registry.entries).map Entry.localName).Nodup :=
    ((List.mergeSort_perm _ _).map _).nodup_iff.mpr registry.nodup_localName
  have distinct := List.pairwise_map.mp nodup
  exact increasing.imp₂ (fun a b le ne => lt_of_le_of_ne le ne) distinct

theorem sortedNames_pairwise (registry : Registry) (isType : Bool) :
    (sortedNames registry isType).Pairwise (· < ·) :=
  List.pairwise_map.mpr ((pairwise_sorted registry).filter _)

theorem sortedNames_perm (registry : Registry) (isType : Bool) :
    (sortedNames registry isType).Perm
      ((registry.entries.filter fun entry => entry.isType == isType).map Entry.localName) :=
  ((List.mergeSort_perm _ _).filter _).map _

theorem names_eq {registry : Registry}
    (declarable : ∀ entry ∈ registry.entries, entry.Declarable) :
    names (text registry) = sortedNames registry false ++ sortedNames registry true := by
  have own : ∀ entry ∈ sorted registry.entries, entry.Declarable :=
    fun entry member => declarable entry (mem_sorted.mp member)
  have constants : Yields constant (body registry) (sortedNames registry false) := by
    have lineEnd : Yields constant ['\n'] [] := Skips.yields (skips_of_starts rfl (by decide))
    have lines := Yields.flatMap fun entry member => yields_constant_line (own entry member)
    rw [sortedNames_eq_flatMap]
    exact lineEnd.append lines
  have types : Yields typeAlias (body registry) (sortedNames registry true) := by
    have lineEnd : Yields typeAlias ['\n'] [] := Skips.yields (skips_of_starts rfl (by decide))
    have lines := Yields.flatMap fun entry member => yields_typeAlias_line (own entry member)
    rw [sortedNames_eq_flatMap]
    exact lineEnd.append lines
  rw [names, firstMatch?_text declarable]
  simp only [constants.namesOf_eq, types.namesOf_eq]

theorem eraseDups_eq_self {list : List String} (nodup : list.Nodup) : list.eraseDups = list := by
  induction list with
  | nil => rfl
  | cons first rest ih =>
    obtain ⟨new, nodup⟩ := List.nodup_cons.mp nodup
    have kept : rest.filter (fun other => !other == first) = rest := by
      rw [List.filter_eq_self]
      rintro other member
      rw [Bool.not_eq_true', beq_eq_false_iff_ne]
      rintro rfl
      exact new member
    rw [List.eraseDups_cons, kept, ih nodup]

theorem nodup_sortedNames (registry : Registry) :
    (sortedNames registry false ++ sortedNames registry true).Nodup := by
  have increasing (isType : Bool) : (sortedNames registry isType).Nodup :=
    (sortedNames_pairwise registry isType).imp ne_of_lt
  refine List.nodup_append.mpr ⟨increasing false, increasing true, ?_⟩
  -- a local name of both kinds would be that of two entries
  intro value isValue type isType same
  obtain ⟨entry, own, rfl⟩ := List.mem_map.mp ((sortedNames_perm registry false).mem_iff.mp isValue)
  obtain ⟨other, own', rfl⟩ := List.mem_map.mp ((sortedNames_perm registry true).mem_iff.mp isType)
  simp only [List.mem_filter, beq_iff_eq] at own own'
  have equal := List.inj_on_of_nodup_map registry.nodup_localName own.1 own'.1 same
  rw [equal, own'.2] at own
  cases own.2

/-- The names read back from the declaration file of a registry are its values and then its types,
each in increasing order and once, and they are the keys of the globals file, in this order. -/
theorem names_text (registry : Registry)
    (declarable : ∀ entry ∈ registry.entries, entry.Declarable) (setting : Setting) :
    ∃ values types : List String,
      values.Pairwise (· < ·) ∧
      values.Perm ((registry.entries.filter fun entry => !entry.isType).map Entry.localName) ∧
      types.Pairwise (· < ·) ∧
      types.Perm ((registry.entries.filter fun entry => entry.isType).map Entry.localName) ∧
      names (text registry) = values ++ types ∧
      text? setting (text registry) = some ((Json.Value.object [("globals", .object
        ((values ++ types).map fun name => (name, setting.toJson)))]).indented 0) := by
  have visible : Text.isBlankText (text registry) = false := by
    rw [text_eq]
    rfl
  refine ⟨sortedNames registry false, sortedNames registry true,
    sortedNames_pairwise registry false, ?_, sortedNames_pairwise registry true, ?_,
    names_eq declarable, ?_⟩
  · simpa using sortedNames_perm registry false
  · simpa using sortedNames_perm registry true
  · rw [text?, visible, if_neg Bool.false_ne_true, names_eq declarable, toJson,
      eraseDups_eq_self (nodup_sortedNames registry)]

/-- A registry whose names, modules and provided names look like declarations. -/
def keywordLike : Registry :=
  .ofEntries
    [.value "type" "./const", .value "mytype" "type=const:", .type "typeof" "./type='t'",
      .type "const" "./consttype", .value "global" "./declare\x7b",
      ⟨"default", some "$x", "./type", false⟩, ⟨"const:", some "été", "m", true⟩]

theorem names_text_keywordLike :
    (∀ entry ∈ keywordLike.entries, entry.Declarable) ∧
      ∃ values types : List String,
        values.Pairwise (· < ·) ∧
        values.Perm ((keywordLike.entries.filter fun entry => !entry.isType).map Entry.localName) ∧
        types.Pairwise (· < ·) ∧
        types.Perm ((keywordLike.entries.filter fun entry => entry.isType).map Entry.localName) ∧
        names (text keywordLike) = values ++ types ∧
        text? (.access .readonly) (text keywordLike) = some ((Json.Value.object [("globals", .object
          ((values ++ types).map fun name => (name, .string "readonly")))]).indented 0) := by
  have declarable : ∀ entry ∈ keywordLike.entries, entry.Declarable := by decide +kernel
  exact ⟨declarable, names_text keywordLike declarable (.access .readonly)⟩

end Declarations

end ImportSupply
