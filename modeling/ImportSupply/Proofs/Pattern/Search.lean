import ImportSupply.Pattern.Script
import ImportSupply.Proofs.Pattern.Ways

/-!
# Searching joined texts

The matches of a pattern in a text that stands behind another one. A pattern of words sees of what
precedes a place only whether it is a word character (`SeesWords`), so behind a text that ends
outside a word the search finds what it finds at the start, further to the right (`Match.shift`).
That needs a search that arrives there: either no match starts in the text in front (`Skips`), or
every match that starts in it ends in it (`Confined`).
-/

namespace ImportSupply

variable {α β γ : Type}

/-- A match in a text that stands behind so many other symbols. -/
def Match.shift (offset : Nat) (found : Match α) : Match α :=
  { found with index := found.index + offset }

namespace Pattern

/-! ## Places that look alike -/

/-- Patterns that see of the symbol before a place only whether it is a word character. -/
def SeesWords : Pattern Char → Prop
  | between related => ∀ before other after,
      before.any Text.isWord = other.any Text.isWord → related before after = related other after
  | seq first second => first.SeesWords ∧ second.SeesWords
  | either first second => first.SeesWords ∧ second.SeesWords
  | group _ body => body.SeesWords
  | _ => True

@[simp]
theorem seesWords_wordEdge : wordEdge.SeesWords := by
  intro before other after same
  simp only [same]

@[simp]
theorem seesWords_all {patterns : List (Pattern Char)} :
    (all patterns).SeesWords ↔ ∀ pattern ∈ patterns, pattern.SeesWords := by
  induction patterns with
  | nil => simp [all, SeesWords]
  | cons pattern rest ih =>
    cases rest with
    | nil => simp [all]
    | cons next rest => simpa [all, SeesWords] using fun _ => by simpa [all] using ih

@[simp]
theorem seesWords_text (characters : String) : (text characters).SeesWords := by
  simp [text, exactly, SeesWords]

/-- Two places with the same text ahead, at a distance, both behind a word character or neither. -/
structure Alike (offset : Nat) (place other : Place Char) : Prop where
  before : place.before.any Text.isWord = other.before.any Text.isWord
  index : other.index = place.index + offset
  rest : other.rest = place.rest

theorem alike_behindRun (accept : Char → Bool) {offset : Nat} {before before' : Option Char}
    (edge : before.any Text.isWord = before'.any Text.isWord) (index : Nat) (text : List Char) :
    Alike offset (behindRun accept before index text)
      (behindRun accept before' (index + offset) text) := by
  induction text generalizing before before' index with
  | nil => exact ⟨edge, rfl, rfl⟩
  | cons c rest ih =>
    rw [behindRun, behindRun]
    split
    · rw [Nat.add_right_comm]
      exact ih rfl (index + 1)
    · exact ⟨edge, rfl, rfl⟩

theorem runFew_alike (accept : Char → Bool) {offset : Nat} {next : Place Char → Option β}
    {next' : Place Char → Option γ} {convert : β → γ}
    (agree : ∀ place other, Alike offset place other → next' other = (next place).map convert)
    {before before' : Option Char} (edge : before.any Text.isWord = before'.any Text.isWord)
    (index : Nat) (text : List Char) :
    runFew accept next' before' (index + offset) text =
      (runFew accept next before index text).map convert := by
  induction text generalizing before before' index with
  | nil => exact agree _ _ ⟨edge, rfl, rfl⟩
  | cons c rest ih =>
    have here : Alike offset ⟨before, index, c :: rest⟩ ⟨before', index + offset, c :: rest⟩ :=
      ⟨edge, rfl, rfl⟩
    rw [runFew, runFew, agree _ _ here]
    cases next ⟨before, index, c :: rest⟩ with
    | some result => rfl
    | none =>
      cases accept c with
      | true =>
        have tail := @ih (some c) (some c) rfl (index + 1)
        rw [Nat.add_right_comm] at tail
        exact tail
      | false => rfl

/-- At places that look alike a pattern of words has the same ways. -/
theorem run_alike {pattern : Pattern Char} (sees : pattern.SeesWords) {offset : Nat}
    {place other : Place Char} (alike : Alike offset place other)
    (captures : List (Capture Char)) {next : Place Char → List (Capture Char) → Option β}
    {next' : Place Char → List (Capture Char) → Option γ} {convert : β → γ}
    (agree : ∀ place other captures, Alike offset place other →
      next' other captures = (next place captures).map convert) :
    pattern.run other captures next' = (pattern.run place captures next).map convert := by
  induction pattern generalizing place other captures next next' with
  | nothing => exact agree _ _ _ alike
  | one accept =>
    rw [run, run, alike.rest]
    cases place.rest with
    | nil => rfl
    | cons c rest =>
      simp only
      split
      · refine agree _ _ _ ⟨rfl, ?_, rfl⟩
        simp only [alike.index, Nat.add_right_comm]
      · rfl
  | many accept =>
    rw [run, run, alike.rest, alike.index]
    exact agree _ _ _ (alike_behindRun accept alike.before _ _)
  | few accept =>
    rw [run, run, alike.rest, alike.index]
    exact runFew_alike accept (fun place other alike => agree _ _ _ alike) alike.before _ _
  | between related =>
    rw [run, run, alike.rest, sees _ _ place.rest.head? alike.before]
    split
    · exact agree _ _ _ alike
    · rfl
  | seq first second ihFirst ihSecond =>
    rw [run, run]
    exact ihFirst sees.1 alike captures fun place other captures alike =>
      ihSecond sees.2 alike captures agree
  | either first second ihFirst ihSecond =>
    rw [run, run, ihFirst sees.1 alike captures agree, ihSecond sees.2 alike captures agree]
    cases first.run place captures next <;> rfl
  | group number body ih =>
    rw [run, run]
    refine ih sees alike captures fun after after' captures alike' => ?_
    -- both ends of the piece lie further to the right, so its length is the same
    rw [alike.rest, alike.index, alike'.index, Nat.add_sub_add_right]
    exact agree _ _ _ alike'

theorem matchAt_alike {pattern : Pattern Char} (sees : pattern.SeesWords) {offset : Nat}
    {place other : Place Char} (alike : Alike offset place other) :
    pattern.matchAt other = (pattern.matchAt place).map (Match.shift offset) := by
  refine run_alike sees alike [] fun after after' captures alike' => ?_
  rw [alike.index, alike'.index, Nat.add_sub_add_right]
  rfl

theorem matchesFrom_alike {pattern : Pattern Char} (sees : pattern.SeesWords) {offset : Nat}
    {before before' : Option Char} (edge : before.any Text.isWord = before'.any Text.isWord)
    (skip index : Nat) (text : List Char) :
    pattern.matchesFrom skip before' (index + offset) text =
      (pattern.matchesFrom skip before index text).map (Match.shift offset) := by
  induction text generalizing skip before before' index with
  | nil => simp [matchesFrom]
  | cons c rest ih =>
    have tail (skip : Nat) := @ih (some c) (some c) rfl skip (index + 1)
    simp only [Nat.add_right_comm index 1 offset] at tail
    cases skip with
    | succ skip => exact tail skip
    | zero =>
      have here : Alike offset ⟨before, index, c :: rest⟩ ⟨before', index + offset, c :: rest⟩ :=
        ⟨edge, rfl, rfl⟩
      rw [matchesFrom, matchesFrom, matchAt_alike sees here]
      cases pattern.matchAt ⟨before, index, c :: rest⟩ with
      | none => exact tail 0
      | some found =>
        rw [Option.map_some, List.map_cons]
        exact congrArg _ (tail (found.length - 1))

/-! ## A text in front of another -/

/-- The symbol before the place behind a text. -/
def lastOf (before : Option α) (front : List α) : Option α :=
  front.getLast?.or before

theorem lastOf_cons (before : Option α) (c : α) (front : List α) :
    lastOf before (c :: front) = lastOf (some c) front := by
  rw [lastOf, lastOf, List.getLast?_cons]
  cases front.getLast? <;> rfl

theorem lastOf_append (before : Option α) (front back : List α) :
    lastOf before (front ++ back) = lastOf (lastOf before front) back := by
  rw [lastOf, lastOf, lastOf, List.getLast?_append, Option.or_assoc]

/-- A search that still belongs to an earlier match passes over the text of that match. -/
theorem matchesFrom_length (pattern : Pattern α) (before : Option α) (index : Nat)
    (front back : List α) :
    pattern.matchesFrom front.length before index (front ++ back) =
      pattern.matchesFrom 0 (lastOf before front) (index + front.length) back := by
  induction front generalizing before index with
  | nil => rfl
  | cons c front ih =>
    rw [List.cons_append, List.length_cons, matchesFrom, ih, lastOf_cons, Nat.add_assoc,
      Nat.add_comm 1]

/-- A match at the place of the search is the first one found. -/
theorem head?_matchesFrom {pattern : Pattern α} {before : Option α} {index : Nat} {text : List α}
    {found : Match α} (starts : pattern.matchAt ⟨before, index, text⟩ = some found)
    (nonempty : text ≠ []) : (pattern.matchesFrom 0 before index text).head? = some found := by
  obtain ⟨c, text, rfl⟩ := List.exists_cons_of_ne_nil nonempty
  rw [matchesFrom, starts, List.head?_cons]

/-- No match starts in a text, whatever follows it. -/
def Skips (pattern : Pattern α) : List α → Prop
  | [] => True
  | c :: front =>
      (∀ back before index, pattern.matchAt ⟨before, index, c :: (front ++ back)⟩ = none) ∧
        pattern.Skips front

/-- Every match that starts in a text ends in it, whatever follows it. -/
def Confined (pattern : Pattern α) : List α → Prop
  | [] => True
  | c :: front =>
      (∀ back before index found,
        pattern.matchAt ⟨before, index, c :: (front ++ back)⟩ = some found →
          found.length ≤ front.length + 1) ∧
        pattern.Confined front

section

variable {pattern : Pattern α} {front : List α}

theorem Skips.append (skips : pattern.Skips front) {other : List α}
    (skips' : pattern.Skips other) : pattern.Skips (front ++ other) := by
  induction front with
  | nil => exact skips'
  | cons c front ih =>
    rw [List.cons_append]
    refine ⟨fun back before index => ?_, ih skips.2⟩
    rw [List.append_assoc]
    exact skips.1 (other ++ back) before index

theorem Confined.append (confined : pattern.Confined front) {other : List α}
    (confined' : pattern.Confined other) : pattern.Confined (front ++ other) := by
  induction front with
  | nil => exact confined'
  | cons c front ih =>
    rw [List.cons_append]
    refine ⟨fun back before index found starts => ?_, ih confined.2⟩
    rw [List.append_assoc] at starts
    have bound := confined.1 (other ++ back) before index found starts
    rw [List.length_append]
    omega

theorem Skips.confined (skips : pattern.Skips front) : pattern.Confined front := by
  induction front with
  | nil => trivial
  | cons c front ih =>
    refine ⟨fun back before index found starts => ?_, ih skips.2⟩
    rw [skips.1 back before index] at starts
    cases starts

/-- A pattern that needs a symbol starts nowhere in a text without its first symbols. -/
theorem skips_of_starts (needs : pattern.nullable = false)
    (wrong : ∀ c ∈ front, pattern.starts c = false) : pattern.Skips front := by
  induction front with
  | nil => trivial
  | cons c front ih =>
    refine ⟨fun back before index => ?_, ih fun d member => wrong d (List.mem_cons_of_mem c member)⟩
    rw [matchAt_eq_none_iff]
    refine ways_eq_nil_of_starts needs (fun d rest text => ?_) []
    rw [← (List.cons.inj text).1]
    exact wrong c List.mem_cons_self

/-- A text that ends with a symbol which a pattern never reads confines it. -/
theorem confined_of_barrier {x : α} (barrier : pattern.reads x = false) (front : List α) :
    pattern.Confined (front ++ [x]) := by
  -- the empty front is not apart: a way that starts at the barrier passes nothing
  have bound (front back : List α) (before : Option α) (index : Nat) (found : Match α)
      (starts : pattern.matchAt ⟨before, index, front ++ x :: back⟩ = some found) :
      found.length ≤ front.length := by
    rw [matchAt_eq_head?, Option.map_eq_some_iff] at starts
    obtain ⟨way, first, rfl⟩ := starts
    obtain ⟨piece, remaining, rfl, -, index⟩ :=
      rest_of_mem_ways_of_barrier (List.mem_of_head? first) rfl barrier
    simp only [index, List.length_append]
    omega
  induction front with
  | nil => exact ⟨fun back before index found starts =>
      Nat.le_succ_of_le (bound [] back before index found starts), trivial⟩
  | cons c front ih =>
    rw [List.cons_append]
    refine ⟨fun back before index found starts => ?_, ih⟩
    have within := bound (c :: front) back before index found (by simpa using starts)
    simp only [List.length_cons, List.length_append] at within ⊢
    omega

/-- A pattern that is stuck before a barrier starts nowhere in a text up to the barrier. -/
theorem skips_of_stuck {accept : α → Bool} {x : α}
    (stuck : ∀ back, Stuck (Before accept x back) pattern)
    (inside : ∀ c ∈ front, accept c = true) : pattern.Skips (front ++ [x]) := by
  have none (front : List α) (inside : ∀ c ∈ front, accept c = true) (back : List α)
      (before : Option α) (index : Nat) :
      pattern.matchAt ⟨before, index, front ++ x :: back⟩ = none :=
    matchAt_eq_none_iff.mpr (stuck back _ [] ⟨front, rfl, inside⟩)
  induction front with
  | nil => exact ⟨fun back before index => none [] inside back before index, trivial⟩
  | cons c front ih =>
    rw [List.cons_append]
    have tail := ih fun d member => inside d (List.mem_cons_of_mem c member)
    refine ⟨fun back before index => ?_, tail⟩
    simpa using none (c :: front) inside back before index

/-- A search that finds nothing in a text arrives behind it. -/
theorem Skips.matchesFrom_append (skips : pattern.Skips front) (before : Option α) (index : Nat)
    (back : List α) :
    pattern.matchesFrom 0 before index (front ++ back) =
      pattern.matchesFrom 0 (lastOf before front) (index + front.length) back := by
  induction front generalizing before index with
  | nil => rfl
  | cons c front ih =>
    rw [List.cons_append, matchesFrom, skips.1 back before index]
    simp only
    rw [ih skips.2, lastOf_cons, List.length_cons, Nat.add_assoc, Nat.add_comm 1]

theorem Skips.allMatches_eq_nil (skips : pattern.Skips front) : pattern.allMatches front = [] := by
  have all := skips.matchesFrom_append none 0 []
  rw [List.append_nil] at all
  exact all.trans (by rw [matchesFrom])

/-- A search whose matches in a text end in it arrives behind it, with what it has found. -/
theorem Confined.exists_matchesFrom_append (confined : pattern.Confined front) {skip : Nat}
    (within : skip ≤ front.length) (before : Option α) (index : Nat) (back : List α) :
    ∃ found, pattern.matchesFrom skip before index (front ++ back) =
      found ++ pattern.matchesFrom 0 (lastOf before front) (index + front.length) back := by
  induction front generalizing skip before index with
  | nil =>
    obtain rfl : skip = 0 := Nat.le_zero.mp within
    exact ⟨[], rfl⟩
  | cons c front ih =>
    rw [List.length_cons] at within
    rw [List.cons_append, lastOf_cons, List.length_cons, Nat.add_comm front.length, ← Nat.add_assoc]
    cases skip with
    | succ skip => exact ih confined.2 (Nat.le_of_succ_le_succ within) (some c) (index + 1)
    | zero =>
      cases starts : pattern.matchAt ⟨before, index, c :: (front ++ back)⟩ with
      | none =>
        simp only [matchesFrom, starts]
        exact ih confined.2 (Nat.zero_le _) (some c) (index + 1)
      -- a match in the text is jumped over, and it ends in the text
      | some first =>
        have bound := confined.1 back before index first starts
        obtain ⟨found, rest⟩ :=
          @ih confined.2 (first.length - 1) (by omega) (some c) (index + 1)
        simp only [matchesFrom, starts, rest]
        exact ⟨first :: found, rfl⟩

end

section

variable {pattern : Pattern Char} {front : List Char}

/-- Behind a text that ends outside a word, and in which matches end that start in it, every match
of a script is found again. -/
theorem Confined.allMatches_append (confined : pattern.Confined front) (sees : pattern.SeesWords)
    (edge : front.getLast?.any Text.isWord = false) (back : List Char) :
    ∃ found, pattern.allMatches (front ++ back) =
      found ++ (pattern.allMatches back).map (Match.shift front.length) := by
  have behind : (lastOf none front).any Text.isWord = Option.any Text.isWord none := by
    simpa [lastOf] using edge
  obtain ⟨found, rest⟩ := confined.exists_matchesFrom_append (Nat.zero_le _) none 0 back
  refine ⟨found, ?_⟩
  rw [allMatches, rest, allMatches, ← matchesFrom_alike sees behind.symm]

end

end Pattern

end ImportSupply
