import ImportSupply.Proofs.Pattern.Finding
import ImportSupply.Proofs.Text.Cutting

/-!
# What a search finds, and where

What matches say can depend on where they stand. As in a search for names, it is put together from
what they say in the parts of a text (`FindsAt`); here a part may depend on what the next one starts
with. A part counts on its own if a match can start at its start only and does not go on behind it
(`findsAt_of_start`). The matches of one search follow one another without overlap
(`eq_or_apart_of_mem_allMatches`).
-/

namespace ImportSupply.Pattern

variable {β : Type}

/-- A text in which the matches of a search say certain things, given how many symbols precede it
and whatever stands around it, unless what follows starts with a barred character. -/
structure FindsAt (pattern : Pattern Char) (read : Match Char → List β) (bars : Char → Bool)
    (text : List Char) (said : Nat → List β) : Prop where
  edge : text.getLast?.any Text.isWord = false
  found : ∀ before index back, before.any Text.isWord = false → back.head?.any bars = false →
    (pattern.matchesFrom 0 before index (text ++ back)).flatMap read =
      said index ++
        (pattern.matchesFrom 0 (lastOf before text) (index + text.length) back).flatMap read

/-- Behind the symbol before it, no match starts in a text, whatever follows. -/
def Quiet (pattern : Pattern Char) (before : Option Char) (text : List Char) : Prop :=
  ∀ front tail back index, text = front ++ tail → tail ≠ [] →
    pattern.matchAt ⟨lastOf before front, index, tail ++ back⟩ = none

section

variable {pattern : Pattern Char} {read : Match Char → List β} {bars : Char → Bool}
  {text other : List Char} {said more : Nat → List β}

theorem FindsAt.append (first : FindsAt pattern read bars text said)
    (second : FindsAt pattern read bars other more) (follows : other.head?.any bars = false) :
    FindsAt pattern read bars (text ++ other)
      fun index => said index ++ more (index + text.length) := by
  constructor
  · exact Text.getLast?_any_append_both first.edge second.edge
  · intro before index back outside free
    have next : (other ++ back).head?.any bars = false := by
      by_cases empty : other = []
      · rwa [empty]
      · rwa [List.head?_append_of_ne_nil _ empty]
    rw [List.append_assoc, first.found _ _ _ outside next,
      second.found _ _ _ (any_isWord_lastOf outside first.edge) free, lastOf_append,
      List.length_append, List.append_assoc, Nat.add_assoc]

theorem FindsAt.flatMap_allMatches (finds : FindsAt pattern read bars text said) :
    (pattern.allMatches text).flatMap read = said 0 := by
  have all := finds.found none 0 [] rfl rfl
  rw [List.append_nil] at all
  simpa [allMatches, matchesFrom] using all

/-- A search that is inside an earlier match or finds nothing arrives behind a quiet text. -/
theorem Quiet.matchesFrom_append {before : Option Char} (quiet : Quiet pattern before text)
    {skip : Nat} (within : skip ≤ text.length) (index : Nat) (back : List Char) :
    pattern.matchesFrom skip before index (text ++ back) =
      pattern.matchesFrom 0 (lastOf before text) (index + text.length) back := by
  induction text generalizing before skip index with
  | nil =>
    rw [Nat.le_zero.mp within]
    rfl
  | cons c text ih =>
    have later : Quiet pattern (some c) text := by
      intro front tail back index split nonempty
      have starts := quiet (c :: front) tail back index (by rw [split, List.cons_append]) nonempty
      rwa [lastOf_cons] at starts
    rw [List.cons_append, lastOf_cons, List.length_cons, Nat.add_comm text.length,
      ← Nat.add_assoc]
    cases skip with
    | succ skip => exact ih later (Nat.le_of_succ_le_succ within) (index + 1)
    | zero =>
      have none : pattern.matchAt ⟨before, index, c :: (text ++ back)⟩ = none :=
        quiet [] (c :: text) back index rfl (by simp)
      rw [matchesFrom, none]
      exact ih later (Nat.zero_le _) (index + 1)

theorem Quiet.append {before : Option Char} (first : Quiet pattern before text)
    (second : Quiet pattern (lastOf before text) other) : Quiet pattern before (text ++ other) := by
  intro front tail back index split nonempty
  rcases List.append_eq_append_iff.mp split with ⟨inner, rfl, rfl⟩ | ⟨inner, rfl, rfl⟩
  · rw [lastOf_append]
    exact second inner tail back index rfl nonempty
  · by_cases empty : inner = []
    · subst empty
      rw [List.append_nil] at second
      exact second [] other back index rfl nonempty
    · have starts := first front inner (other ++ back) index rfl empty
      rwa [List.append_assoc]

theorem findsAt_nil (edge : text.getLast?.any Text.isWord = false)
    (quiet : ∀ before, before.any Text.isWord = false → Quiet pattern before text) :
    FindsAt pattern read bars text fun _ => [] := by
  refine ⟨edge, fun before index back outside _ => ?_⟩
  rw [(quiet before outside).matchesFrom_append (Nat.zero_le _), List.nil_append]

/-- A text in which a match can only start at the start, and ends in the text. -/
theorem findsAt_of_start {c : Char} (edge : (c :: text).getLast?.any Text.isWord = false)
    (quiet : Quiet pattern (some c) text)
    (silent : ∀ before index back, before.any Text.isWord = false → back.head?.any bars = false →
      pattern.matchAt ⟨before, index, c :: text ++ back⟩ = none → said index = [])
    (speaks : ∀ before index back found, before.any Text.isWord = false →
      back.head?.any bars = false →
      pattern.matchAt ⟨before, index, c :: text ++ back⟩ = some found →
        found.length ≤ text.length + 1 ∧ read found = said index) :
    FindsAt pattern read bars (c :: text) said := by
  refine ⟨edge, fun before index back outside free => ?_⟩
  specialize silent before index back outside free
  specialize speaks before index back
  rw [List.cons_append] at silent speaks ⊢
  rw [lastOf_cons, List.length_cons, Nat.add_comm text.length, ← Nat.add_assoc, matchesFrom]
  cases starts : pattern.matchAt ⟨before, index, c :: (text ++ back)⟩ with
  | none =>
    rw [silent starts, List.nil_append]
    dsimp only
    rw [quiet.matchesFrom_append (Nat.zero_le _)]
  | some found =>
    obtain ⟨within, told⟩ := speaks found outside free starts
    dsimp only
    rw [List.flatMap_cons, told, quiet.matchesFrom_append (by omega)]

end

/-! ## Matches do not overlap -/

section

variable {α : Type} {pattern : Pattern α}

/-- A search that is inside an earlier match finds nothing before the end of that match. -/
theorem le_index_of_mem_matchesFrom {skip : Nat} {before : Option α} {index : Nat}
    {text : List α} {found : Match α}
    (member : found ∈ pattern.matchesFrom skip before index text) : index + skip ≤ found.index := by
  induction text generalizing skip before index with
  | nil => simp [matchesFrom] at member
  | cons c text ih =>
    cases skip with
    | succ skip =>
      have later := ih member
      omega
    | zero =>
      rw [matchesFrom] at member
      split at member
      next first starts =>
        obtain ⟨_, _, _, -, -, rfl⟩ := exists_spells_of_matchAt starts
        rcases List.mem_cons.mp member with rfl | member
        · exact Nat.le_refl index
        · have later := ih member
          omega
      next =>
        have later := ih member
        omega

theorem pairwise_matchesFrom (skip : Nat) (before : Option α) (index : Nat) (text : List α) :
    (pattern.matchesFrom skip before index text).Pairwise
      fun earlier later => earlier.index + earlier.length ≤ later.index := by
  induction text generalizing skip before index with
  | nil => simp [matchesFrom]
  | cons c text ih =>
    cases skip with
    | succ skip => exact ih skip (some c) (index + 1)
    | zero =>
      rw [matchesFrom]
      split
      next first starts =>
        obtain ⟨_, _, _, -, -, rfl⟩ := exists_spells_of_matchAt starts
        refine List.pairwise_cons.mpr ⟨?_, ih _ (some c) (index + 1)⟩
        intro later member
        have behind := le_index_of_mem_matchesFrom member
        dsimp only at behind ⊢
        omega
      next => exact ih 0 (some c) (index + 1)

/-- Each match of a search ends before the next one starts. -/
theorem pairwise_allMatches (pattern : Pattern α) (text : List α) :
    (pattern.allMatches text).Pairwise
      fun earlier later => earlier.index + earlier.length ≤ later.index :=
  pairwise_matchesFrom 0 none 0 text

theorem eq_or_apart_of_mem_allMatches {text : List α} {first second : Match α}
    (member : first ∈ pattern.allMatches text) (member' : second ∈ pattern.allMatches text) :
    first = second ∨ first.index + first.length ≤ second.index ∨
      second.index + second.length ≤ first.index := by
  obtain ⟨i, within, rfl⟩ := List.getElem_of_mem member
  obtain ⟨j, within', rfl⟩ := List.getElem_of_mem member'
  have apart := List.pairwise_iff_getElem.mp (pairwise_allMatches pattern text)
  rcases Nat.lt_trichotomy i j with less | rfl | less
  · exact .inr (.inl (apart i j within within' less))
  · exact .inl rfl
  · exact .inr (.inr (apart j i within' within less))

end

/-! ## A piece that may be missing -/

/-- A match whose last piece may be missing has it wherever it can. -/
theorem exists_spells_of_matchAt_maybe {first last : Pattern Char} {place : Place Char}
    {found : Match Char} (starts : (seq first (maybe last)).matchAt place = some found) :
    ∃ piece final rest captures more, place.rest = piece ++ (final ++ rest) ∧
      first.Spells place.before piece (final ++ rest) captures ∧
      found = ⟨place.index, piece.length + final.length, more ++ captures⟩ ∧
      (last.Spells (lastOf place.before piece) final rest more ∨
        final = [] ∧ more = [] ∧ ∀ piece' rest' captures', rest = piece' ++ rest' →
          ¬last.Spells (lastOf place.before piece) piece' rest' captures') := by
  rw [matchAt, run] at starts
  obtain ⟨piece, rest, captures, text, spells, goes⟩ := exists_spells_of_run starts
  rw [List.append_nil, maybe, run] at goes
  split at goes
  next result taken =>
    obtain rfl := Option.some.inj goes
    obtain ⟨final, behind, more, split, spells', ends⟩ := exists_spells_of_run taken
    obtain rfl : rest = final ++ behind := split
    refine ⟨piece, final, behind, captures, more, text, spells, ?_, .inl spells'⟩
    rw [← Option.some.inj ends, behind_behind]
    simp [Place.behind]
  -- the last piece was tried and failed, so nothing that follows spells it
  next missing =>
    refine ⟨piece, [], rest, captures, [], text, spells, ?_, .inr ⟨rfl, rfl, ?_⟩⟩
    · rw [run] at goes
      rw [← Option.some.inj goes]
      simp [Place.behind]
    · intro piece' rest' captures' split present
      have taken : Option.isSome (none : Option (Match Char)) = true := by
        rw [← missing]
        exact isSome_run_of_spells split present rfl
      cases taken

end ImportSupply.Pattern
