import ImportSupply.Pattern.Search
import Mathlib.Tactic.Common

/-!
# The ways of a pattern

`Pattern.run` hands the ways in which a pattern matches on to a continuation, one after another.
Here the ways are a list, in the order of preference (`Pattern.ways`), and running a pattern is
looking for the first way on which the continuation succeeds (`run_eq_findSome?`). What a pattern
can do at a place is then a question of membership:

* **what it reads** — the piece that a way passes consists of symbols that the pattern reads
  somewhere (`reaches_of_mem_ways`), so a symbol it never reads is a barrier;
* **how it starts** — a way that passes anything starts with one of the pattern's first symbols
  (`begins_of_mem_ways`);
* **where it stays** — a set of places is kept by the parts of a pattern one by one (`Stays`), and
  one part without a way in it leaves the whole without one (`Stuck`).
-/

namespace ImportSupply.Pattern

variable {α β : Type}

/-- The ends of a run of a class, shortest first. -/
def endsOfFew (accept : α → Bool) (before : Option α) (index : Nat) : List α → List (Place α)
  | [] => [⟨before, index, []⟩]
  | c :: rest =>
      ⟨before, index, c :: rest⟩ ::
        if accept c then endsOfFew accept (some c) (index + 1) rest else []

/-- The ways in which a pattern matches at a place, the preferred ones first: the place behind each
and the pieces remembered by then. -/
def ways : Pattern α → Place α → List (Capture α) → List (Place α × List (Capture α))
  | nothing, place, captures => [(place, captures)]
  | one accept, place, captures =>
      match place.rest with
      | [] => []
      | c :: rest => if accept c then [(⟨some c, place.index + 1, rest⟩, captures)] else []
  | many accept, place, captures =>
      [(behindRun accept place.before place.index place.rest, captures)]
  | few accept, place, captures =>
      (endsOfFew accept place.before place.index place.rest).map (·, captures)
  | between related, place, captures =>
      if related place.before place.rest.head? then [(place, captures)] else []
  | seq first second, place, captures =>
      (first.ways place captures).flatMap fun way => second.ways way.1 way.2
  | either first second, place, captures =>
      first.ways place captures ++ second.ways place captures
  | group number body, place, captures =>
      (body.ways place captures).map fun way =>
        (way.1, ⟨number, place.rest, way.1.index - place.index⟩ :: way.2)

theorem runFew_eq_findSome? (accept : α → Bool) (next : Place α → Option β) (before : Option α)
    (index : Nat) (text : List α) :
    runFew accept next before index text =
      (endsOfFew accept before index text).findSome? next := by
  induction text generalizing before index with
  | nil => simp [runFew, endsOfFew]
  | cons c rest ih =>
    rw [runFew, endsOfFew, List.findSome?_cons]
    cases next ⟨before, index, c :: rest⟩ with
    | some result => rfl
    | none =>
      cases accept c with
      | true => exact ih (some c) (index + 1)
      | false => rfl

theorem findSome?_flatMap {γ δ : Type} (list : List γ) (branch : γ → List δ)
    (find : δ → Option β) :
    (list.flatMap branch).findSome? find =
      list.findSome? fun element => (branch element).findSome? find := by
  induction list with
  | nil => rfl
  | cons element rest ih =>
    rw [List.flatMap_cons, List.findSome?_append, List.findSome?_cons, ih]
    cases (branch element).findSome? find <;> rfl

/-- Running a pattern is looking for the first way on which the continuation succeeds. -/
theorem run_eq_findSome? (pattern : Pattern α) (place : Place α) (captures : List (Capture α))
    (next : Place α → List (Capture α) → Option β) :
    pattern.run place captures next =
      (pattern.ways place captures).findSome? fun way => next way.1 way.2 := by
  induction pattern generalizing place captures next with
  | nothing => simp [run, ways]
  | one accept =>
    rw [run, ways]
    cases place.rest with
    | nil => rfl
    | cons c rest => cases accepted : accept c <;> simp [accepted]
  | many accept => simp [run, ways]
  | few accept => simp [run, ways, runFew_eq_findSome?, List.findSome?_map, Function.comp_def]
  | between related =>
    rw [run, ways]
    cases related place.before place.rest.head? <;> simp
  | seq first second ihFirst ihSecond =>
    simp only [run, ways, ihFirst, ihSecond, findSome?_flatMap]
  | either first second ihFirst ihSecond =>
    rw [run, ways, List.findSome?_append, ihFirst, ihSecond]
    cases (first.ways place captures).findSome? fun way => next way.1 way.2 <;> rfl
  | group number body ih =>
    simp [run, ways, ih, List.findSome?_map, Function.comp_def]

theorem matchAt_eq_head? (pattern : Pattern α) (place : Place α) :
    pattern.matchAt place = (pattern.ways place []).head?.map fun way =>
      ⟨place.index, way.1.index - place.index, way.2⟩ := by
  rw [matchAt, run_eq_findSome?]
  cases pattern.ways place [] <;> rfl

theorem matchAt_eq_none_iff {pattern : Pattern α} {place : Place α} :
    pattern.matchAt place = none ↔ pattern.ways place [] = [] := by
  rw [matchAt_eq_head?, Option.map_eq_none_iff, List.head?_eq_none_iff]

/-- What is remembered before a pattern does not change its ways. -/
theorem ways_append_captures (pattern : Pattern α) (place : Place α)
    (captures earlier : List (Capture α)) :
    pattern.ways place (captures ++ earlier) =
      (pattern.ways place captures).map fun way => (way.1, way.2 ++ earlier) := by
  induction pattern generalizing place captures with
  | nothing => rfl
  | one accept =>
    rw [ways, ways]
    cases place.rest with
    | nil => rfl
    | cons c rest => cases accepted : accept c <;> simp [accepted]
  | many accept => rfl
  | few accept => simp [ways]
  | between related =>
    rw [ways, ways]
    split <;> rfl
  | seq first second ihFirst ihSecond =>
    simp only [ways, ihFirst, List.flatMap_map, ihSecond, List.map_flatMap]
  | either first second ihFirst ihSecond => simp only [ways, ihFirst, ihSecond, List.map_append]
  | group number body ih => simp [ways, ih]

theorem ways_eq_nil_of_matchAt {pattern : Pattern α} {place : Place α}
    (none : pattern.matchAt place = Option.none) (captures : List (Capture α)) :
    pattern.ways place captures = [] := by
  have ways := pattern.ways_append_captures place [] captures
  rw [matchAt_eq_none_iff.mp none] at ways
  exact ways

/-! ## What a pattern reads -/

/-- Whether a pattern reads a symbol anywhere. -/
def reads : Pattern α → α → Bool
  | nothing, _ => false
  | one accept, c => accept c
  | many accept, c => accept c
  | few accept, c => accept c
  | between _, _ => false
  | seq first second, c => first.reads c || second.reads c
  | either first second, c => first.reads c || second.reads c
  | group _ body, c => body.reads c

/-- A place behind another: the piece between them, of symbols of a class. -/
def Reaches (accept : α → Bool) (place after : Place α) : Prop :=
  ∃ piece, place.rest = piece ++ after.rest ∧ after.index = place.index + piece.length ∧
    ∀ c ∈ piece, accept c = true

theorem Reaches.refl (accept : α → Bool) (place : Place α) : Reaches accept place place :=
  ⟨[], rfl, rfl, by simp⟩

theorem Reaches.one {accept : α → Bool} {before : Option α} {index : Nat} {c : α} {rest : List α}
    (accepted : accept c = true) :
    Reaches accept ⟨before, index, c :: rest⟩ ⟨some c, index + 1, rest⟩ :=
  ⟨[c], rfl, rfl, by simpa using accepted⟩

theorem Reaches.trans {accept : α → Bool} {place middle after : Place α}
    (first : Reaches accept place middle) (second : Reaches accept middle after) :
    Reaches accept place after := by
  obtain ⟨piece, rest, index, inside⟩ := first
  obtain ⟨piece', rest', index', inside'⟩ := second
  refine ⟨piece ++ piece', ?_, ?_, ?_⟩
  · rw [rest, rest', List.append_assoc]
  · rw [index', index, List.length_append, Nat.add_assoc]
  · intro c member
    rcases List.mem_append.mp member with member | member
    · exact inside c member
    · exact inside' c member

theorem Reaches.mono {accept wider : α → Bool} {place after : Place α}
    (reaches : Reaches accept place after) (wide : ∀ c, accept c = true → wider c = true) :
    Reaches wider place after := by
  obtain ⟨piece, rest, index, inside⟩ := reaches
  exact ⟨piece, rest, index, fun c member => wide c (inside c member)⟩

theorem reaches_behindRun (accept : α → Bool) (before : Option α) (index : Nat) (text : List α) :
    Reaches accept ⟨before, index, text⟩ (behindRun accept before index text) := by
  induction text generalizing before index with
  | nil => exact Reaches.refl _ _
  | cons c rest ih =>
    rw [behindRun]
    split
    next accepted => exact (Reaches.one accepted).trans (ih (some c) (index + 1))
    next => exact Reaches.refl _ _

theorem reaches_endsOfFew {accept : α → Bool} {before : Option α} {index : Nat} {text : List α}
    {after : Place α} (member : after ∈ endsOfFew accept before index text) :
    Reaches accept ⟨before, index, text⟩ after := by
  induction text generalizing before index with
  | nil =>
    rw [List.mem_singleton.mp member]
    exact Reaches.refl _ _
  | cons c rest ih =>
    rw [endsOfFew, List.mem_cons] at member
    rcases member with rfl | member
    · exact Reaches.refl _ _
    · split at member
      next accepted => exact (Reaches.one accepted).trans (ih member)
      next => cases member

/-- The piece that a way passes consists of symbols that the pattern reads. -/
theorem reaches_of_mem_ways {pattern : Pattern α} {place : Place α} {captures : List (Capture α)}
    {way : Place α × List (Capture α)} (member : way ∈ pattern.ways place captures) :
    Reaches pattern.reads place way.1 := by
  induction pattern generalizing place captures way with
  | nothing =>
    rw [List.mem_singleton.mp member]
    exact Reaches.refl _ _
  | one accept =>
    obtain ⟨before, index, rest⟩ := place
    cases rest with
    | nil => cases member
    | cons c rest =>
      simp only [ways] at member
      split at member
      next accepted =>
        rw [List.mem_singleton.mp member]
        exact Reaches.one accepted
      next => cases member
  | many accept =>
    rw [List.mem_singleton.mp member]
    exact reaches_behindRun accept _ _ _
  | few accept =>
    obtain ⟨after, ends, rfl⟩ := List.mem_map.mp member
    exact reaches_endsOfFew ends
  | between related =>
    simp only [ways] at member
    split at member
    · rw [List.mem_singleton.mp member]
      exact Reaches.refl _ _
    · cases member
  | seq first second ihFirst ihSecond =>
    obtain ⟨middle, front, back⟩ := List.mem_flatMap.mp member
    refine ((ihFirst front).mono ?_).trans ((ihSecond back).mono ?_) <;> intro c read <;>
      simp [reads, read]
  | either first second ihFirst ihSecond =>
    rcases List.mem_append.mp member with member | member
    · exact (ihFirst member).mono fun c read => by simp [reads, read]
    · exact (ihSecond member).mono fun c read => by simp [reads, read]
  | group number body ih =>
    obtain ⟨inner, within, rfl⟩ := List.mem_map.mp member
    have reached := ih within
    exact reached

/-- A symbol that a pattern never reads is a barrier: no way passes it. -/
theorem rest_of_mem_ways_of_barrier {pattern : Pattern α} {place : Place α}
    {captures : List (Capture α)} {way : Place α × List (Capture α)} {front back : List α} {x : α}
    (member : way ∈ pattern.ways place captures) (rest : place.rest = front ++ x :: back)
    (barrier : pattern.reads x = false) :
    ∃ piece remaining, front = piece ++ remaining ∧ way.1.rest = remaining ++ x :: back ∧
      way.1.index = place.index + piece.length := by
  obtain ⟨piece, split, index, inside⟩ := reaches_of_mem_ways member
  rw [rest] at split
  rcases List.append_eq_append_iff.mp split with
    ⟨passed, piece_eq, rest_eq⟩ | ⟨left, front_eq, rest_eq⟩
  · -- a way that ends behind the whole front has passed nothing more
    cases passed with
    | nil =>
      refine ⟨front, [], by simp, ?_, ?_⟩
      · simpa using rest_eq.symm
      · simpa [piece_eq] using index
    | cons y passed =>
      obtain rfl : x = y := (List.cons.inj rest_eq).1
      have read := inside x (by simp [piece_eq])
      rw [barrier] at read
      cases read
  · exact ⟨piece, left, front_eq, rest_eq, index⟩

/-! ## How a pattern starts -/

/-- Whether a pattern can match the empty piece. -/
def nullable : Pattern α → Bool
  | nothing => true
  | one _ => false
  | many _ => true
  | few _ => true
  | between _ => true
  | seq first second => first.nullable && second.nullable
  | either first second => first.nullable || second.nullable
  | group _ body => body.nullable

/-- Whether a piece that a pattern matches can start with a symbol. -/
def starts : Pattern α → α → Bool
  | nothing, _ => false
  | one accept, c => accept c
  | many accept, c => accept c
  | few accept, c => accept c
  | between _, _ => false
  | seq first second, c => first.starts c || (first.nullable && second.starts c)
  | either first second, c => first.starts c || second.starts c
  | group _ body, c => body.starts c

/-- How a way can begin: with a first symbol of the pattern, or, if the pattern can match the empty
piece, by staying where it is. -/
def Begins (pattern : Pattern α) (place after : Place α) : Prop :=
  (pattern.nullable = true ∧ after.rest = place.rest) ∨
    ∃ c rest, place.rest = c :: rest ∧ pattern.starts c = true

theorem begins_behindRun (accept : α → Bool) (place : Place α) :
    Begins (many accept) place (behindRun accept place.before place.index place.rest) := by
  obtain ⟨before, index, rest⟩ := place
  cases rest with
  | nil => exact .inl ⟨rfl, rfl⟩
  | cons c rest =>
    cases accepted : accept c with
    | true => exact .inr ⟨c, rest, rfl, accepted⟩
    | false => exact .inl ⟨rfl, by simp [behindRun, accepted]⟩

theorem begins_endsOfFew {accept : α → Bool} {place after : Place α}
    (member : after ∈ endsOfFew accept place.before place.index place.rest) :
    Begins (few accept) place after := by
  obtain ⟨before, index, rest⟩ := place
  cases rest with
  | nil =>
    rw [List.mem_singleton.mp member]
    exact .inl ⟨rfl, rfl⟩
  | cons c rest =>
    simp only [endsOfFew, List.mem_cons] at member
    rcases member with rfl | member
    · exact .inl ⟨rfl, rfl⟩
    · cases accepted : accept c with
      | true => exact .inr ⟨c, rest, rfl, accepted⟩
      | false => simp [accepted] at member

theorem begins_of_mem_ways {pattern : Pattern α} {place : Place α} {captures : List (Capture α)}
    {way : Place α × List (Capture α)} (member : way ∈ pattern.ways place captures) :
    Begins pattern place way.1 := by
  induction pattern generalizing place captures way with
  | nothing =>
    rw [List.mem_singleton.mp member]
    exact .inl ⟨rfl, rfl⟩
  | one accept =>
    obtain ⟨before, index, rest⟩ := place
    cases rest with
    | nil => cases member
    | cons c rest =>
      simp only [ways] at member
      split at member
      next accepted => exact .inr ⟨c, rest, rfl, accepted⟩
      next => cases member
  | many accept =>
    rw [List.mem_singleton.mp member]
    exact begins_behindRun accept place
  | few accept =>
    obtain ⟨after, ends, rfl⟩ := List.mem_map.mp member
    exact begins_endsOfFew ends
  | between related =>
    simp only [ways] at member
    split at member
    · rw [List.mem_singleton.mp member]
      exact .inl ⟨rfl, rfl⟩
    · cases member
  | seq first second ihFirst ihSecond =>
    obtain ⟨middle, front, back⟩ := List.mem_flatMap.mp member
    -- a first part that stays where it is leaves the start to the second
    rcases ihFirst front with ⟨empty, same⟩ | ⟨c, rest, text, first_starts⟩
    · rcases ihSecond back with ⟨empty', same'⟩ | ⟨c, rest, text, second_starts⟩
      · exact .inl ⟨by simp [nullable, empty, empty'], same'.trans same⟩
      · exact .inr ⟨c, rest, same ▸ text, by simp [starts, empty, second_starts]⟩
    · exact .inr ⟨c, rest, text, by simp [starts, first_starts]⟩
  | either first second ihFirst ihSecond =>
    rcases List.mem_append.mp member with member | member
    · rcases ihFirst member with ⟨empty, same⟩ | ⟨c, rest, text, begins⟩
      · exact .inl ⟨by simp [nullable, empty], same⟩
      · exact .inr ⟨c, rest, text, by simp [starts, begins]⟩
    · rcases ihSecond member with ⟨empty, same⟩ | ⟨c, rest, text, begins⟩
      · exact .inl ⟨by simp [nullable, empty], same⟩
      · exact .inr ⟨c, rest, text, by simp [starts, begins]⟩
  | group number body ih =>
    obtain ⟨inner, within, rfl⟩ := List.mem_map.mp member
    have begun := ih within
    exact begun

/-- A pattern that needs a symbol has no way where it cannot start. -/
theorem ways_eq_nil_of_starts {pattern : Pattern α} (needs : pattern.nullable = false)
    {place : Place α} (wrong : ∀ c rest, place.rest = c :: rest → pattern.starts c = false)
    (captures : List (Capture α)) : pattern.ways place captures = [] := by
  rw [List.eq_nil_iff_forall_not_mem]
  intro way member
  rcases begins_of_mem_ways member with ⟨empty, -⟩ | ⟨c, rest, text, begins⟩
  · rw [needs] at empty
    cases empty
  · rw [wrong c rest text] at begins
    cases begins

/-! ## Where a pattern stays -/

/-- A pattern that never leaves a set of places. -/
def Stays (inside : Place α → Prop) (pattern : Pattern α) : Prop :=
  ∀ place captures way, inside place → way ∈ pattern.ways place captures → inside way.1

/-- A pattern that matches nowhere in a set of places. -/
def Stuck (inside : Place α → Prop) (pattern : Pattern α) : Prop :=
  ∀ place captures, inside place → pattern.ways place captures = []

section

variable {inside : Place α → Prop} {first second : Pattern α}

theorem Stuck.stays (stuck : Stuck inside first) : Stays inside first := by
  intro place captures way isInside member
  rw [stuck place captures isInside] at member
  cases member

theorem stays_nothing : Stays inside nothing := by
  intro place captures way isInside member
  rw [List.mem_singleton.mp member]
  exact isInside

theorem Stays.either (stays : Stays inside first) (other : Stays inside second) :
    Stays inside (either first second) := by
  intro place captures way isInside member
  rcases List.mem_append.mp member with member | member
  · exact stays place captures way isInside member
  · exact other place captures way isInside member

theorem Stuck.seq (stuck : Stuck inside first) : Stuck inside (seq first second) := by
  intro place captures isInside
  rw [ways, stuck place captures isInside, List.flatMap_nil]

theorem Stays.seq_stuck (stays : Stays inside first) (stuck : Stuck inside second) :
    Stuck inside (seq first second) := by
  intro place captures isInside
  rw [ways, List.flatMap_eq_nil_iff]
  intro way member
  exact stuck way.1 way.2 (stays place captures way isInside member)

end

/-- The places before a barrier, with only symbols of a class up to it. -/
def Before (accept : α → Bool) (x : α) (back : List α) (place : Place α) : Prop :=
  ∃ front, place.rest = front ++ x :: back ∧ ∀ c ∈ front, accept c = true

theorem stays_before {pattern : Pattern α} {x : α} (barrier : pattern.reads x = false)
    (accept : α → Bool) (back : List α) : Stays (Before accept x back) pattern := by
  rintro place captures way ⟨front, rest, inside⟩ member
  obtain ⟨piece, remaining, rfl, rest', -⟩ := rest_of_mem_ways_of_barrier member rest barrier
  exact ⟨remaining, rest', fun c member => inside c (List.mem_append_right piece member)⟩

/-- A pattern that needs a symbol first which is neither of the class nor the barrier is stuck before
the barrier. -/
theorem stuck_before_of_starts {pattern : Pattern α} {accept : α → Bool} {x : α}
    (needs : pattern.nullable = false)
    (outside : ∀ c, pattern.starts c = true → accept c = false)
    (barrier : pattern.starts x = false) (back : List α) :
    Stuck (Before accept x back) pattern := by
  rintro place captures ⟨front, rest, inside⟩
  refine ways_eq_nil_of_starts needs (fun c tail text => ?_) captures
  rw [rest] at text
  cases front with
  | nil => rwa [← (List.cons.inj text).1]
  | cons d front =>
    by_contra begins
    have accepted := inside d List.mem_cons_self
    rw [(List.cons.inj text).1, outside c (by simpa using begins)] at accepted
    cases accepted

/-- A pattern that needs one of some symbols first, which are neither of the class nor the barrier,
is stuck before the barrier. -/
theorem stuck_before {pattern : Pattern α} {accept : α → Bool} {x : α} (symbols : List α)
    (needs : pattern.nullable = false) (heads : ∀ c, pattern.starts c = true → c ∈ symbols)
    (outside : ∀ c ∈ symbols, accept c = false) (barrier : x ∉ symbols) (back : List α) :
    Stuck (Before accept x back) pattern := by
  refine stuck_before_of_starts needs (fun c begins => outside c (heads c begins)) ?_ back
  by_contra begins
  exact barrier (heads x (by simpa using begins))

/-- A sequence is stuck before a barrier with its first critical part, if the parts up to that one
never read the barrier. -/
theorem stuck_all {accept : α → Bool} {x : α} {back : List α} (front : List (Pattern α))
    {critical : Pattern α} (rest : List (Pattern α))
    (closed : ∀ part ∈ front, part.reads x = false)
    (stuck : Stuck (Before accept x back) critical) :
    Stuck (Before accept x back) (all (front ++ critical :: rest)) := by
  induction front with
  | nil =>
    cases rest with
    | nil => exact stuck
    | cons next rest => exact stuck.seq
  | cons part front ih =>
    have stays := stays_before (closed part List.mem_cons_self) accept back
    have tail := ih fun part' member => closed part' (List.mem_cons_of_mem part member)
    cases front with
    | nil => exact stays.seq_stuck tail
    | cons next front => exact stays.seq_stuck tail

end ImportSupply.Pattern
