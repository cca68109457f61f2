import ImportSupply.Proofs.Pattern.Search

/-!
# Running patterns

What a pattern does at a place whose text is known: given symbols are passed, a word starts outside
a word, and a shortest run stops where what follows first succeeds.
-/

namespace ImportSupply.Pattern

variable {α β : Type}

theorem run_seq (first second : Pattern α) (place : Place α) (captures : List (Capture α))
    (next : Place α → List (Capture α) → Option β) :
    (seq first second).run place captures next =
      first.run place captures fun middle remembered => second.run middle remembered next :=
  rfl

theorem run_one (accept : α → Bool) {c : α} (accepted : accept c = true) (before : Option α)
    (index : Nat) (rest : List α) (captures : List (Capture α))
    (next : Place α → List (Capture α) → Option β) :
    (one accept).run ⟨before, index, c :: rest⟩ captures next =
      next ⟨some c, index + 1, rest⟩ captures := by
  simp [run, accepted]

theorem run_either (first second : Pattern α) (place : Place α) (captures : List (Capture α))
    (next : Place α → List (Capture α) → Option β) :
    (either first second).run place captures next =
      (first.run place captures next).or (second.run place captures next) := by
  rw [run]
  cases first.run place captures next <;> rfl

theorem run_either_of_some {first second : Pattern α} {place : Place α}
    {captures : List (Capture α)} {next : Place α → List (Capture α) → Option β} {result : β}
    (succeeds : first.run place captures next = some result) :
    (either first second).run place captures next = some result := by
  rw [run, succeeds]

theorem run_eq_none_of_ways {pattern : Pattern α} {place : Place α} {captures : List (Capture α)}
    (none : pattern.ways place captures = []) (next : Place α → List (Capture α) → Option β) :
    pattern.run place captures next = Option.none := by
  rw [run_eq_findSome?, none, List.findSome?_nil]

/-- Given symbols are passed where they stand. -/
theorem run_exactly_append [BEq α] [LawfulBEq α] (symbols : List α) (before : Option α)
    (index : Nat) (rest : List α) (captures : List (Capture α))
    (next : Place α → List (Capture α) → Option β) :
    (exactly symbols).run ⟨before, index, symbols ++ rest⟩ captures next =
      next ⟨lastOf before symbols, index + symbols.length, rest⟩ captures := by
  induction symbols generalizing before index with
  | nil => rfl
  | cons c symbols ih =>
    -- a sequence of one part is that part, so the last symbol is no `seq`
    have passes : (one (· == c)).run ⟨before, index, c :: symbols ++ rest⟩ captures
        (fun middle remembered => (exactly symbols).run middle remembered next) =
          next ⟨lastOf before (c :: symbols), index + (c :: symbols).length, rest⟩ captures := by
      rw [List.cons_append, run_one (· == c) (beq_self_eq_true c), ih, lastOf_cons,
        List.length_cons, Nat.add_right_comm, Nat.add_assoc]
    cases symbols with
    | nil => exact passes
    | cons d symbols => exact passes

theorem run_text_append (characters : String) (before : Option Char) (index : Nat)
    (rest : List Char) (captures : List (Capture Char))
    (next : Place Char → List (Capture Char) → Option β) :
    (text characters).run ⟨before, index, characters.toList ++ rest⟩ captures next =
      next ⟨lastOf before characters.toList, index + characters.toList.length, rest⟩ captures :=
  run_exactly_append characters.toList before index rest captures next

/-- A run stops behind its last symbol. -/
theorem behindRun_append {accept : α → Bool} {piece rest : List α}
    (inside : ∀ c ∈ piece, accept c = true) (stops : rest.head?.any accept = false)
    (before : Option α) (index : Nat) :
    behindRun accept before index (piece ++ rest) =
      ⟨lastOf before piece, index + piece.length, rest⟩ := by
  induction piece generalizing before index with
  | nil =>
    cases rest with
    | nil => rfl
    | cons c rest =>
      have outside : accept c = false := by simpa using stops
      simp [behindRun, outside, lastOf]
  | cons c piece ih =>
    rw [List.cons_append, behindRun, if_pos (inside c List.mem_cons_self),
      ih (fun d member => inside d (List.mem_cons_of_mem c member)), lastOf_cons, List.length_cons,
      Nat.add_right_comm, Nat.add_assoc]

theorem run_many_append {accept : α → Bool} {piece rest : List α}
    (inside : ∀ c ∈ piece, accept c = true) (stops : rest.head?.any accept = false)
    (before : Option α) (index : Nat) (captures : List (Capture α))
    (next : Place α → List (Capture α) → Option β) :
    (many accept).run ⟨before, index, piece ++ rest⟩ captures next =
      next ⟨lastOf before piece, index + piece.length, rest⟩ captures := by
  rw [run, behindRun_append inside stops]

theorem run_several_append {accept : α → Bool} {piece rest : List α} (nonempty : piece ≠ [])
    (inside : ∀ c ∈ piece, accept c = true) (stops : rest.head?.any accept = false)
    (before : Option α) (index : Nat) (captures : List (Capture α))
    (next : Place α → List (Capture α) → Option β) :
    (several accept).run ⟨before, index, piece ++ rest⟩ captures next =
      next ⟨lastOf before piece, index + piece.length, rest⟩ captures := by
  obtain ⟨c, piece, rfl⟩ := List.exists_cons_of_ne_nil nonempty
  rw [several, run_seq, List.cons_append, run_one accept (inside c List.mem_cons_self),
    run_many_append (fun d member => inside d (List.mem_cons_of_mem c member)) stops, lastOf_cons,
    List.length_cons, Nat.add_right_comm, Nat.add_assoc]

/-- A word starts at a word character behind something else. -/
theorem run_wordEdge {before : Option Char} (outside : before.any Text.isWord = false) {c : Char}
    (inside : Text.isWord c = true) (index : Nat) (rest : List Char)
    (captures : List (Capture Char)) (next : Place Char → List (Capture Char) → Option β) :
    wordEdge.run ⟨before, index, c :: rest⟩ captures next =
      next ⟨before, index, c :: rest⟩ captures := by
  simp [wordEdge, run, outside, inside]

theorem run_name_append {named rest : List Char} (bindable : Name.isBindable named = true)
    (stops : rest.head?.any Name.isTail = false) (before : Option Char) (index : Nat)
    (captures : List (Capture Char)) (next : Place Char → List (Capture Char) → Option β) :
    name.run ⟨before, index, named ++ rest⟩ captures next =
      next ⟨lastOf before named, index + named.length, rest⟩ captures := by
  cases named with
  | nil => cases bindable
  | cons c named =>
    obtain ⟨head, tail⟩ := (Bool.and_eq_true _ _).mp bindable
    rw [name, run_seq, List.cons_append, run_one Name.isHead head,
      run_many_append (List.all_eq_true.mp tail) stops, lastOf_cons, List.length_cons,
      Nat.add_right_comm, Nat.add_assoc]

theorem run_wordEdge_append {before : Option Char} (outside : before.any Text.isWord = false)
    {word : List Char} (nonempty : word ≠ []) (inside : ∀ c ∈ word, Text.isWord c = true)
    (index : Nat) (rest : List Char) (captures : List (Capture Char))
    (next : Place Char → List (Capture Char) → Option β) :
    wordEdge.run ⟨before, index, word ++ rest⟩ captures next =
      next ⟨before, index, word ++ rest⟩ captures := by
  obtain ⟨c, word, rfl⟩ := List.exists_cons_of_ne_nil nonempty
  exact run_wordEdge outside (inside c List.mem_cons_self) index _ captures next

/-- A continuation that fails all along a text. -/
def FailsAlong (next : Place α → Option β) (back : List α) : List α → Prop
  | [] => True
  | c :: front =>
      (∀ before index, next ⟨before, index, c :: (front ++ back)⟩ = none) ∧
        FailsAlong next back front

/-- Where no match starts, running the pattern fails. -/
theorem Skips.failsAlong {pattern : Pattern α} {front : List α} (skips : pattern.Skips front)
    (captures : Place α → List (Capture α)) (next : Place α → List (Capture α) → Option β)
    (back : List α) :
    FailsAlong (fun place => pattern.run place (captures place) next) back front := by
  induction front with
  | nil => trivial
  | cons c front ih =>
    refine ⟨fun before index => ?_, ih skips.2⟩
    exact run_eq_none_of_ways (ways_eq_nil_of_matchAt (skips.1 back before index) _) next

/-- A shortest run goes on until what follows succeeds. -/
theorem runFew_append {accept : α → Bool} {next : Place α → Option β} {front back : List α}
    (inside : ∀ c ∈ front, accept c = true) (fails : FailsAlong next back front)
    {before : Option α} {index : Nat} {result : β}
    (succeeds : next ⟨lastOf before front, index + front.length, back⟩ = some result) :
    runFew accept next before index (front ++ back) = some result := by
  induction front generalizing before index with
  | nil =>
    cases back with
    | nil => exact succeeds
    | cons c back =>
      have here : next ⟨before, index, c :: back⟩ = some result := succeeds
      rw [List.nil_append, runFew, here]
  | cons c front ih =>
    rw [List.cons_append, runFew, fails.1, if_pos (inside c List.mem_cons_self)]
    refine ih (fun d member => inside d (List.mem_cons_of_mem c member)) fails.2 ?_
    rw [lastOf_cons, List.length_cons, Nat.add_comm front.length, ← Nat.add_assoc] at succeeds
    exact succeeds

/-- A shortest run stops no later than where what follows succeeds. -/
theorem exists_append_of_runFew {accept : α → Bool} {next : Place α → Option β}
    {front back : List α} (inside : ∀ c ∈ front, accept c = true) {before : Option α} {index : Nat}
    (succeeds : (next ⟨lastOf before front, index + front.length, back⟩).isSome = true) {result : β}
    (runs : runFew accept next before index (front ++ back) = some result) :
    ∃ taken left, front = taken ++ left ∧
      next ⟨lastOf before taken, index + taken.length, left ++ back⟩ = some result := by
  induction front generalizing before index with
  | nil =>
    refine ⟨[], [], rfl, ?_⟩
    cases back with
    | nil => exact runs
    | cons c back =>
      rw [List.nil_append, runFew] at runs
      cases here : next ⟨before, index, c :: back⟩ with
      | none => simp [lastOf, here] at succeeds
      | some first =>
        rw [here] at runs
        exact here.trans runs
  -- what follows is tried at each place before one more character is taken
  | cons c front ih =>
    rw [List.cons_append, runFew] at runs
    cases here : next ⟨before, index, c :: (front ++ back)⟩ with
    | some first =>
      rw [here] at runs
      exact ⟨[], c :: front, rfl, here.trans runs⟩
    | none =>
      rw [here] at runs
      simp only [if_pos (inside c List.mem_cons_self)] at runs
      rw [lastOf_cons, List.length_cons, Nat.add_comm front.length, ← Nat.add_assoc] at succeeds
      obtain ⟨taken, left, rfl, ends⟩ :=
        ih (fun d member => inside d (List.mem_cons_of_mem c member)) succeeds runs
      refine ⟨c :: taken, left, rfl, ?_⟩
      rw [lastOf_cons, List.length_cons, Nat.add_comm taken.length, ← Nat.add_assoc]
      exact ends

end ImportSupply.Pattern
