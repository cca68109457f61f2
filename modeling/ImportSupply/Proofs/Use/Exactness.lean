import ImportSupply.Proofs.Text.Cutting
import ImportSupply.Proofs.Use.Occurrence
import Mathlib.Data.Nat.Find

/-!
# Used names, place by place

What counts as a use, said of the text alone: a name stands *free* at a place if it is all of a run
of name characters there, does not start with a digit, and has no dot or at least three dots right
before it (`FreeAt`). The used names are exactly the known names that stand free somewhere, each once,
in the order of their first free occurrence (`usedNames_exact`), and a property access counts for
nothing: without it the text uses the same names.

* **membership** — the words of a text are what stands in it, so its free words are its free
  occurrences (`mem_freeNames`);
* **order** — a free occurrence parts the free names of the text into those before it and those
  behind it (`StandsFree.freeNames_eq`), so a name that is listed earlier has an occurrence before
  every occurrence of a name that is listed later (`exists_earlier`).
-/

namespace ImportSupply

/-! ## Free occurrences -/

/-- A name that stands free between two texts: all of a run, no number, and not behind one or two
dots. -/
structure StandsFree (name front back : List Char) : Prop where
  nonempty : name ≠ []
  inside : ∀ c ∈ name, Name.isRunChar c = true
  starts : front.getLast?.any Name.isRunChar = false
  ends : back.head?.any Name.isRunChar = false
  noNumber : name.head?.any Char.isDigit = false
  noProperty : front.getLast? ≠ some '.' ∨ ['.', '.', '.'] <:+ front

/-- A free occurrence of a name in a text, behind so many characters. -/
def FreeAt (text name : List Char) (place : Nat) : Prop :=
  ∃ front back, text = front ++ (name ++ back) ∧ front.length = place ∧ StandsFree name front back

/-- The first free occurrence of a name comes before all free occurrences of another one. -/
def FreeBefore (text : List Char) (earlier later : String) : Prop :=
  ∃ place, FreeAt text earlier.toList place ∧
    ∀ other, FreeAt text later.toList other → place < other

/-- What makes a list the list of the known names that a text uses. -/
structure ListsUses (known : String → Bool) (text : List Char) (names : List String) : Prop where
  nodup : names.Nodup
  mem_iff : ∀ name, name ∈ names ↔ known name = true ∧ ∃ place, FreeAt text name.toList place
  ordered : names.Pairwise (FreeBefore text)

theorem replicate_prefix_iff {x : Char} {count : Nat} {text : List Char} :
    List.replicate count x <+: text ↔ count ≤ (text.takeWhile (· == x)).length := by
  induction text generalizing count with
  | nil => cases count <;> simp [List.replicate_succ]
  | cons c text ih =>
    cases count with
    | zero => simp
    | succ count =>
      by_cases same : c = x
      · simp [List.replicate_succ, List.cons_prefix_cons, same, ih]
      · simp [List.replicate_succ, List.cons_prefix_cons, same, Ne.symm same]

theorem Word.le_dotsAtEnd_iff {count : Nat} {text : List Char} :
    count ≤ Word.dotsAtEnd text ↔ List.replicate count '.' <:+ text := by
  rw [Word.dotsAtEnd, ← replicate_prefix_iff, ← List.reverse_suffix, List.reverse_reverse,
    List.reverse_replicate]

theorem Word.dotsAtEnd_eq_zero_iff {text : List Char} :
    Word.dotsAtEnd text = 0 ↔ text.getLast? ≠ some '.' := by
  rcases text.eq_nil_or_concat with rfl | ⟨front, c, rfl⟩
  · simp [Word.dotsAtEnd]
  · rw [List.concat_eq_append, Word.dotsAtEnd_append_singleton, List.getLast?_concat]
    by_cases dot : c = '.' <;> simp [dot]

/-- The free words are the names that stand free. -/
theorem standsFree_iff {name front back : List Char} :
    StandsFree name front back ↔
      ∃ word : Word, word.characters = name ∧ word.isFree = true ∧
        word.StandsBetween front back := by
  have property : (front.getLast? ≠ some '.' ∨ ['.', '.', '.'] <:+ front) ↔
      Word.dotsAtEnd front = 0 ∨ 3 ≤ Word.dotsAtEnd front := by
    rw [Word.dotsAtEnd_eq_zero_iff, Word.le_dotsAtEnd_iff]
    rfl
  constructor
  · rintro ⟨nonempty, inside, starts, ends, noNumber, noProperty⟩
    refine ⟨⟨Word.dotsAtEnd front, name⟩, rfl, ?_, nonempty, inside, starts, ends, rfl⟩
    simpa [Word.isFree, noNumber] using property.mp noProperty
  · rintro ⟨word, rfl, free, nonempty, inside, starts, ends, dots⟩
    simp only [Word.isFree, dots, Bool.and_eq_true, Bool.not_eq_true', Bool.or_eq_true, beq_iff_eq,
      decide_eq_true_eq] at free
    exact ⟨nonempty, inside, starts, ends, free.1, property.mpr free.2⟩

/-- What stands free before a place where no run goes on stands free in the whole text. -/
theorem FreeAt.append {front name : List Char} {place : Nat} (free : FreeAt front name place)
    (starts : front.getLast?.any Name.isRunChar = false) (rest : List Char) :
    FreeAt (front ++ rest) name place ∧ place < front.length := by
  obtain ⟨before, behind, rfl, rfl, stands⟩ := free
  have nonempty := List.length_pos_iff.mpr stands.nonempty
  -- the front does not end inside a run, so something follows the name in it
  have follows : behind ≠ [] := by
    rintro rfl
    rw [List.append_nil, List.getLast?_append_of_ne_nil _ stands.nonempty,
      List.getLast?_eq_some_getLast stands.nonempty, Option.any_some,
      stands.inside _ (List.getLast_mem stands.nonempty)] at starts
    cases starts
  refine ⟨⟨before, behind ++ rest, by simp, rfl, { stands with ends := ?_ }⟩, ?_⟩
  · rw [List.head?_append_of_ne_nil _ follows]
    exact stands.ends
  · simp only [List.length_append]
    omega

/-! ## The free names of a text -/

/-- The known names that stand free in a text, each as often as it does. -/
def freeNames (known : String → Bool) (text : List Char) : List String :=
  (((Word.ofText text).filter Word.isFree).map Word.name).filter known

section

variable {known : String → Bool} {text : List Char}

theorem usedNames_eq : usedNames known text = (freeNames known text).eraseDups :=
  rfl

theorem mem_freeNames {name : String} :
    name ∈ freeNames known text ↔
      known name = true ∧ ∃ place, FreeAt text name.toList place := by
  rw [← List.mem_eraseDups, ← usedNames_eq, mem_usedNames]
  refine and_congr_right fun _ => ?_
  constructor
  · rintro ⟨word, member, free, rfl⟩
    obtain ⟨front, back, split, stands⟩ := Word.mem_ofText_iff.mp member
    rw [Word.name, String.toList_ofList]
    exact ⟨front.length, front, back, split, rfl,
      standsFree_iff.mpr ⟨word, rfl, free, stands⟩⟩
  · rintro ⟨place, front, back, split, -, stands⟩
    obtain ⟨word, characters, free, between⟩ := standsFree_iff.mp stands
    refine ⟨word, Word.mem_ofText_iff.mpr ⟨front, back, ?_, between⟩, free, ?_⟩
    · rw [split, characters]
    · rw [Word.name, characters, String.ofList_toList]

/-- A free occurrence of a known name parts the free names of its text. -/
theorem StandsFree.freeNames_eq {name : String} {front back : List Char}
    (stands : StandsFree name.toList front back) (isKnown : known name = true) :
    freeNames known (front ++ (name.toList ++ back)) =
      freeNames known front ++ name :: freeNames known back := by
  obtain ⟨word, characters, free, between⟩ := standsFree_iff.mp stands
  have named : word.name = name := by rw [Word.name, characters, String.ofList_toList]
  rw [freeNames, ← characters, between.ofText_eq]
  simp [freeNames, free, named, isKnown]

/-- What comes before the first occurrence of an element stands before any occurrence of it. -/
theorem mem_of_idxOf_lt_idxOf {front back : List String} {earlier later : String}
    (order : (front ++ later :: back).idxOf earlier < (front ++ later :: back).idxOf later) :
    earlier ∈ front := by
  by_contra absent
  rw [List.idxOf_append_of_notMem absent] at order
  have bound : (front ++ later :: back).idxOf later ≤ front.length := by
    by_cases inFront : later ∈ front
    · rw [List.idxOf_append_of_mem inFront]
      exact List.idxOf_le_length
    · rw [List.idxOf_append_of_notMem inFront, List.idxOf_cons_self, Nat.add_zero]
  omega

/-- A name that occurs first before another one has an occurrence before each of its. -/
theorem exists_earlier {earlier later : String} (isKnown : known later = true)
    (order : (freeNames known text).idxOf earlier < (freeNames known text).idxOf later)
    {place : Nat} (free : FreeAt text later.toList place) :
    ∃ before < place, FreeAt text earlier.toList before := by
  obtain ⟨front, back, rfl, rfl, stands⟩ := free
  -- the later name is listed at this occurrence at the latest, so the earlier one is listed before it
  rw [stands.freeNames_eq isKnown] at order
  have member : earlier ∈ freeNames known front := mem_of_idxOf_lt_idxOf order
  obtain ⟨-, before, earlierFree⟩ := mem_freeNames.mp member
  obtain ⟨whole, shorter⟩ := earlierFree.append stands.starts (later.toList ++ back)
  exact ⟨before, shorter, whole⟩

theorem pairwise_freeBefore : (usedNames known text).Pairwise (FreeBefore text) := by
  refine (pairwise_idxOf_eraseDups (freeNames known text)).imp_of_mem
    fun {earlier later} member memberToo order => ?_
  have isKnown := (mem_freeNames.mp (List.mem_eraseDups.mp memberToo)).1
  have occurs := (mem_freeNames.mp (List.mem_eraseDups.mp member)).2
  classical
  -- the first occurrence is the least place, and comes before whatever any occurrence comes before
  refine ⟨Nat.find occurs, Nat.find_spec occurs, ?_⟩
  intro place free
  obtain ⟨before, shorter, earlierFree⟩ := exists_earlier isKnown order free
  exact Nat.lt_of_le_of_lt (Nat.find_min' occurs earlierFree) shorter

theorem listsUses_usedNames : ListsUses known text (usedNames known text) :=
  ⟨nodup_usedNames known text, fun _ => List.mem_eraseDups.trans mem_freeNames,
    pairwise_freeBefore⟩

/-- No two lists give the known names that a text uses. -/
theorem ListsUses.unique {names others : List String} (lists : ListsUses known text names)
    (listsToo : ListsUses known text others) : names = others := by
  have same : names.Perm others :=
    (List.perm_ext_iff_of_nodup lists.nodup listsToo.nodup).mpr fun name =>
      (lists.mem_iff name).trans (listsToo.mem_iff name).symm
  -- of two names, only one can have the first occurrence
  refine same.eq_of_pairwise ?_ lists.ordered listsToo.ordered
  rintro earlier later - - ⟨place, free, before⟩ ⟨other, freeToo, behind⟩
  exact absurd (before other freeToo) (Nat.lt_asymm (behind place free))

end

/-! ## Property accesses -/

/-- A property access between two texts: one or two dots, no more before them, and all of a run
behind them. -/
structure StandsProperty (dots : Nat) (name front back : List Char) : Prop where
  few : dots = 1 ∨ dots = 2
  nonempty : name ≠ []
  inside : ∀ c ∈ name, Name.isRunChar c = true
  starts : front.getLast? ≠ some '.'
  ends : back.head?.any Name.isRunChar = false

theorem Word.dotsAtEnd_append_replicate (dots : Nat) {front : List Char}
    (starts : front.getLast? ≠ some '.') :
    Word.dotsAtEnd (front ++ List.replicate dots '.') = dots := by
  induction dots with
  | zero => simpa using Word.dotsAtEnd_eq_zero_iff.mpr starts
  | succ dots ih =>
    rw [List.replicate_succ', ← List.append_assoc, Word.dotsAtEnd_append_singleton, ih]
    rfl

/-- A property access is a word that is not free. -/
theorem StandsProperty.ofText_eq {dots : Nat} {name front back : List Char}
    (stands : StandsProperty dots name front back) :
    Word.ofText (front ++ (List.replicate dots '.' ++ (name ++ back))) =
      Word.ofText front ++ ⟨dots, name⟩ :: Word.ofText back := by
  have outside : ∀ c ∈ List.replicate dots '.', Name.isRunChar c = false := by
    intro c member
    rw [List.eq_of_mem_replicate member]
    decide
  have noRun : (List.replicate dots '.').head?.any Name.isRunChar = false := by
    cases dots with
    | zero => rfl
    | succ dots => exact outside '.' (by simp)
  -- dots make no words, and the word behind them counts them all
  have dotted : Word.ofText (front ++ List.replicate dots '.') = Word.ofText front := by
    rw [Word.ofText_append (.inr noRun), Word.readFrom_eq_nil outside, List.append_nil]
  have between : (⟨dots, name⟩ : Word).StandsBetween (front ++ List.replicate dots '.') back := by
    refine ⟨stands.nonempty, stands.inside, ?_, stands.ends,
      (Word.dotsAtEnd_append_replicate dots stands.starts).symm⟩
    refine Text.getLast?_any_append ?_ outside
    rcases stands.few with rfl | rfl <;> simp
  rw [← List.append_assoc, between.ofText_eq, dotted]

/-- Without a property access a text uses the same names in the same order. -/
theorem StandsProperty.usedNames_eq {dots : Nat} {name front back : List Char}
    (stands : StandsProperty dots name front back) (known : String → Bool) :
    usedNames known (front ++ (List.replicate dots '.' ++ (name ++ back))) =
      usedNames known (front ++ back) := by
  have bound : (⟨dots, name⟩ : Word).isFree = false := by
    rcases stands.few with rfl | rfl <;> simp [Word.isFree]
  have joined : Word.ofText (front ++ back) = Word.ofText front ++ Word.ofText back := by
    rw [Word.ofText_append (.inr stands.ends), Word.dotsAtEnd_eq_zero_iff.mpr stands.starts]
    rfl
  rw [usedNames, stands.ofText_eq, usedNames, joined]
  simp [bound]

/-- **Used names are exact.** The list of used names is the only one that gives, without repetition
and in the order of first free occurrences, the known names that stand free in the text; and a
property access, before or behind a free occurrence, neither hides a name nor moves it. -/
theorem usedNames_exact (known : String → Bool) (text : List Char) :
    (∀ names, names = usedNames known text ↔ ListsUses known text names) ∧
      ∀ dots name front back, text = front ++ (List.replicate dots '.' ++ (name ++ back)) →
        StandsProperty dots name front back →
          usedNames known text = usedNames known (front ++ back) := by
  refine ⟨fun names => ⟨?_, fun lists => lists.unique listsUses_usedNames⟩, ?_⟩
  · rintro rfl
    exact listsUses_usedNames
  · rintro dots name front back rfl stands
    exact stands.usedNames_eq known

/-- A name behind one dot, behind two, as a spread and as the end of a number. -/
theorem usedNames_exact_mixed :
    StandsProperty 1 ['b'] "o".toList "+a..b(...b,1b)".toList ∧
      ListsUses (fun _ => true) "o.b+a..b(...b,1b)".toList ["o", "a", "b"] ∧
      usedNames (fun _ => true) "o+a..b(...b,1b)".toList = ["o", "a", "b"] := by
  have stands : StandsProperty 1 ['b'] "o".toList "+a..b(...b,1b)".toList :=
    ⟨.inl rfl, by decide, by decide, by decide, by decide⟩
  have exact := usedNames_exact (fun _ => true) "o.b+a..b(...b,1b)".toList
  have used : ["o", "a", "b"] = usedNames (fun _ => true) "o.b+a..b(...b,1b)".toList := by
    decide +kernel
  exact ⟨stands, (exact.1 _).mp used, (exact.2 1 _ _ _ rfl stands).symm.trans used.symm⟩

end ImportSupply
