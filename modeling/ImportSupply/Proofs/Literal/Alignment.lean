import ImportSupply.Proofs.Literal.Cursor

/-!
# Places in a masked text

A masked text has the characters of its script, place by place, but for some that show as spaces;
no line end is among these (`forall₂_mask`). Lines and columns depend only on where the line ends
stand (`positionAt_congr`), and these a veil leaves alone.
-/

namespace ImportSupply.Literal

/-! ## Lines and columns -/

/-- A place in a text as readers count it. -/
structure Position where
  /-- How many line ends stand before the place. -/
  line : Nat
  /-- How many characters stand between the last of them and the place. -/
  column : Nat
  deriving DecidableEq, Repr

/-- The line and the column of an index, for a notion of what ends a line. -/
def positionAt (isEnd : Char → Bool) (text : List Char) (index : Nat) : Position :=
  ⟨(text.take index).countP isEnd, ((text.take index).reverse.takeWhile fun c => !isEnd c).length⟩

theorem positionAt_eq_map (isEnd : Char → Bool) (text : List Char) (index : Nat) :
    positionAt isEnd text index =
      ⟨((text.map isEnd).take index).countP id,
        (((text.map isEnd).take index).reverse.takeWhile (! ·)).length⟩ := by
  rw [positionAt, ← List.map_take, List.countP_map, ← List.map_reverse, List.takeWhile_map,
    List.length_map]
  rfl

/-- Positions depend only on which characters of a text end lines. -/
theorem positionAt_congr {isEnd : Char → Bool} {text other : List Char}
    (same : text.map isEnd = other.map isEnd) (index : Nat) :
    positionAt isEnd text index = positionAt isEnd other index := by
  rw [positionAt_eq_map, positionAt_eq_map, same]

/-- A veil hides no line end, and makes none. -/
theorem map_eq_of_forall₂_veils {isEnd : Char → Bool}
    (ends : ∀ c, isEnd c = true → c = '\r' ∨ c = '\n') {text shown : List Char}
    (veils : List.Forall₂ Veils text shown) : shown.map isEnd = text.map isEnd := by
  have outside {c : Char} (carriageReturn : c ≠ '\r') (lineFeed : c ≠ '\n') : isEnd c = false := by
    by_contra inside
    exact (ends c (by simpa using inside)).elim carriageReturn lineFeed
  induction veils with
  | nil => rfl
  | @cons c shownChar text shown veil _ ih =>
    have same : isEnd shownChar = isEnd c := by
      rcases veil with rfl | ⟨rfl, carriageReturn, lineFeed⟩
      · rfl
      · rw [outside carriageReturn lineFeed, outside (by decide) (by decide)]
    rw [List.map_cons, List.map_cons, same, ih]

/-- **Masking keeps every place.** At every cursor of a scan, inside the script or past its end, as
many characters show as lie before the cursor. So a masked script is as long as the script; at every
index it shows the script's character, or a space for one that ends no line; and every index has the
same line and column in both, whether line feeds, carriage returns or both end lines. -/
theorem mask_aligned (script : List Char) :
    (∀ cursor, Cursor.Visits script cursor →
        cursor.shown.size = min cursor.place script.length) ∧
      (mask script).length = script.length ∧
      (∀ (index : Nat) (c : Char), script[index]? = some c →
        ∃ shown, (mask script)[index]? = some shown ∧ Veils c shown) ∧
      ∀ isEnd : Char → Bool, (∀ c, isEnd c = true → c = '\r' ∨ c = '\n') →
        ∀ index, positionAt isEnd (mask script) index = positionAt isEnd script index := by
  have veils := forall₂_mask script
  have long : script.length = (mask script).length := veils.length_eq
  refine ⟨fun cursor visited => ?_, long.symm, fun index c here => ?_, fun isEnd ends index => ?_⟩
  · have inStep := visited.forall₂_shown.length_eq
    rwa [List.length_take, Array.length_toList, eq_comm] at inStep
  · obtain ⟨inside, rfl⟩ := List.getElem?_eq_some_iff.mp here
    have insideToo : index < (mask script).length := long ▸ inside
    exact ⟨(mask script).get ⟨index, insideToo⟩, List.getElem?_eq_getElem insideToo,
      veils.get inside insideToo⟩
  · exact positionAt_congr (map_eq_of_forall₂_veils ends veils) index

/-- An unclosed template that ends in a backslash, behind a comment of two lines: the last move goes
past the end. -/
theorem mask_aligned_unclosed :
    let script := "/*é\r\n*/a=\x60b\\".toList
    let final := Cursor.start.scan script.toArray
    script.length = 12 ∧ final.place = 13 ∧ final.shown.size = 12 ∧
      mask script = "   \r\n  a=\x60  ".toList ∧
      positionAt (· == '\n') (mask script) 11 = ⟨1, 6⟩ := by
  intro script final
  obtain ⟨inStep, -, -, positions⟩ := mask_aligned script
  have past : final.place = 13 := by decide +kernel
  have shown := inStep final Cursor.Visits.start.scan
  rw [past] at shown
  refine ⟨by decide, past, shown, by decide +kernel, ?_⟩
  rw [positions (· == '\n') (fun c isEnd => .inr (by simpa using isEnd))]
  decide

end ImportSupply.Literal
