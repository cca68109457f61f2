import ImportSupply.Proofs.Export.Exactness

/-!
# Exports come in source order

Eight searches go through a script one after another, and a sort by places puts what they found into
one order. To say what that order is, every entry is kept with the match it was read from and with
its number among the entries of that match (`Traced`):

* **places** — a list numbers its entries on from its own place, but it has more characters than
  entries (`length_ofMatch_lt`), so that no number leads out of the match (`Traced.place_lt_endOf`);
* **order** — a match that ends before another one starts therefore has the smaller places, and so
  does the earlier of two entries of one match (`Traced.place_lt_of_precedes`);
* **sorting** — sorted by places, the entries keep that order (`entries_eq_map_traced`).
-/

namespace ImportSupply.Export

open Pattern Literal

/-- An entry with the match of a form's pattern that it was read from, and its number among the
entries of that match. -/
structure Traced where
  form : Form
  found : Match Char
  number : Nat
  entry : Entry

/-- The entries of one match, numbered. -/
def tracedOf (source : String) (types : Bool) (form : Form) (found : Match Char) : List Traced :=
  (form.ofMatch source types found).zipIdx.map fun (entry, number) => ⟨form, found, number, entry⟩

/-- All entries of a masked script, form by form and match by match. -/
def traced (masked : List Char) (source : String) (types : Bool) : List Traced :=
  Form.all.flatMap fun form =>
    (form.pattern.allMatches masked).flatMap (tracedOf source types form)

/-- The place where a match ends, in bytes. -/
def endOf (masked : List Char) (found : Match Char) : Nat :=
  Text.byteLength (masked.take (found.index + found.length))

namespace Traced

/-- The place that an entry is sorted by: that of its match, counted on by its number. -/
def place (masked : List Char) (item : Traced) : Nat :=
  placeOf masked item.found + item.number

/-- The order of a script: one match ends before another one starts, or of the entries of one match
one stands before the other. -/
def Precedes (item other : Traced) : Prop :=
  item.found.index + item.found.length ≤ other.found.index ∨
    item.form = other.form ∧ item.found = other.found ∧ item.number < other.number

end Traced

theorem mem_tracedOf {source : String} {types : Bool} {form : Form} {found : Match Char}
    {item : Traced} :
    item ∈ tracedOf source types form found ↔ item.form = form ∧ item.found = found ∧
      (form.ofMatch source types found)[item.number]? = some item.entry := by
  unfold tracedOf
  rw [List.mem_map]
  constructor
  · rintro ⟨⟨entry, number⟩, indexed, rfl⟩
    exact ⟨rfl, rfl, List.mk_mem_zipIdx_iff_getElem?.mp indexed⟩
  · rintro ⟨rfl, rfl, listed⟩
    exact ⟨(item.entry, item.number), List.mk_mem_zipIdx_iff_getElem?.mpr listed, rfl⟩

/-- What a script makes are the entries of its matches. -/
theorem mem_traced {masked : List Char} {source : String} {types : Bool} {item : Traced} :
    item ∈ traced masked source types ↔ item.found ∈ item.form.pattern.allMatches masked ∧
      (item.form.ofMatch source types item.found)[item.number]? = some item.entry := by
  unfold traced
  simp only [List.mem_flatMap, mem_tracedOf]
  constructor
  · rintro ⟨form, -, found, member, rfl, rfl, listed⟩
    exact ⟨member, listed⟩
  · rintro ⟨member, listed⟩
    exact ⟨item.form, item.form.mem_all, item.found, member, rfl, rfl, listed⟩

theorem found_eq_map_traced (masked : List Char) (source : String) (types : Bool) :
    found masked source types =
      (traced masked source types).map fun item => ⟨item.place masked, item.entry⟩ := by
  rw [found_eq, traced, List.map_flatMap]
  refine List.flatMap_congr fun form _ => ?_
  rw [List.map_flatMap]
  refine List.flatMap_congr fun found _ => ?_
  rw [tracedOf, spread, List.map_map]
  rfl

/-- Entries are those of the matches, sorted by their places. -/
theorem entries_eq_map_traced (script : List Char) (source : String) (types : Bool) :
    entries script source types =
      ((traced (mask script) source types).mergeSort fun a b =>
        decide (a.place (mask script) ≤ b.place (mask script))).map Traced.entry := by
  rw [entries, found_eq_map_traced, mergeSort_map_key Found.place, List.map_map]
  rfl

/-! ## Places inside a match -/

theorem length_splitOn_le (separator : Char) (text : List Char) :
    (text.splitOn separator).length ≤ text.length + 1 := by
  rw [List.splitOn_eq_splitOnP]
  induction text with
  | nil => exact Nat.le_refl 1
  | cons c text ih =>
    rw [List.splitOnP_cons_eq_if_modifyHead]
    split
    · rw [List.length_cons, List.length_cons]
      omega
    · rw [List.length_modifyHead, List.length_cons]
      omega

/-- A declaration makes one entry at most. -/
theorem Form.length_ofMatch_le_one {form : Form} (names : form ≠ .list) (source : String)
    (types : Bool) (found : Match Char) : (form.ofMatch source types found).length ≤ 1 := by
  rw [ofMatch, if_neg names, Option.length_toList]
  split <;> omega

/-- A match has more characters than it makes entries: behind each entry of a list but the last one
stands a comma, and around them the list has a keyword and braces. -/
theorem Form.length_ofMatch_lt {form : Form} {masked : List Char} {found : Match Char}
    (member : found ∈ form.pattern.allMatches masked) (source : String) (types : Bool) :
    (form.ofMatch source types found).length < found.length := by
  obtain ⟨front, piece, rest, captures, -, spells, rfl⟩ := exists_spells_of_mem_allMatches member
  by_cases isList : form = .list
  · subst isList
    obtain ⟨gap, typed, list, back, -, -, -, rfl, inner⟩ := exists_of_spells_listExport spells
    have made (listIsType : Bool) :
        (ofList source listIsType types list).length ≤ (list.splitOn ',').length :=
      List.length_filterMap_le _ _
    have commas := length_splitOn_le ',' list
    rw [ofMatch, if_pos rfl, inner, Option.getD_some]
    simp only [List.length_append, List.length_cons]
    split
    · rw [List.length_nil]
      omega
    · exact Nat.lt_of_le_of_lt (made _) (by omega)
  · have one := form.length_ofMatch_le_one isList source types
      ⟨front.length, piece.length, captures⟩
    obtain ⟨_, _, _, _, rfl, -⟩ := (Form.spells_iff isList).mp spells
    have keyword : "export".toList.length = 6 := rfl
    simp only [List.length_append] at one ⊢
    omega

theorem byteLength_take_mono (masked : List Char) {first second : Nat} (le : first ≤ second) :
    Text.byteLength (masked.take first) ≤ Text.byteLength (masked.take second) := by
  obtain ⟨more, rfl⟩ := Nat.exists_eq_add_of_le le
  rw [List.take_add, Text.byteLength_append]
  omega

/-- Characters of a match have at least a byte each. -/
theorem placeOf_add_length_le {form : Form} {masked : List Char} {found : Match Char}
    (member : found ∈ form.pattern.allMatches masked) :
    placeOf masked found + found.length ≤ endOf masked found := by
  obtain ⟨front, piece, rest, captures, rfl, -, rfl⟩ := exists_spells_of_mem_allMatches member
  have bytes := length_le_byteLength piece
  have start : Text.byteLength ((front ++ (piece ++ rest)).take front.length) =
      Text.byteLength front := by
    rw [List.take_left]
  have stop : Text.byteLength ((front ++ (piece ++ rest)).take (front.length + piece.length)) =
      Text.byteLength front + Text.byteLength piece := by
    rw [← List.append_assoc, ← List.length_append, List.take_left, Text.byteLength_append]
  unfold placeOf endOf
  dsimp only
  rw [start, stop]
  omega

namespace Traced

variable {masked : List Char} {source : String} {types : Bool} {item other : Traced}

theorem number_lt (member : item ∈ traced masked source types) :
    item.number < (item.form.ofMatch source types item.found).length :=
  (List.getElem?_eq_some_iff.mp (mem_traced.mp member).2).1

/-- The place of an entry lies inside its match. -/
theorem place_lt_endOf (member : item ∈ traced masked source types) :
    item.place masked < endOf masked item.found := by
  have matched := (mem_traced.mp member).1
  have number := number_lt member
  have count := Form.length_ofMatch_lt matched source types
  have bytes := placeOf_add_length_le matched
  unfold place
  omega

theorem place_lt_of_precedes (member : item ∈ traced masked source types)
    (precedes : item.Precedes other) : item.place masked < other.place masked := by
  rcases precedes with apart | ⟨-, same, less⟩
  · have inside := place_lt_endOf member
    have between : endOf masked item.found ≤ placeOf masked other.found :=
      byteLength_take_mono masked apart
    unfold place at inside ⊢
    omega
  · unfold place
    rw [same]
    omega

end Traced

end ImportSupply.Export
