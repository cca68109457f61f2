import ImportSupply.Proofs.Export.SourceOrder

/-!
# Types are only left out

Whether types are wanted is asked in two places: by the searches for types, and for each specifier
of a list before the list numbers its entries. So a script without its types has other places than
with them, and yet its entries are the same but for the types, in the same order
(`entries_without_types`), unless a declaration starts inside a list:

* **matches** — match by match, types are filtered out (`Form.ofMatch_false`);
* **places** — as nothing else starts inside a list, entries are ordered by where their matches
  start, and by their numbers only in one match (`Unmixed.place_le_iff`), in which the values keep
  their order;
* **sorting** — a stable sort can change places with a filter (`filter_mergeSort`), and only asks
  which of two places is the smaller.
-/

namespace ImportSupply.Export

open Pattern Literal

/-! ## Matches without types -/

theorem ofSpecifier_false (source : String) (listIsType : Bool) (specifier : List Char) :
    ofSpecifier source listIsType false specifier =
      (ofSpecifier source listIsType true specifier).filter fun entry => !entry.isType := by
  rw [ofSpecifier_eq, ofSpecifier_eq]
  dsimp only
  split
  · rfl
  · split
    · rfl
    · rfl

theorem ofList_false (source : String) (listIsType : Bool) (list : List Char) :
    ofList source listIsType false list =
      (ofList source listIsType true list).filter fun entry => !entry.isType := by
  rw [ofList, ofList, List.filter_filterMap]
  refine List.filterMap_congr fun specifier _ => ?_
  exact ofSpecifier_false source listIsType specifier

theorem Form.ofName_false (source : String) (form : Form) (name : String) :
    form.ofName source false name =
      (form.ofName source true name).filter fun entry => !entry.isType := by
  rw [ofName, ofName]
  split
  · rfl
  · rcases form with kind | _ | _
    · cases kind <;> rfl
    · rfl
    · rfl

/-- Without types a match makes the values that it makes with them. -/
theorem Form.ofMatch_false (source : String) (form : Form) (found : Match Char) :
    form.ofMatch source false found =
      (form.ofMatch source true found).filter fun entry => !entry.isType := by
  rw [ofMatch, ofMatch]
  split
  · split
    · rfl
    · exact ofList_false source _ _
  · cases found.piece? 1 with
    | none => rfl
    | some named =>
      rw [Option.bind_some, Option.bind_some, ofName_false]
      cases form.ofName source true (String.ofList named) with
      | none => rfl
      | some entry => cases isType : entry.isType <;> simp [Option.filter, isType]

/-! ## Where matches start -/

/-- No declaration starts inside a list. -/
def Unmixed (masked : List Char) : Prop :=
  ∀ form : Form, form ≠ .list → ∀ heading ∈ form.pattern.allMatches masked,
    ∀ list ∈ listExport.allMatches masked,
      ¬(list.index ≤ heading.index ∧ heading.index < list.index + list.length)

instance (masked : List Char) : Decidable (Unmixed masked) :=
  decidable_of_iff
    (∀ form ∈ Form.all, form ≠ .list → ∀ heading ∈ form.pattern.allMatches masked,
      ∀ list ∈ listExport.allMatches masked,
        ¬(list.index ≤ heading.index ∧ heading.index < list.index + list.length))
    ⟨fun all form => all form form.mem_all, fun all form _ => all form⟩

theorem byteLength_take_lt {masked : List Char} {first second : Nat} (less : first < second)
    (within : second ≤ masked.length) :
    Text.byteLength (masked.take first) < Text.byteLength (masked.take second) := by
  have next : (masked.take (first + 1)) = masked.take first ++ [masked[first]] :=
    List.take_succ_eq_append_getElem (by omega)
  have here : Text.byteLength (masked.take (first + 1)) =
      Text.byteLength (masked.take first) + masked[first].utf8Size := by
    rw [next, Text.byteLength_append, Text.byteLength_cons, Text.byteLength_nil, Nat.add_zero]
  have size := masked[first].utf8Size_pos
  have later : Text.byteLength (masked.take (first + 1)) ≤ _ := byteLength_take_mono masked less
  omega

namespace Traced

variable {masked : List Char} {source : String} {types types' : Bool} {item other : Traced}

theorem number_eq_zero (member : item ∈ traced masked source types) (names : item.form ≠ .list) :
    item.number = 0 := by
  have number := number_lt member
  have one := item.form.length_ofMatch_le_one names source types item.found
  omega

theorem index_lt_length (member : item ∈ traced masked source types) :
    item.found.index < item.found.index + item.found.length ∧
      item.found.index + item.found.length ≤ masked.length := by
  have matched := (mem_traced.mp member).1
  have count := Form.length_ofMatch_lt matched source types
  obtain ⟨front, piece, rest, captures, rfl, -, same⟩ := exists_spells_of_mem_allMatches matched
  rw [same] at count ⊢
  simp only [List.length_append] at count ⊢
  omega

end Traced

section

variable {masked : List Char} {source : String} {types types' : Bool} {item other : Traced}

/-- Entries of matches that start earlier have smaller places, with and without types. -/
theorem Unmixed.place_lt (unmixed : Unmixed masked) (member : item ∈ traced masked source types)
    (member' : other ∈ traced masked source types') (less : item.found.index < other.found.index) :
    item.place masked < other.place masked := by
  have matched := (mem_traced.mp member).1
  have matched' := (mem_traced.mp member').1
  by_cases isList : item.form = .list
  · -- what starts behind the start of a list starts behind its end
    refine Traced.place_lt_of_precedes member (.inl ?_)
    rw [isList] at matched
    by_cases isList' : other.form = .list
    · rw [isList'] at matched'
      rcases eq_or_apart_of_mem_allMatches matched matched' with same | apart | apart
      · rw [same] at less
        omega
      · exact apart
      · omega
    · have outside := unmixed other.form isList' other.found matched' item.found matched
      omega
  · have within := Traced.index_lt_length member'
    have bytes : Text.byteLength (masked.take item.found.index) < _ :=
      byteLength_take_lt less (by omega)
    unfold Traced.place placeOf
    rw [Traced.number_eq_zero member isList]
    omega

/-- Entries are ordered by where their matches start and then by their numbers. -/
theorem Unmixed.place_le_iff (unmixed : Unmixed masked)
    (member : item ∈ traced masked source types) (member' : other ∈ traced masked source types) :
    item.place masked ≤ other.place masked ↔
      item.found.index < other.found.index ∨
        item.found.index = other.found.index ∧ item.number ≤ other.number := by
  rcases Nat.lt_trichotomy item.found.index other.found.index with less | same | less
  · have before := unmixed.place_lt member member' less
    omega
  · unfold Traced.place placeOf
    rw [same]
    omega
  · have before := unmixed.place_lt member' member less
    omega

/-- Matches that start at one place are one list, or none of them is a list. -/
theorem Unmixed.of_index_eq (unmixed : Unmixed masked) (member : item ∈ traced masked source types)
    (member' : other ∈ traced masked source types)
    (same : item.found.index = other.found.index) :
    item.form = .list ∧ other.form = .list ∧ item.found = other.found ∨
      item.form ≠ .list ∧ other.form ≠ .list := by
  have matched := (mem_traced.mp member).1
  have matched' := (mem_traced.mp member').1
  have inside := (Traced.index_lt_length member).1
  have inside' := (Traced.index_lt_length member').1
  -- Two matches of one pattern do not overlap, and no declaration starts inside a list.
  by_cases isList : item.form = .list
  · rw [isList] at matched
    by_cases isList' : other.form = .list
    · rw [isList'] at matched'
      rcases eq_or_apart_of_mem_allMatches matched matched' with one | apart | apart
      · exact .inl ⟨isList, isList', one⟩
      · omega
      · omega
    · have outside := unmixed other.form isList' other.found matched' item.found matched
      omega
  · by_cases isList' : other.form = .list
    · rw [isList'] at matched'
      have outside := unmixed item.form isList item.found matched other.found matched'
      omega
    · exact .inr ⟨isList, isList'⟩

end

/-! ## Two numberings -/

/-- In a list with increasing keys, keys and positions are in the same order. -/
theorem le_iff_of_mem_zipIdx {α : Type} {key : α → Nat} {items : List α}
    (increasing : items.Pairwise fun a b => key a < key b) {a b : α} {i j : Nat}
    (first : (a, i) ∈ items.zipIdx) (second : (b, j) ∈ items.zipIdx) : key a ≤ key b ↔ i ≤ j := by
  obtain ⟨within, rfl⟩ := List.getElem?_eq_some_iff.mp (List.mk_mem_zipIdx_iff_getElem?.mp first)
  obtain ⟨within', rfl⟩ := List.getElem?_eq_some_iff.mp (List.mk_mem_zipIdx_iff_getElem?.mp second)
  have less := List.pairwise_iff_getElem.mp increasing
  rcases Nat.lt_trichotomy i j with before | rfl | behind
  · have keys := less i j within within' before
    omega
  · simp
  · have keys := less j i within' within behind
    omega

/-- The values of a match, each with its number among the values. -/
def valuesOf (source : String) (form : Form) (found : Match Char) : List (Traced × Nat) :=
  ((tracedOf source true form found).filter fun item => !item.entry.isType).zipIdx

/-- The values of a masked script, each with its number among the values of its match. -/
def values (masked : List Char) (source : String) : List (Traced × Nat) :=
  Form.all.flatMap fun form =>
    (form.pattern.allMatches masked).flatMap (valuesOf source form)

/-- A value as it is found where types are not wanted. -/
def renumbered (value : Traced × Nat) : Traced :=
  { value.1 with number := value.2 }

section

variable (masked : List Char) (source : String)

theorem map_fst_values :
    (values masked source).map Prod.fst =
      (traced masked source true).filter fun item => !item.entry.isType := by
  simp only [values, traced, List.map_flatMap, List.filter_flatMap, valuesOf, List.zipIdx_map_fst]

theorem map_renumbered_valuesOf (form : Form) (found : Match Char) :
    (valuesOf source form found).map renumbered = tracedOf source false form found := by
  have kept : (tracedOf source true form found).filter (fun item => !item.entry.isType) =
      ((form.ofMatch source true found).zipIdx.filter fun pair => !pair.1.isType).map
        fun pair => ⟨form, found, pair.2, pair.1⟩ := by
    rw [tracedOf, List.filter_map]
    rfl
  have entries : ((form.ofMatch source true found).zipIdx.filter fun pair => !pair.1.isType).map
      Prod.fst = form.ofMatch source false found := by
    rw [form.ofMatch_false, ← List.zipIdx_map_fst 0 (form.ofMatch source true found),
      List.filter_map, List.zipIdx_map_fst]
    rfl
  rw [valuesOf, kept, tracedOf, ← entries, List.zipIdx_map, List.zipIdx_map, List.map_map,
    List.map_map]
  rfl

theorem map_renumbered_values :
    (values masked source).map renumbered = traced masked source false := by
  simp only [values, traced, List.map_flatMap, map_renumbered_valuesOf]

end

section

variable {masked : List Char} {source : String} {value other : Traced × Nat}

theorem mem_valuesOf_of_mem_values (member : value ∈ values masked source) :
    value ∈ valuesOf source value.1.form value.1.found := by
  obtain ⟨form, -, member⟩ := List.mem_flatMap.mp member
  obtain ⟨found, -, member⟩ := List.mem_flatMap.mp member
  have own := List.mem_of_mem_filter (List.fst_mem_of_mem_zipIdx member)
  obtain ⟨rfl, rfl, -⟩ := mem_tracedOf.mp own
  exact member

theorem pairwise_number_tracedOf (source : String) (types : Bool) (form : Form)
    (found : Match Char) :
    (tracedOf source types form found).Pairwise fun a b => a.number < b.number := by
  have increasing : ((form.ofMatch source types found).zipIdx.map Prod.snd).Pairwise (· < ·) := by
    rw [List.zipIdx_map_snd]
    exact List.pairwise_lt_range'
  rw [tracedOf, List.pairwise_map]
  exact List.pairwise_map.mp increasing

/-- Both numberings of the values order them alike. -/
theorem Unmixed.place_le_iff_renumbered (unmixed : Unmixed masked)
    (member : value ∈ values masked source) (member' : other ∈ values masked source) :
    value.1.place masked ≤ other.1.place masked ↔
      (renumbered value).place masked ≤ (renumbered other).place masked := by
  have inTrue {value : Traced × Nat} (member : value ∈ values masked source) :
      value.1 ∈ traced masked source true := by
    have mapped := List.mem_map_of_mem (f := Prod.fst) member
    rw [map_fst_values] at mapped
    exact List.mem_of_mem_filter mapped
  have inFalse {value : Traced × Nat} (member : value ∈ values masked source) :
      renumbered value ∈ traced masked source false := by
    rw [← map_renumbered_values]
    exact List.mem_map_of_mem member
  rw [unmixed.place_le_iff (inTrue member) (inTrue member'),
    unmixed.place_le_iff (inFalse member) (inFalse member')]
  refine or_congr Iff.rfl (and_congr_right fun same => ?_)
  show value.1.number ≤ other.1.number ↔ value.2 ≤ other.2
  rcases unmixed.of_index_eq (inTrue member) (inTrue member') same with
    ⟨isList, isList', one⟩ | ⟨names, names'⟩
  · -- of one list both have kept their order
    have own := mem_valuesOf_of_mem_values member
    have own' := mem_valuesOf_of_mem_values member'
    rw [isList] at own
    rw [isList', ← one] at own'
    exact le_iff_of_mem_zipIdx ((pairwise_number_tracedOf source true _ _).filter _) own own'
  · have first := Traced.number_eq_zero (inTrue member) names
    have second : value.2 = 0 := Traced.number_eq_zero (inFalse member) names
    omega

end

/-- **Types are only left out.** In a script in which no declaration starts inside an export list,
the entries without types are those with types, but for the types, in the same order. -/
theorem entries_without_types (script : List Char) (source : String)
    (unmixed : Unmixed (mask script)) :
    entries script source false =
      (entries script source true).filter fun entry => !entry.isType := by
  -- both are the values in one order, of which each run sees its own numbers
  have withTypes : (entries script source true).filter (fun entry => !entry.isType) =
      ((values (mask script) source).mergeSort fun a b =>
        decide (a.1.place (mask script) ≤ b.1.place (mask script))).map fun value =>
          value.1.entry := by
    have sorted := filter_mergeSort (Traced.place (mask script))
      (fun item : Traced => !item.entry.isType) (traced (mask script) source true)
    rw [← map_fst_values, mergeSort_map_key] at sorted
    rw [entries_eq_map_traced, List.filter_map]
    exact (congrArg (List.map Traced.entry) sorted).trans (List.map_map ..)
  have withoutTypes : entries script source false =
      ((values (mask script) source).mergeSort fun a b =>
        decide ((renumbered a).place (mask script) ≤ (renumbered b).place (mask script))).map
          fun value => value.1.entry := by
    rw [entries_eq_map_traced, ← map_renumbered_values, mergeSort_map_key, List.map_map]
    rfl
  have alike := @List.map_mergeSort _ _ (fun a b : Traced × Nat =>
    decide (a.1.place (mask script) ≤ b.1.place (mask script))) (fun a b : Traced × Nat =>
      decide ((renumbered a).place (mask script) ≤ (renumbered b).place (mask script))) id
    (values (mask script) source) fun a member b member' =>
      decide_eq_decide.mpr (unmixed.place_le_iff_renumbered member member')
  rw [List.map_id, List.map_id] at alike
  rw [withoutTypes, withTypes, alike]

/-- Types before and between the values of a list, and declarations on both sides of it. -/
theorem entries_without_types_interleaved :
    let script := ("export interface I \x7b\x7d\n" ++
      "export \x7b type T, b, type U as V, a as c \x7d\nexport class D \x7b\x7d").toList
    Unmixed (mask script) ∧
      entries script "m" true = [.type "I" "m", .type "T" "m", .value "b" "m", .type "V" "m",
        .value "c" "m", .value "D" "m"] ∧
      entries script "m" false = [.value "b" "m", .value "c" "m", .value "D" "m"] := by
  intro script
  have unmixed : Unmixed (mask script) := by decide +kernel
  have places : found (mask script) "m" true = [⟨64, .value "D" "m"⟩, ⟨0, .type "I" "m"⟩,
      ⟨22, .type "T" "m"⟩, ⟨23, .value "b" "m"⟩, ⟨24, .type "V" "m"⟩, ⟨25, .value "c" "m"⟩] := by
    decide +kernel
  have listed : entries script "m" true = [.type "I" "m", .type "T" "m", .value "b" "m",
      .type "V" "m", .value "c" "m", .value "D" "m"] := by
    have perm : (found (mask script) "m" true).Perm [⟨0, .type "I" "m"⟩, ⟨22, .type "T" "m"⟩,
        ⟨23, .value "b" "m"⟩, ⟨24, .type "V" "m"⟩, ⟨25, .value "c" "m"⟩, ⟨64, .value "D" "m"⟩] := by
      rw [places]
      decide
    rw [entries, mergeSort_eq perm (by decide)]
    rfl
  refine ⟨unmixed, listed, ?_⟩
  rw [entries_without_types script "m" unmixed, listed]
  rfl

end ImportSupply.Export
