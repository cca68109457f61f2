import ImportSupply.Binding.Declared
import Mathlib.Data.List.Basic

/-!
# The names that a script binds

A pass over the candidates of a script takes out one name after another, as its searches find them.
What it leaves does not depend on that: a removal leaves the candidates outside its names, whatever
was removed before (`remove_eq_outside`), and so does a loop of removals, for all the names it comes
across (`foldl_eq_outside`). A pass as a whole leaves the candidates outside the names that the
script binds (`withoutImported_eq_filter`, `withoutDeclared_eq_filter`).
-/

namespace ImportSupply.Binding

open Pattern

/-! ## What is bound -/

/-- The names bound by one match of `importStatement`. -/
def ofImport (found : Match Char) : List String :=
  match found.piece? 1 <|> found.piece? 2 with
  | some clause => ofClause clause
  | none => []

/-- The names bound by one match of `reexportStatement`. -/
def ofReexport (found : Match Char) : List String :=
  ((found.piece? 1).map ofList).getD [] ++ ((found.piece? 2).map String.ofList).toList

/-- The names that the imports and re-exports of a masked script bind. -/
def importedIn (masked : List Char) : List String :=
  (importStatement.allMatches masked).flatMap ofImport ++
    (reexportStatement.allMatches masked).flatMap ofReexport

/-- The names that a script's imports and re-exports bind. -/
def imported (script : List Char) : List String :=
  importedIn (Literal.mask script)

/-- The names in group 1 of the matches of a pattern. -/
def namesOf (declaration : Pattern Char) (masked : List Char) : List String :=
  (declaration.allMatches masked).filterMap fun found => (found.piece? 1).map String.ofList

/-- The names bound by one match of `destructuringDeclaration`. -/
def ofDestructuringMatch (found : Match Char) : List String :=
  match found.piece? 1 <|> found.piece? 2 with
  | some pattern => ofDestructuring pattern
  | none => []

/-- The names that a masked script declares. -/
def declaredIn (masked : List Char) : List String :=
  namedDeclarations.flatMap (namesOf · masked) ++
    (destructuringDeclaration.allMatches masked).flatMap ofDestructuringMatch

/-- The names that a script declares. -/
def declared (script : List Char) : List String :=
  declaredIn (Literal.mask script)

/-! ## What is removed -/

/-- The candidates outside a list of names, in their order. -/
def outside (names candidates : List String) : List String :=
  candidates.filter fun name => !names.contains name

@[simp]
theorem outside_nil (candidates : List String) : outside [] candidates = candidates := by
  simp [outside]

theorem outside_append (first second candidates : List String) :
    outside (first ++ second) candidates = outside second (outside first candidates) := by
  rw [outside, outside, outside, List.filter_filter]
  refine List.filter_congr fun name _ => ?_
  rw [List.contains_append, Bool.not_or, Bool.and_comm]

theorem remove_eq_outside (candidates : List String) (name : String) :
    remove candidates name = outside [name] candidates := by
  refine List.filter_congr fun other _ => ?_
  rw [List.contains_cons, List.contains_nil, Bool.or_false, bne]

/-- A loop whose steps remove names removes all of them, in whatever order it comes across them. -/
theorem foldl_eq_outside {α : Type} {step : List String → α → List String}
    {names : α → List String}
    (removes : ∀ candidates item, step candidates item = outside (names item) candidates)
    (items : List α) (candidates : List String) :
    items.foldl step candidates = outside (items.flatMap names) candidates := by
  induction items generalizing candidates with
  | nil => rw [List.foldl_nil, List.flatMap_nil, outside_nil]
  | cons item items ih =>
    rw [List.foldl_cons, ih, removes, List.flatMap_cons, outside_append]

theorem foldl_remove_eq_outside (names candidates : List String) :
    names.foldl remove candidates = outside names candidates := by
  rw [foldl_eq_outside remove_eq_outside, List.flatMap_singleton']

theorem removeImport_eq_outside (candidates : List String) (found : Match Char) :
    removeImport candidates found = outside (ofImport found) candidates := by
  unfold removeImport ofImport
  cases found.piece? 1 <|> found.piece? 2 with
  | none => exact (outside_nil candidates).symm
  | some clause => exact foldl_remove_eq_outside (ofClause clause) candidates

theorem removeReexport_eq_outside (candidates : List String) (found : Match Char) :
    removeReexport candidates found = outside (ofReexport found) candidates := by
  unfold removeReexport ofReexport
  rw [outside_append]
  cases found.piece? 1 <;> cases found.piece? 2 <;>
    simp [foldl_remove_eq_outside, remove_eq_outside]

theorem removeDestructured_eq_outside (candidates : List String) (found : Match Char) :
    removeDestructured candidates found = outside (ofDestructuringMatch found) candidates := by
  unfold removeDestructured ofDestructuringMatch
  cases found.piece? 1 <|> found.piece? 2 with
  | none => exact (outside_nil candidates).symm
  | some pattern => exact foldl_remove_eq_outside (ofDestructuring pattern) candidates

theorem removeNamed_eq_outside (candidates : List String) (found : Match Char) :
    removeNamed candidates found =
      outside ((found.piece? 1).map String.ofList).toList candidates := by
  unfold removeNamed
  cases found.piece? 1 with
  | none => exact (outside_nil candidates).symm
  | some name => exact remove_eq_outside candidates (String.ofList name)

theorem removeCaptured_eq_outside (masked : List Char) (candidates : List String)
    (declaration : Pattern Char) :
    removeCaptured masked candidates declaration =
      outside (namesOf declaration masked) candidates := by
  rw [removeCaptured, foldl_eq_outside removeNamed_eq_outside, namesOf,
    List.filterMap_eq_flatMap_toList]

/-- The first pass leaves the candidates that the script does not import. -/
theorem withoutImported_eq_filter (script : List Char) (candidates : List String) :
    withoutImported script candidates =
      candidates.filter fun name => !(imported script).contains name := by
  unfold withoutImported
  split
  next empty => rw [List.isEmpty_iff.mp empty, List.filter_nil]
  next =>
    dsimp only
    rw [foldl_eq_outside removeImport_eq_outside, foldl_eq_outside removeReexport_eq_outside,
      ← outside_append]
    rfl

/-- The second pass leaves the candidates that the script does not declare. -/
theorem withoutDeclared_eq_filter (script : List Char) (candidates : List String) :
    withoutDeclared script candidates =
      candidates.filter fun name => !(declared script).contains name := by
  unfold withoutDeclared
  split
  next empty => rw [List.isEmpty_iff.mp empty, List.filter_nil]
  next =>
    dsimp only
    rw [foldl_eq_outside (removeCaptured_eq_outside _),
      foldl_eq_outside removeDestructured_eq_outside, ← outside_append]
    rfl

theorem mem_withoutImported {script : List Char} {candidates : List String} {name : String} :
    name ∈ withoutImported script candidates ↔ name ∈ candidates ∧ name ∉ imported script := by
  simp [withoutImported_eq_filter]

theorem mem_withoutDeclared {script : List Char} {candidates : List String} {name : String} :
    name ∈ withoutDeclared script candidates ↔ name ∈ candidates ∧ name ∉ declared script := by
  simp [withoutDeclared_eq_filter]

end ImportSupply.Binding
