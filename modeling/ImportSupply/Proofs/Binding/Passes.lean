import ImportSupply.Proofs.Binding.Names
import Mathlib.Data.Finset.Dedup
import Mathlib.Data.List.Nodup

/-!
# Passes over the candidates

Two passes over the candidates of a script take out what it imports and what it declares. What a
pass takes out depends on the script alone, never on the candidates that are left
(`left_eq_filter`). So a sequence of passes leaves what all of its kinds leave
(`leftByAll_eq_filter`, by induction along the sequence), and neither their order nor their
repetition matters (`passes_commute`).
-/

namespace ImportSupply.Binding

/-- The kinds of pass over the candidates of a script. -/
inductive Pass where
  | imported
  | declared
  deriving DecidableEq, Repr

namespace Pass

/-- The names that a pass takes out. -/
def bound (script : List Char) : Pass → Finset String
  | .imported => (Binding.imported script).toFinset
  | .declared => (Binding.declared script).toFinset

/-- The candidates that a pass leaves. -/
def left (script : List Char) (candidates : List String) : Pass → List String
  | .imported => withoutImported script candidates
  | .declared => withoutDeclared script candidates

/-- The candidates that passes leave, one after another. -/
def leftByAll (script : List Char) (candidates : List String) (passes : List Pass) : List String :=
  passes.foldl (fun remaining pass => pass.left script remaining) candidates

variable {script : List Char}

theorem left_eq_filter (pass : Pass) (candidates : List String) :
    pass.left script candidates = candidates.filter (· ∉ pass.bound script) := by
  cases pass with
  | imported => simp [left, bound, withoutImported_eq_filter]
  | declared => simp [left, bound, withoutDeclared_eq_filter]

/-- A sequence of passes leaves what none of them takes out. -/
theorem leftByAll_eq_filter (candidates : List String) (passes : List Pass) :
    leftByAll script candidates passes =
      candidates.filter fun name => passes.all fun pass => name ∉ pass.bound script := by
  induction passes generalizing candidates with
  | nil => simp [leftByAll]
  | cons pass passes ih =>
    have next : leftByAll script candidates (pass :: passes) =
        leftByAll script (pass.left script candidates) passes :=
      rfl
    -- the later passes take names out of what the first has left, and do not see what it took
    rw [next, ih, left_eq_filter, List.filter_filter]
    refine List.filter_congr fun name _ => ?_
    rw [List.all_cons, Bool.and_comm]

end Pass

/-- **Passes are filters, and commute.** A pass has a set of names that depends on the script alone:
of any candidates its loops leave those outside the set, in their order, whatever is left when they
find a name. So sequences of the same kinds of pass leave the same candidates, in any order and with
any repetition. -/
theorem passes_commute (script : List Char) :
    (∀ (pass : Pass) (candidates : List String),
      pass.left script candidates = candidates.filter (· ∉ pass.bound script)) ∧
    ∀ first second : List Pass, (∀ pass, pass ∈ first ↔ pass ∈ second) →
      ∀ candidates : List String,
        Pass.leftByAll script candidates first = Pass.leftByAll script candidates second := by
  refine ⟨fun pass => pass.left_eq_filter, ?_⟩
  intro first second kinds candidates
  rw [Pass.leftByAll_eq_filter, Pass.leftByAll_eq_filter]
  refine List.filter_congr fun name _ => ?_
  rw [Bool.eq_iff_iff, List.all_eq_true, List.all_eq_true]
  exact forall_congr' fun pass => imp_congr_left (kinds pass)

/-- An import, a variable, a re-export and a class, passed over in two orders; the passes leave no
candidate to the last of them. -/
theorem passes_commute_mixed :
    let script := "import a from 'x'\nlet b\nexport\x7bc\x7dfrom'y'\nclass d \x7b\x7d".toList
    Pass.leftByAll script ["e", "a", "b", "c", "d"] [.declared, .imported, .declared] = ["e"] ∧
      Pass.leftByAll script ["b", "c"] [.declared, .imported, .declared] = [] ∧
      Pass.left script ["e", "a", "b", "c", "d"] .declared = ["e", "a", "c"] := by
  intro script
  have imported : Binding.imported script = ["a", "c"] := by decide +kernel
  have declared : Binding.declared script = ["b", "d"] := by decide +kernel
  obtain ⟨filters, same⟩ := passes_commute script
  have kinds (pass : Pass) :
      pass ∈ [.declared, .imported, .declared] ↔ pass ∈ [.imported, .declared] := by
    cases pass <;> decide
  have both (candidates : List String) :
      Pass.leftByAll script candidates [.declared, .imported, .declared] =
        (candidates.filter (· ∉ ["a", "c"].toFinset)).filter (· ∉ ["b", "d"].toFinset) := by
    rw [same _ _ kinds, Pass.leftByAll, List.foldl_cons, List.foldl_cons, List.foldl_nil, filters,
      filters, Pass.bound, imported, Pass.bound, declared]
  refine ⟨?_, ?_, ?_⟩
  · rw [both]
    decide
  · rw [both]
    decide
  · rw [filters, Pass.bound, declared]
    decide

end ImportSupply.Binding
