import ImportSupply.Proofs.ImportBlock.Frame
import ImportSupply.Proofs.Injection.Specification
import Mathlib.Data.List.Nodup
import Mathlib.Data.List.Perm.Subperm

/-!
# Injecting again and again

Rounds of injection, each on the text of the one before. A round only puts lines in front of its
script (`Supplies`). So what is bound stays bound, and what a round has injected is bound from then
on: no name is injected twice, and since only registered names are, the rounds that inject anything
are at most as many as those.
-/

namespace ImportSupply

open ImportBlock

/-- A name that a script imports or declares. -/
def Binding.Binds (script : List Char) (name : String) : Prop :=
  name ∈ imported script ∨ name ∈ declared script

open Binding

theorem binds_written_append {lines : List Line} (importable : ∀ line ∈ lines, line.Importable)
    {script : List Char} {name : String} (binds : Binds script name) :
    Binds (written lines ++ script) name := by
  rcases binds with imports | declares
  · exact .inl (imported_subset_append importable script imports)
  · exact .inr (declared_subset_append importable script declares)

namespace Registry

variable {registry : Registry}

/-! ## One round -/

/-- Lines that injection puts in front of a script: they hold registered entries, among them those
of all injected names. -/
structure Supplies (registry : Registry) (script : String) (lines : List Line) : Prop where
  code : (registry.inject script).code.toList = written lines ++ script.toList
  registered : ∀ line ∈ lines, ∀ entry ∈ line.entries, entry ∈ registry.entries
  importable : ∀ line ∈ lines, line.Importable
  complete : ∀ name ∈ (registry.inject script).injected,
    ∃ line ∈ lines, ∃ entry ∈ line.entries, entry.localName = name

theorem exists_supplies (importable : ∀ entry ∈ registry.entries, entry.Importable)
    (script : String) : ∃ lines, registry.Supplies script lines := by
  have code := code_inject registry script
  by_cases none : (registry.inject script).injected = []
  · rw [if_pos none] at code
    exact ⟨[], by rw [code]; rfl, by simp, by simp, by simp [none]⟩
  · rw [if_neg none] at code
    have nonempty := mt (text_injected_eq_nil_iff registry script).mp none
    have lookup : ∀ entry ∈ (registry.inject script).injected.filterMap registry.get?,
        entry ∈ registry.entries :=
      fun entry => mem_of_mem_filterMap_get?
    refine ⟨plan ((registry.inject script).injected.filterMap registry.get?), ?_, ?_, ?_, ?_⟩
    · rw [← text_append_lineEnd nonempty, code]
      simp
    · intro line planned entry member
      exact lookup entry ((holds_of_mem_plan planned).subset entry member)
    · intro line planned
      have entries := fun entry member => importable entry (lookup entry member)
      exact importable_of_mem_plan entries planned
    · -- an injected name is registered, so its entry is in the plan
      intro name member
      have missing := member
      rw [injected_inject] at missing
      obtain ⟨entry, found⟩ := get?_of_contains (contains_of_mem_missingNames missing)
      obtain ⟨line, planned, own⟩ :=
        exists_line_of_mem (List.mem_filterMap.mpr ⟨name, member, found⟩)
      exact ⟨line, planned, entry, own, localName_of_get? found⟩

theorem not_binds_of_mem_injected {script : String} {name : String}
    (member : name ∈ (registry.inject script).injected) : ¬ Binds script.toList name := by
  rw [injected_inject] at member
  exact not_or.mpr (mem_missingNames.mp member).2

section

variable {script : String} {lines : List Line} (supplies : registry.Supplies script lines)
  {name : String}

include supplies

theorem Supplies.binds_of_binds (binds : Binds script.toList name) :
    Binds (registry.inject script).code.toList name := by
  rw [supplies.code]
  exact binds_written_append supplies.importable binds

theorem Supplies.binds_localName {line : Line} (own : line ∈ lines) {entry : Entry}
    (member : entry ∈ line.entries) :
    Binds (registry.inject script).code.toList entry.localName := by
  rw [supplies.code]
  exact .inl (localName_mem_imported supplies.importable script.toList own member)

/-- What a round injects is bound behind it. -/
theorem Supplies.binds_of_mem_injected (member : name ∈ (registry.inject script).injected) :
    Binds (registry.inject script).code.toList name := by
  obtain ⟨line, own, entry, listed, rfl⟩ := supplies.complete name member
  exact supplies.binds_localName own listed

end

theorem inject_eq_unchanged {script : String} (none : (registry.inject script).injected = []) :
    registry.inject script = .unchanged script := by
  rw [injected_inject] at none
  rw [inject_eq, if_pos none]

/-! ## Several rounds -/

/-- The script after some rounds of injection. -/
def scriptAfter (registry : Registry) (script : String) : Nat → String
  | 0 => script
  | rounds + 1 => (registry.inject (registry.scriptAfter script rounds)).code

/-- The names that a round injects, counted from zero. -/
def injectedIn (registry : Registry) (script : String) (round : Nat) : List String :=
  (registry.inject (registry.scriptAfter script round)).injected

/-- The names that the first rounds have injected. -/
def suppliedBy (registry : Registry) (script : String) : Nat → List String
  | 0 => []
  | rounds + 1 => registry.suppliedBy script rounds ++ registry.injectedIn script rounds

section

variable (importable : ∀ entry ∈ registry.entries, entry.Importable) (script : String)

include importable

/-- What the first rounds have injected is bound behind them. -/
theorem binds_of_mem_suppliedBy {rounds : Nat} {name : String}
    (supplied : name ∈ registry.suppliedBy script rounds) :
    Binds (registry.scriptAfter script rounds).toList name := by
  induction rounds with
  | zero => cases supplied
  | succ rounds ih =>
    obtain ⟨lines, supplies⟩ := exists_supplies importable (registry.scriptAfter script rounds)
    rcases List.mem_append.mp supplied with earlier | last
    · exact supplies.binds_of_binds (ih earlier)
    · exact supplies.binds_of_mem_injected last

/-- No round injects a name that an earlier one has injected. -/
theorem disjoint_suppliedBy (rounds : Nat) :
    (registry.suppliedBy script rounds).Disjoint (registry.injectedIn script rounds) := by
  intro name earlier again
  exact not_binds_of_mem_injected again (binds_of_mem_suppliedBy importable script earlier)

theorem nodup_suppliedBy (rounds : Nat) : (registry.suppliedBy script rounds).Nodup := by
  induction rounds with
  | zero => exact List.nodup_nil
  | succ rounds ih =>
    have once : (registry.injectedIn script rounds).Nodup := by
      rw [injectedIn, injected_inject]
      exact nodup_missingNames registry _
    exact ih.append once (disjoint_suppliedBy importable script rounds)

/-- Only registered names are injected, so they are at most as many. -/
theorem length_suppliedBy_le (rounds : Nat) :
    (registry.suppliedBy script rounds).length ≤ registry.size := by
  have registered : registry.suppliedBy script rounds ⊆ registry.names := by
    induction rounds with
    | zero => exact List.nil_subset _
    | succ rounds ih =>
      refine List.append_subset.mpr ⟨ih, fun name member => ?_⟩
      rw [injectedIn, injected_inject] at member
      exact contains_iff.mp (contains_of_mem_missingNames member)
  rw [← length_names]
  exact (List.subperm_of_subset (nodup_suppliedBy importable script rounds) registered).length_le

end

theorem injectedIn_subset_suppliedBy {round rounds : Nat} (earlier : round < rounds)
    (script : String) : registry.injectedIn script round ⊆ registry.suppliedBy script rounds := by
  induction rounds with
  | zero => omega
  | succ rounds ih =>
    rcases Nat.lt_succ_iff_lt_or_eq.mp earlier with before | rfl
    · exact List.subset_append_of_subset_left _ (ih before)
    · exact List.subset_append_right _ _

/-- As long as every round injects a name, there are as many names as rounds; and behind a round
that injects none, no round does. -/
theorem le_length_suppliedBy_or (registry : Registry) (script : String) (rounds : Nat) :
    rounds ≤ (registry.suppliedBy script rounds).length ∨
      registry.injectedIn script rounds = [] := by
  induction rounds with
  | zero => exact .inl (Nat.zero_le _)
  | succ rounds ih =>
    by_cases none : registry.injectedIn script rounds = []
    · right
      -- the round returned its script, so the next one sees the same
      have same : registry.scriptAfter script (rounds + 1) =
          registry.scriptAfter script rounds := by
        rw [scriptAfter, inject_eq_unchanged none, Injection.unchanged]
      rw [injectedIn, same]
      exact none
    · left
      have before := ih.resolve_right none
      have further := List.length_pos_iff.mpr none
      rw [suppliedBy, List.length_append]
      omega

/-- **No name is injected twice.** The lists that two rounds inject have no name in common, so that
after as many rounds as there are registered names every further round returns its script. -/
theorem rounds_supply_each_name_once (registry : Registry)
    (importable : ∀ entry ∈ registry.entries, entry.Importable) (script : String) :
    (∀ round other, round ≠ other →
        (registry.injectedIn script round).Disjoint (registry.injectedIn script other)) ∧
      ∀ rounds, registry.size ≤ rounds →
        registry.inject (registry.scriptAfter script rounds) =
          .unchanged (registry.scriptAfter script rounds) := by
  have later {round other : Nat} (earlier : round < other) :
      (registry.injectedIn script round).Disjoint (registry.injectedIn script other) :=
    List.disjoint_of_subset_left (injectedIn_subset_suppliedBy earlier script)
      (disjoint_suppliedBy importable script other)
  constructor
  · intro round other different
    rcases Nat.lt_or_gt_of_ne different with before | behind
    · exact later before
    · exact List.disjoint_symm (later behind)
  · intro rounds enough
    refine inject_eq_unchanged ?_
    by_contra some
    -- with one more round there would be more names than are registered
    have names := (le_length_suppliedBy_or registry script rounds).resolve_right some
    have further := List.length_pos_iff.mpr some
    have bound := length_suppliedBy_le importable script (rounds + 1)
    rw [suppliedBy, List.length_append, injectedIn] at bound
    omega

/-- Three rounds for three names: the first lines use `from`, which is registered, and its line uses
the name under which it is provided. -/
theorem rounds_supply_used_words :
    let registry := Registry.ofEntries
      [.value "ref" "vue", ⟨"watch", some "from", "vue", false⟩, .value "watch" "core"]
    (∀ entry ∈ registry.entries, entry.Importable) ∧
      registry.injectedIn "ref(0)" 0 = ["ref"] ∧
      registry.injectedIn "ref(0)" 1 = ["from"] ∧
      registry.injectedIn "ref(0)" 2 = ["watch"] ∧
      (registry.injectedIn "ref(0)" 0).Disjoint (registry.injectedIn "ref(0)" 2) ∧
      registry.inject (registry.scriptAfter "ref(0)" 3) =
        .unchanged (registry.scriptAfter "ref(0)" 3) := by
  intro registry
  have importable : ∀ entry ∈ registry.entries, entry.Importable := by decide
  obtain ⟨disjoint, settled⟩ := rounds_supply_each_name_once registry importable "ref(0)"
  exact ⟨importable, by decide +kernel, by decide +kernel, by decide +kernel,
    disjoint 0 2 (by decide), settled 3 (by decide)⟩

end Registry

end ImportSupply
