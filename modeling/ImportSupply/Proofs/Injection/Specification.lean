import ImportSupply.Injection
import ImportSupply.Proofs.Binding.Names
import ImportSupply.Proofs.ImportBlock.Line
import ImportSupply.Proofs.Literal.Segment
import ImportSupply.Proofs.Use.Words

/-!
# What injection does

Injection has early ways out: a blank script, an empty registry, no used names, an empty block. None
of them is seen from outside (`Registry.inject_eq`): a script without missing names stays as it is,
and any other gets the block of its missing names, which is never empty, because missing names are
registered. The passes that drop bound names act on each name alone, so the missing names are the
used names that each pass keeps on its own.
-/

namespace ImportSupply

open Binding

namespace Registry

variable {registry : Registry}

/-- The registered names that a script uses and does not bind itself, in the order of use. -/
def missingNames (registry : Registry) (script : List Char) : List String :=
  unbound script (registry.usedIn script)

theorem mem_missingNames {script : List Char} {name : String} :
    name ∈ registry.missingNames script ↔
      name ∈ usedNames registry.contains (Literal.mask script) ∧
        name ∉ imported script ∧ name ∉ declared script := by
  rw [missingNames, unbound, mem_withoutDeclared, mem_withoutImported, and_assoc, usedIn]

theorem contains_of_mem_missingNames {script : List Char} {name : String}
    (missing : name ∈ registry.missingNames script) : registry.contains name = true :=
  (mem_usedNames.mp (mem_missingNames.mp missing).1).1

theorem nodup_missingNames (registry : Registry) (script : List Char) :
    (registry.missingNames script).Nodup := by
  rw [missingNames, unbound, withoutDeclared_eq_filter, withoutImported_eq_filter]
  exact ((nodup_usedNames _ _).filter _).filter _

/-- Both passes act on each name alone. -/
theorem missingNames_eq_filter (registry : Registry) (script : List Char) :
    registry.missingNames script =
      (usedNames registry.contains (Literal.mask script)).filter fun name =>
        name ∈ withoutImported script [name] ∧ name ∈ withoutDeclared script [name] := by
  simp only [missingNames, unbound, usedIn, mem_withoutImported, mem_withoutDeclared]
  simp only [withoutImported_eq_filter, withoutDeclared_eq_filter, List.filter_filter]
  congr 1
  funext name
  simp [and_comm]

/-! ## The ways out -/

/-- A blank script uses no name: masking leaves it as it is, and blanks are in no word. -/
theorem usedNames_mask_of_isBlankText (known : String → Bool) {script : List Char}
    (blank : Text.isBlankText script = true) : usedNames known (Literal.mask script) = [] := by
  have blanks : ∀ c ∈ script, Text.isBlank c = true := List.all_eq_true.mp blank
  have inert : ∀ c ∈ script, Literal.isInert c = true := fun c member =>
    Literal.isInert_of_accept (by decide) (blanks c member)
  have masked : Literal.mask script = script := by
    simpa [Literal.mask_nil] using Literal.mask_inert_append inert []
  rw [masked, usedNames, Word.ofText_eq_nil
    fun c member => Name.isRunChar_eq_false_of_isBlank (blanks c member)]
  rfl

theorem missingNames_of_isBlankText (registry : Registry) {script : List Char}
    (blank : Text.isBlankText script = true) : registry.missingNames script = [] := by
  rw [missingNames, usedIn, usedNames_mask_of_isBlankText _ blank]
  rfl

theorem missingNames_of_isEmpty (empty : registry.isEmpty = true) (script : List Char) :
    registry.missingNames script = [] := by
  rw [List.eq_nil_iff_forall_not_mem]
  intro name missing
  have registered := contains_iff.mp (contains_of_mem_missingNames missing)
  rw [names, List.isEmpty_iff.mp empty] at registered
  cases registered

/-- The block of registered names is empty only if there are none. -/
theorem text_ne_nil {used : List String} (registered : ∀ name ∈ used, registry.contains name = true)
    (nonempty : used ≠ []) : ImportBlock.text registry used ≠ [] := by
  obtain ⟨name, rest, rfl⟩ := List.exists_cons_of_ne_nil nonempty
  obtain ⟨entry, found⟩ := get?_of_contains (registered name List.mem_cons_self)
  have member : entry ∈ (name :: rest).filterMap registry.get? :=
    List.mem_filterMap.mpr ⟨name, List.mem_cons_self, found⟩
  obtain ⟨line, planned, -⟩ := ImportBlock.exists_line_of_mem member
  rw [ne_eq, ImportBlock.text_eq_nil_iff]
  exact List.ne_nil_of_mem planned

theorem text_missingNames_ne_nil {script : List Char}
    (nonempty : registry.missingNames script ≠ []) :
    ImportBlock.text registry (registry.missingNames script) ≠ [] :=
  text_ne_nil (fun _ => contains_of_mem_missingNames) nonempty

/-- A script without missing names stays as it is, and any other gets their block in front. -/
theorem inject_eq (registry : Registry) (script : String) :
    registry.inject script =
      if registry.missingNames script.toList = [] then .unchanged script
      else
        ⟨String.ofList (ImportBlock.text registry (registry.missingNames script.toList)) ++ "\n" ++
          script, registry.missingNames script.toList⟩ := by
  -- each way out is taken only by scripts without missing names
  by_cases early : (Text.isBlankText script.toList || registry.isEmpty) = true
  · have none : registry.missingNames script.toList = [] := by
      rcases (Bool.or_eq_true _ _).mp early with blank | empty
      · exact missingNames_of_isBlankText registry blank
      · exact missingNames_of_isEmpty empty _
    rw [inject, if_pos early, if_pos none]
  rw [inject, if_neg early]
  by_cases unused : (registry.usedIn script.toList).isEmpty = true
  · have none : registry.missingNames script.toList = [] := by
      rw [missingNames, List.isEmpty_iff.mp unused]
      rfl
    rw [if_pos none]
    exact if_pos unused
  refine (if_neg unused).trans ?_
  rw [← missingNames]
  by_cases none : registry.missingNames script.toList = []
  · rw [if_pos none, none]
    rfl
  · rw [if_neg none]
    exact if_neg fun empty => text_missingNames_ne_nil none (List.isEmpty_iff.mp empty)

theorem injected_inject (registry : Registry) (script : String) :
    (registry.inject script).injected = registry.missingNames script.toList := by
  rw [inject_eq]
  split
  next none => exact none.symm
  next => rfl

/-- The text of an injection: the block of its names in front of the script, if it has any. -/
theorem code_inject (registry : Registry) (script : String) :
    (registry.inject script).code =
      if (registry.inject script).injected = [] then script
      else String.ofList (ImportBlock.text registry (registry.inject script).injected) ++ "\n" ++
        script := by
  rw [injected_inject, inject_eq]
  split <;> rfl

theorem text_injected_eq_nil_iff (registry : Registry) (script : String) :
    ImportBlock.text registry (registry.inject script).injected = [] ↔
      (registry.inject script).injected = [] := by
  rw [injected_inject]
  constructor
  · intro empty
    by_contra nonempty
    exact text_missingNames_ne_nil nonempty empty
  · intro none
    rw [none]
    rfl

theorem isModified_inject_iff (registry : Registry) (script : String) :
    (registry.inject script).isModified = true ↔ (registry.inject script).code ≠ script := by
  rw [code_inject, Injection.isModified]
  split
  next none => simp [none]
  next some => simp [some]

/-- Whatever is injected, the script ends the text. -/
theorem suffix_code_inject (registry : Registry) (script : String) :
    script.toList <:+ (registry.inject script).code.toList := by
  rw [code_inject]
  split
  · exact List.suffix_rfl
  · rw [String.toList_append]
    exact List.suffix_append _ _

/-- **Exactness of injection.** The injected names are the used names that either pass keeps, in
the order of use; the text is the script, or else their block, which is not empty, a line end and
the script. So an injection counts as modified just when the text is another, and the script always
ends it. -/
theorem inject_supplies_unbound_uses (entries : List Entry) (script : String) :
    let registry := Registry.ofEntries entries
    let injection := registry.inject script
    let block := ImportBlock.text registry injection.injected
    injection.injected =
        (usedNames registry.contains (Literal.mask script.toList)).filter (fun name =>
          name ∈ withoutImported script.toList [name] ∧
            name ∈ withoutDeclared script.toList [name]) ∧
      injection.code =
        (if injection.injected = [] then script else String.ofList block ++ "\n" ++ script) ∧
      (block = [] ↔ injection.injected = []) ∧
      (injection.isModified = true ↔ injection.code ≠ script) ∧
      script.toList <:+ injection.code.toList := by
  intro registry injection block
  refine ⟨?_, code_inject registry script, text_injected_eq_nil_iff registry script,
    isModified_inject_iff registry script, suffix_code_inject registry script⟩
  rw [← missingNames_eq_filter]
  exact injected_inject registry script

end Registry

end ImportSupply
