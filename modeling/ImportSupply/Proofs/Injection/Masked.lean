import ImportSupply.Proofs.Injection.Specification
import ImportSupply.Proofs.Literal.Remasking

/-!
# What literals hold does not matter

Injection masks a script three times: for its uses, for its imports and for its declarations. So it
sees no more of a script than its masked form, and scripts with one masked form are supplied alike.
The masked form of a script is one of them: masked again, it stays what it is.
-/

namespace ImportSupply.Registry

open Binding

variable {registry : Registry}

/-- What stands in front of a script that lacks some names: their block on lines of its own, if
there are any. -/
def front (registry : Registry) (missing : List String) : String :=
  if missing = [] then "" else String.ofList (ImportBlock.text registry missing) ++ "\n"

/-- Two scripts get the same names, and the same block in front. -/
structure SuppliesAlike (registry : Registry) (script other : String) : Prop where
  injected : (registry.inject script).injected = (registry.inject other).injected
  code : (registry.inject script).code =
    registry.front (registry.inject script).injected ++ script
  code_other : (registry.inject other).code =
    registry.front (registry.inject script).injected ++ other

theorem code_inject_eq_front (registry : Registry) (script : String) :
    (registry.inject script).code =
      registry.front (registry.inject script).injected ++ script := by
  rw [code_inject, front]
  split
  · exact String.empty_append.symm
  · rfl

/-- The names that a script lacks are told by its masked form. -/
theorem missingNames_congr (registry : Registry) {script other : List Char}
    (alike : Literal.mask script = Literal.mask other) :
    registry.missingNames script = registry.missingNames other := by
  simp only [missingNames, unbound, usedIn, withoutDeclared_eq_filter, withoutImported_eq_filter,
    declared, imported, alike]

theorem suppliesAlike_of_mask_eq {script other : String}
    (alike : Literal.mask script.toList = Literal.mask other.toList) :
    registry.SuppliesAlike script other := by
  have same : (registry.inject script).injected = (registry.inject other).injected := by
    rw [injected_inject, injected_inject, missingNames_congr registry alike]
  refine ⟨same, code_inject_eq_front registry script, ?_⟩
  rw [same]
  exact code_inject_eq_front registry other

/-- **Literals do not matter.** A script and its masked form are supplied alike, and so are any two
scripts with one masked form. -/
theorem inject_ignores_literals (registry : Registry) :
    (∀ script : String,
      registry.SuppliesAlike script (String.ofList (Literal.mask script.toList))) ∧
      ∀ script other : String, Literal.mask script.toList = Literal.mask other.toList →
        registry.SuppliesAlike script other := by
  refine ⟨fun script => suppliesAlike_of_mask_eq ?_, fun _ _ => suppliesAlike_of_mask_eq⟩
  rw [String.toList_ofList, Literal.mask_eq_shown, Literal.mask_eq_shown]
  exact (Literal.Scanner.shown_shadow (Literal.Coherent.start script.toList)).symm

/-- The names stand in a comment, in static template text, and in a string that its line ends. -/
theorem inject_ignores_literals_unclosed :
    let registry := Registry.ofEntries
      [.value "ref" "vue", .value "load" "./api", .type "Ref" "vue"]
    let script := "// ref, load\n`load $\x7bref(`Ref`)\x7d`\nf('load"
    let other := "//   to do  \n`%%%% $\x7bref(`!!!`)\x7d`\nf('ref "
    Literal.mask script.toList = Literal.mask other.toList ∧
      (registry.inject script).injected = ["ref"] ∧ registry.SuppliesAlike script other := by
  intro registry script other
  have alike : Literal.mask script.toList = Literal.mask other.toList := by decide +kernel
  exact ⟨alike, by decide +kernel, (inject_ignores_literals registry).2 script other alike⟩

end ImportSupply.Registry
