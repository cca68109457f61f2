import ImportSupply.Binding.Declared
import ImportSupply.ImportBlock
import ImportSupply.Use

/-!
# Injection

The names that a script uses, and neither imports nor declares, are supplied by an import block in
front of it.
-/

namespace ImportSupply

/-- A script with what was supplied to it: its text, and the names in the order of use. -/
structure Injection where
  code : String
  injected : List String
  deriving DecidableEq, Repr

namespace Injection

/-- A script left as it is. -/
def unchanged (script : String) : Injection :=
  ⟨script, []⟩

/-- Whether anything was supplied. -/
def isModified (injection : Injection) : Bool :=
  !injection.injected.isEmpty

end Injection

/-- Of some names, those that a script does not bind itself, in their order. -/
def Binding.unbound (script : List Char) (names : List String) : List String :=
  withoutDeclared script (withoutImported script names)

/-- The registered names that a script uses, in the order of use. -/
def Registry.usedIn (registry : Registry) (script : List Char) : List String :=
  usedNames registry.contains (Literal.mask script)

/-- A script with the imports it lacks in front. -/
def Registry.inject (registry : Registry) (script : String) : Injection :=
  if Text.isBlankText script.toList || registry.isEmpty then .unchanged script
  else
    let used := registry.usedIn script.toList
    if used.isEmpty then .unchanged script
    else
      let missing := Binding.unbound script.toList used
      let block := ImportBlock.text registry missing
      if block.isEmpty then .unchanged script
      else ⟨String.ofList block ++ "\n" ++ script, missing⟩

end ImportSupply
