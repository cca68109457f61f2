import ImportSupply.Proofs.Binding.ReexportSearch
import ImportSupply.Proofs.Binding.Withdrawn

/-!
# Names that are recognised as bound

Whatever a script imports or declares is a name that a statement can bind
(`isBindable_of_mem_imported`, `isBindable_of_mem_declared`). So an import of a name and a
declaration of it withdraw the name exactly if it is such a one. Words that are used may be others:
they may start with a letter of any script.
-/

namespace ImportSupply.Binding

open Literal Pattern

/-! ## What imports say -/

theorem isBindable_of_mem_ofList {list : List Char} {name : String} (said : name ∈ ofList list) :
    Name.isBindable name.toList = true := by
  obtain ⟨specifier, -, said⟩ := List.mem_filterMap.mp said
  obtain ⟨bindable, same⟩ := isBindable_of_bindable? said
  rwa [same]

theorem isBindable_of_namespaceOfClause {clause : List Char} {name : String}
    (said : namespaceOfClause clause = some name) : Name.isBindable name.toList = true := by
  obtain ⟨found, first, said⟩ := Option.bind_eq_some_iff.mp said
  obtain ⟨front, piece, rest, captures, rfl, spells, rfl⟩ :=
    exists_spells_of_mem_allMatches (List.mem_of_head? first)
  obtain ⟨_, bound, _, _, star, ⟨_, named, rfl⟩, rfl, rfl⟩ := spells
  obtain ⟨-, -, -, -, -, -, rfl⟩ := spells_starAs.mp star
  obtain ⟨bindable, -, rfl⟩ := spells_name.mp named
  obtain rfl : name = String.ofList bound := by
    simpa [Match.piece?, Capture.piece] using said.symm
  rwa [String.toList_ofList]

theorem isBindable_of_mem_ofClause {clause : List Char} {name : String}
    (said : name ∈ ofClause clause) : Name.isBindable name.toList = true := by
  simp only [ofClause, List.mem_append, Option.mem_toList] at said
  rcases said with (said | said) | said
  · rw [bracedOfClause] at said
    split at said
    · cases said
    · split at said
      · cases said
      · exact isBindable_of_mem_ofList said
  · exact isBindable_of_namespaceOfClause said
  · obtain ⟨bindable, same⟩ := isBindable_of_bindable? said
    rwa [same]

/-- Whatever a script imports or re-exports is a name that a statement can bind. -/
theorem isBindable_of_mem_imported {script : List Char} {name : String}
    (said : name ∈ imported script) : Name.isBindable name.toList = true := by
  rcases List.mem_append.mp said with said | said
  · obtain ⟨found, -, said⟩ := List.mem_flatMap.mp said
    rw [ofImport] at said
    split at said
    · exact isBindable_of_mem_ofClause said
    · cases said
  · obtain ⟨found, member, said⟩ := List.mem_flatMap.mp said
    obtain ⟨front, piece, rest, captures, -, spells, rfl⟩ := exists_spells_of_mem_allMatches member
    obtain ⟨typed, body, -, -, -, spells⟩ := spells_reexportStatement.mp spells
    obtain ⟨lead, opening, inner, behind, number, trail, pad, mark, -, -, targetAt, -, -, -, rfl⟩ :=
      spells_reexportBody.mp spells
    cases targetAt with
    | list =>
      rw [ofReexport_list] at said
      exact isBindable_of_mem_ofList said
    | star blank spaced bindable =>
      rw [ofReexport_star, List.mem_singleton] at said
      rwa [said, String.toList_ofList]

/-- Whatever a script declares is a name that a statement can bind. -/
theorem isBindable_of_mem_declared {script : List Char} {name : String}
    (said : name ∈ declared script) : Name.isBindable name.toList = true :=
  (declares_of_mem_declaredIn said).isBindable

/-! ## One import and one declaration -/

/-- An import of one name. -/
def importOf (named : List Char) : List Char :=
  "import \x7b ".toList ++ (named ++ " \x7d from 'm'".toList)

/-- A declaration of one name. -/
def constantOf (named : List Char) : List Char :=
  "const ".toList ++ (named ++ " = 1".toList)

namespace Bindable

variable (bound : Bindable)

/-- An import of one name, in its parts. -/
def importLine : StatementLine :=
  let space : Layout := [.blank ' ' (by decide)]
  let specifier : Specifier :=
    ⟨space, none, bound, none, space, fun _ renamed => absurd rfl renamed⟩
  ⟨.imports none (.bare space (.list [.named specifier] space)) space
    ⟨.single, [.char 'm'], by decide⟩, []⟩

theorem textOf_importLine : textOf (scriptOf [] [bound.importLine]) = importOf bound.text :=
  rfl

theorem name_mem_imported : bound.name ∈ imported (importOf bound.text) := by
  rw [← bound.textOf_importLine, imported_script]
  exact List.mem_cons_self

theorem heads_constantOf : Kind.binding.Heads bound.text (constantOf bound.text) :=
  ⟨"const", by decide, [' '], [], " = 1".toList, ⟨by simp, by decide⟩, bound.bindable, rfl, rfl,
    rfl⟩

theorem name_mem_declared : bound.name ∈ declared (constantOf bound.text) := by
  have inert : ∀ c ∈ constantOf bound.text, isInert c = true := by
    intro c member
    rcases List.mem_append.mp member with member | member
    · exact (by decide : ∀ c ∈ "const ".toList, isInert c = true) c member
    rcases List.mem_append.mp member with member | member
    · exact isInert_of_accept (by decide) (bound.isTail_of_mem member)
    · exact (by decide : ∀ c ∈ " = 1".toList, isInert c = true) c member
  have shown : mask (constantOf bound.text) = constantOf bound.text := by
    simpa [mask_nil] using mask_inert_append inert []
  rw [declared, shown]
  exact Kind.mem_declaredIn_of_mem_namesOf
    (@Kind.Heads.mem_namesOf _ _ [] _ bound.heads_constantOf rfl rfl)

end Bindable

/-- An import of a name and a declaration of it withdraw the name exactly if it is one that a
statement can bind. -/
theorem own_binding_keeps_iff (name : String) (candidates : List String) :
    (name ∈ withoutImported (importOf name.toList) candidates ↔
      name ∈ candidates ∧ Name.isBindable name.toList = false) ∧
    (name ∈ withoutDeclared (constantOf name.toList) candidates ↔
      name ∈ candidates ∧ Name.isBindable name.toList = false) := by
  have named (bindable : Name.isBindable name.toList = true) :
      Bindable.name ⟨name.toList, bindable⟩ = name :=
    String.ofList_toList
  have imports : name ∈ imported (importOf name.toList) ↔ Name.isBindable name.toList = true := by
    refine ⟨isBindable_of_mem_imported, fun bindable => ?_⟩
    have found := Bindable.name_mem_imported ⟨name.toList, bindable⟩
    rwa [named] at found
  have declares : name ∈ declared (constantOf name.toList) ↔
      Name.isBindable name.toList = true := by
    refine ⟨isBindable_of_mem_declared, fun bindable => ?_⟩
    have found := Bindable.name_mem_declared ⟨name.toList, bindable⟩
    rwa [named] at found
  rw [mem_withoutImported, mem_withoutDeclared, imports, declares, Bool.not_eq_true]
  exact ⟨Iff.rfl, Iff.rfl⟩

/-- A name in use that neither an import nor a declaration of it withdraws. -/
theorem own_binding_keeps_foreign :
    "é" ∈ usedNames (fun _ => true) "é".toList ∧
      withoutImported (importOf "é".toList) ["é"] = ["é"] ∧
      withoutDeclared (constantOf "é".toList) ["é"] = ["é"] := by
  decide +kernel

end ImportSupply.Binding
