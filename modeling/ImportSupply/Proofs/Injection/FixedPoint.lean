import ImportSupply.Proofs.ImportBlock.Vocabulary
import ImportSupply.Proofs.Injection.Rounds

/-!
# When one round is enough

Injected lines have words of their own, and a later round may take one of these for a use: a
keyword, or the name under which a module provides an entry. Where neither is a registered name,
the lines use only what they bind, and the first round leaves nothing to inject.
-/

namespace ImportSupply

open Binding ImportBlock

namespace Registry

variable {registry : Registry} {script : String} {lines : List Line}

theorem Supplies.mem_words_or_usedNames (supplies : registry.Supplies script lines) {name : String}
    (used : name ∈
      usedNames registry.contains (Literal.mask (registry.inject script).code.toList)) :
    (∃ line ∈ lines, name ∈ line.words) ∨
      name ∈ usedNames registry.contains (Literal.mask script.toList) := by
  obtain ⟨registered, word, member, free, named⟩ := mem_usedNames.mp used
  rw [supplies.code, mask_written_append supplies.importable,
    ofText_shownLines_append supplies.importable, List.mem_append] at member
  rcases member with inLines | inScript
  · obtain ⟨name', word', rfl⟩ := List.mem_map.mp inLines
    rw [Word.name_bare] at named
    rw [← named]
    exact .inl (List.mem_flatMap.mp word')
  · exact .inr (mem_usedNames.mpr ⟨registered, word, inScript, free, named⟩)

/-- A name that the script uses is bound behind the round: if the script does not bind it, the round
injects it. -/
theorem Supplies.binds_of_mem_usedNames (supplies : registry.Supplies script lines) {name : String}
    (used : name ∈ usedNames registry.contains (Literal.mask script.toList)) :
    Binds (registry.inject script).code.toList name := by
  by_cases binds : Binds script.toList name
  · exact supplies.binds_of_binds binds
  · refine supplies.binds_of_mem_injected ?_
    rw [injected_inject]
    exact mem_missingNames.mpr ⟨used, not_or.mp binds⟩

/-- **One round settles a script.** In a registry whose entries are importable, where no local name
is a keyword of import lines, and no aliased entry is provided under a registered name, injecting
into an injected text leaves it as it is. -/
theorem inject_code_inject (registry : Registry)
    (importable : ∀ entry ∈ registry.entries, entry.Importable)
    (noKeyword : ∀ entry ∈ registry.entries, entry.localName ∉ lineKeywords)
    (unregistered : ∀ entry ∈ registry.entries, entry.isAliased = true →
      registry.contains entry.name = false)
    (script : String) :
    registry.inject (registry.inject script).code = .unchanged (registry.inject script).code := by
  obtain ⟨lines, supplies⟩ := exists_supplies importable script
  refine inject_eq_unchanged (List.eq_nil_iff_forall_not_mem.mpr fun name injected => ?_)
  refine not_binds_of_mem_injected injected ?_
  rw [injected_inject] at injected
  have registered := contains_of_mem_missingNames injected
  -- a second injection would be of a word of the lines, or of a name that the script uses
  rcases supplies.mem_words_or_usedNames (mem_missingNames.mp injected).1 with
    ⟨line, own, word⟩ | inScript
  · rcases line.of_mem_words word with keyword | ⟨entry, listed, rfl | ⟨aliased, rfl⟩⟩
    · obtain ⟨entry, found⟩ := get?_of_contains registered
      rw [← localName_of_get? found] at keyword
      exact absurd keyword (noKeyword entry (mem_of_get? found))
    · exact supplies.binds_localName own listed
    · rw [unregistered entry (supplies.registered line own entry listed) aliased] at registered
      cases registered
  · exact supplies.binds_of_mem_usedNames inScript

/-- A value, a type, and an entry under another name of a module with a quote in its specifier. -/
theorem inject_code_inject_three_lines :
    let registry := Registry.ofEntries
      [.value "ref" "vue", .type "Ref" "vue", ⟨"useFetch", some "load", "./it's", false⟩]
    let script := "const n: Ref = ref('load')\nload(n)"
    (∀ entry ∈ registry.entries, entry.Importable) ∧
      (∀ entry ∈ registry.entries, entry.localName ∉ lineKeywords) ∧
      (∀ entry ∈ registry.entries, entry.isAliased = true →
        registry.contains entry.name = false) ∧
      (registry.inject script).injected = ["Ref", "ref", "load"] ∧
      registry.inject (registry.inject script).code =
        .unchanged (registry.inject script).code := by
  intro registry script
  have importable : ∀ entry ∈ registry.entries, entry.Importable := by decide
  have noKeyword : ∀ entry ∈ registry.entries, entry.localName ∉ lineKeywords := by decide
  have unregistered : ∀ entry ∈ registry.entries, entry.isAliased = true →
      registry.contains entry.name = false := by decide
  exact ⟨importable, noKeyword, unregistered, by decide +kernel,
    inject_code_inject registry importable noKeyword unregistered script⟩

end Registry

end ImportSupply
