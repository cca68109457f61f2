import ImportSupply.Proofs.ImportBlock.Frame

/-!
# Import blocks bind what they import

Read as a script, the import block of some used names imports those of them that are registered, and
nothing else. The lines of the block are read back one by one; the last has no line end behind it,
which the pattern of an import statement does not look for. A re-export starts in no line.
-/

namespace ImportSupply.ImportBlock

open Binding Pattern

/-! ## The last line -/

/-- A block is its lines with their line ends, up to the last line. -/
theorem intercalate_concat (front : List Line) (last : Line) :
    ['\n'].intercalate ((front ++ [last]).map Line.text) = written front ++ last.text := by
  have whole : ['\n'].intercalate ((front ++ [last]).map Line.text) ++ ['\n'] =
      (written front ++ last.text) ++ ['\n'] := by
    rw [intercalate_append_lineEnd (by simp)]
    simp [written]
  exact List.append_cancel_right whole

/-- What a line shows behind the opening quote of its module. -/
def Line.specifierEnd (line : Line) : List Char :=
  (line.source.toList.flatMap escapeChar).map Literal.blank ++ ['\'']

theorem Line.shown_eq (line : Line) : line.shown = line.opening ++ '\'' :: line.specifierEnd := by
  simp [shown, maskedSource, specifierEnd]

theorem Line.skips_specifierEnd (line : Line) {pattern : Pattern Char}
    (needs : pattern.nullable = false)
    (wrong : ∀ c ∈ [' ', '\r', '\'', '\n'], pattern.starts c = false) :
    pattern.Skips line.specifierEnd := by
  have behind : line.behind = line.specifierEnd ++ ['\n'] := by
    simp [Line.behind, specifierEnd]
  refine skips_of_starts needs fun c member => wrong c ?_
  have inside : c ∈ line.behind := behind ▸ List.mem_append_left _ member
  exact Line.mem_of_mem_behind inside

theorem Line.Importable.flatMap_ofImport_shown {line : Line} (importable : line.Importable) :
    (importStatement.allMatches line.shown).flatMap ofImport =
      line.entries.map Entry.localName := by
  have skips : importStatement.Skips line.specifierEnd :=
    line.skips_specifierEnd (by decide) (by decide)
  have none := skips.matchesFrom_append (some '\'') (0 + (line.opening.length + 1)) []
  rw [List.append_nil, matchesFrom] at none
  rw [allMatches, line.shown_eq, importable.matchesFrom_opening rfl, none, List.flatMap_singleton,
    importable.ofImport_found]

/-! ## The block -/

theorem skips_reexportStatement_shownLines {lines : List Line}
    (importable : ∀ line ∈ lines, line.Importable) :
    reexportStatement.Skips (shownLines lines) := by
  induction lines with
  | nil => trivial
  | cons line lines ih =>
    have own := (importable line List.mem_cons_self).skips_reexportStatement
    have behind : reexportStatement.Skips line.behind := line.skips_behind (by decide) (by decide)
    have tail := ih fun line' member => importable line' (List.mem_cons_of_mem line member)
    rw [shownLines_cons, line.shown_append]
    simpa using own.append (behind.append tail)

/-- A block imports the local names of its lines, in their order. -/
theorem imported_intercalate {lines : List Line} (importable : ∀ line ∈ lines, line.Importable) :
    imported (['\n'].intercalate (lines.map Line.text)) =
      lines.flatMap fun line => line.entries.map Entry.localName := by
  rcases lines.eq_nil_or_concat with rfl | ⟨front, last, rfl⟩
  · rw [List.map_nil, List.intercalate_nil, imported, Literal.mask_nil]
    rfl
  rw [List.concat_eq_append] at importable ⊢
  have before : ∀ line ∈ front, line.Importable := fun line member =>
    importable line (List.mem_append_left _ member)
  have final : last.Importable := importable last (by simp)
  have masked : Literal.mask (written front ++ last.text) = shownLines front ++ last.shown := by
    have own := final.mask_text_append []
    rw [List.append_nil] at own
    rw [mask_written_append before, own]
    simp [Literal.mask_nil]
  have reexports : reexportStatement.Skips (shownLines front ++ last.shown) := by
    rw [last.shown_eq]
    have own := final.skips_reexportStatement.append
      (last.skips_specifierEnd (by decide) (by decide))
    simpa using (skips_reexportStatement_shownLines before).append own
  rw [intercalate_concat, imported, masked, importedIn, flatMap_ofImport_shownLines before,
    final.flatMap_ofImport_shown, reexports.allMatches_eq_nil]
  simp

theorem mem_plan_localNames {registry : Registry} {used : List String} {name : String} :
    name ∈ (plan (used.filterMap registry.get?)).flatMap
        (fun line => line.entries.map Entry.localName) ↔
      name ∈ used ∧ registry.contains name = true := by
  constructor
  · intro member
    obtain ⟨line, planned, named⟩ := List.mem_flatMap.mp member
    obtain ⟨entry, own, rfl⟩ := List.mem_map.mp named
    obtain ⟨name, isUsed, found⟩ :=
      List.mem_filterMap.mp ((holds_of_mem_plan planned).subset entry own)
    rw [Registry.localName_of_get? found]
    exact ⟨isUsed, by rw [Registry.contains, found, Option.isSome_some]⟩
  · rintro ⟨isUsed, registered⟩
    obtain ⟨entry, found⟩ := Registry.get?_of_contains registered
    obtain ⟨line, planned, own⟩ :=
      exists_line_of_mem (List.mem_filterMap.mpr ⟨name, isUsed, found⟩)
    refine List.mem_flatMap.mpr ⟨line, planned, List.mem_map.mpr ⟨entry, own, ?_⟩⟩
    exact Registry.localName_of_get? found

/-- **Reading a block back.** Of any candidates, the import block of some used names leaves all but
the used names that are registered, in their order. -/
theorem withoutImported_text (registry : Registry)
    (importable : ∀ entry ∈ registry.entries, entry.Importable) (used candidates : List String) :
    withoutImported (text registry used) candidates =
      candidates.filter fun name => !(used.contains name && registry.contains name) := by
  have planned : ∀ line ∈ plan (used.filterMap registry.get?), line.Importable := by
    intro line member
    refine importable_of_mem_plan (fun entry looked => ?_) member
    obtain ⟨name, -, found⟩ := List.mem_filterMap.mp looked
    exact importable entry (Registry.mem_of_get? found)
  rw [withoutImported_eq_filter, text, lines_eq_plan, imported_intercalate planned]
  refine List.filter_congr fun name _ => congrArg (! ·) ?_
  rw [Bool.eq_iff_iff, List.contains_iff_mem, mem_plan_localNames, Bool.and_eq_true,
    List.contains_iff_mem]

/-- Names that are words of an import line, and modules with a quote and a backslash. -/
theorem withoutImported_text_keywords :
    let registry := Registry.ofEntries
      [.value "from" "it's", .type "type" "it's", ⟨"watch", some "as", "a\\b", false⟩]
    let used := ["as", "from", "other", "type"]
    (∀ entry ∈ registry.entries, entry.Importable) ∧
      text registry used = ("import \x7b watch as as \x7d from 'a\\\\b'\n" ++
        "import \x7b from \x7d from 'it\\'s'\nimport type \x7b type \x7d from 'it\\'s'").toList ∧
      withoutImported (text registry used) ["type", "watch", "other", "as"] =
        ["watch", "other"] := by
  intro registry used
  have importable : ∀ entry ∈ registry.entries, entry.Importable := by decide
  refine ⟨importable, by decide, ?_⟩
  rw [withoutImported_text registry importable]
  decide

end ImportSupply.ImportBlock
