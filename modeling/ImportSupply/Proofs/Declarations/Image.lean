import ImportSupply.Proofs.Declarations.Names
import ImportSupply.Proofs.Registry.Lookup

/-!
# Declaration files are images of their registries

A declaration file has a fixed frame and in it one line for each registered entry, in increasing
order of the local names (`text_eq_fileLines`). A registry has each local name once, so its entries
have one increasing order only: registries with the same entries have the same file, whatever the
order of registration (`text_eq_of_perm`).
-/

namespace ImportSupply.Declarations

/-! ## The lines of a file -/

/-- The declaration of one entry, without its line end: a type is the type that its module provides,
and a value has the type of the value that its module provides. -/
def declaration (entry : Entry) : List Char :=
  let provided := "import(".toList ++ ImportBlock.quoteSource entry.source ++ ")['".toList ++
    entry.name.toList ++ "']".toList
  if entry.isType then "  type ".toList ++ entry.localName.toList ++ " = ".toList ++ provided
  else "  const ".toList ++ entry.localName.toList ++ ": typeof ".toList ++ provided

theorem line_eq_declaration (entry : Entry) : line entry = declaration entry ++ ['\n'] := by
  unfold line declaration
  cases entry.isType <;> simp

/-- The lines of a file that declares some entries; the last one is empty, as the text before it
ends with a line feed. -/
def fileLines (entries : List Entry) : List (List Char) :=
  [banner.toList, "export \x7b\x7d".toList, [], "declare global \x7b".toList] ++
    entries.map declaration ++ ["\x7d".toList, []]

/-- With an empty last line, joined lines are lines with their line ends. -/
theorem intercalate_concat_nil (lines : List (List Char)) :
    ['\n'].intercalate (lines ++ [[]]) = lines.flatMap fun line => line ++ ['\n'] := by
  induction lines with
  | nil => rfl
  | cons line lines ih =>
    have more : lines ++ [[]] ≠ [] := by simp
    obtain ⟨next, rest, cons⟩ := List.exists_cons_of_ne_nil more
    rw [List.cons_append, cons, List.intercalate_cons_cons, ← cons, ih, List.flatMap_cons]

theorem text_eq_fileLines (registry : Registry) :
    text registry = ['\n'].intercalate (fileLines (sorted registry.entries)) := by
  have lines : (sorted registry.entries).flatMap line =
      ((sorted registry.entries).map declaration).flatMap fun line => line ++ ['\n'] := by
    rw [List.flatMap_map]
    exact List.flatMap_congr fun entry _ => line_eq_declaration entry
  unfold fileLines text
  rw [List.append_cons, intercalate_concat_nil, lines, List.flatMap_append, List.flatMap_append]
  simp

/-- Without line feeds in its parts, a declaration is one line. -/
theorem lineFeed_not_mem_declaration {entry : Entry} (localName : '\n' ∉ entry.localName.toList)
    (source : '\n' ∉ entry.source.toList) (name : '\n' ∉ entry.name.toList) :
    '\n' ∉ declaration entry := by
  have quoted : '\n' ∉ ImportBlock.quoteSource entry.source := by
    intro member
    rcases ImportBlock.mem_quoteSource member with added | own
    · revert added; decide
    · exact source own
  unfold declaration
  cases entry.isType <;> simp [localName, quoted, name]

/-- A file whose declarations are one line each is split into its lines. -/
theorem splitOn_intercalate_fileLines {entries : List Entry}
    (oneLine : ∀ entry ∈ entries, '\n' ∉ declaration entry) :
    (['\n'].intercalate (fileLines entries)).splitOn '\n' = fileLines entries := by
  refine List.splitOn_intercalate '\n' ?_ (by simp [fileLines])
  intro text written
  unfold fileLines at written
  rw [List.mem_append, List.mem_append] at written
  rcases written with (written | written) | written
  · revert written text
    decide
  · obtain ⟨entry, member, rfl⟩ := List.mem_map.mp written
    exact oneLine entry member
  · revert written text
    decide

/-! ## The order of registration -/

/-- A registry's entries have only one increasing order. -/
theorem sorted_eq_of_perm {registry other : Registry}
    (perm : registry.entries.Perm other.entries) :
    sorted registry.entries = sorted other.entries := by
  have same : (sorted registry.entries).Perm (sorted other.entries) :=
    ((List.mergeSort_perm _ _).trans perm).trans (List.mergeSort_perm _ _).symm
  refine same.eq_of_pairwise ?_ (pairwise_sorted registry) (pairwise_sorted other)
  intro a b _ _ before after
  exact absurd (lt_trans before after) (lt_irrefl _)

theorem text_eq_of_perm {registry other : Registry}
    (perm : registry.entries.Perm other.entries) : text registry = text other := by
  rw [text, text, sorted_eq_of_perm perm]

/-- **A declaration file is a sorted image of its registry, independent of the order of
registration.** Between the braces of its global block stand the declarations of the registered
entries, those that are the first of their local names: one for each, in strictly increasing order
of the local names. Without line feeds in the entries these are the file's lines. Entries with
distinct local names give the same file in any order. -/
theorem text_ofEntries (entries : List Entry) :
    (∃ listed : List Entry,
      text (.ofEntries entries) = ['\n'].intercalate (fileLines listed) ∧
      listed.Pairwise (fun a b => a.localName < b.localName) ∧
      listed.Perm (Registry.ofEntries entries).entries ∧
      (∀ entry, entry ∈ listed ↔
        (entries.find? fun other => other.localName == entry.localName) = some entry) ∧
      ((∀ entry ∈ entries, '\n' ∉ entry.localName.toList ∧ '\n' ∉ entry.source.toList ∧
          '\n' ∉ entry.name.toList) →
        (text (.ofEntries entries)).splitOn '\n' = fileLines listed)) ∧
    ∀ other, entries.Perm other → (entries.map Entry.localName).Nodup →
      text (.ofEntries other) = text (.ofEntries entries) := by
  refine ⟨⟨sorted (Registry.ofEntries entries).entries, text_eq_fileLines _, pairwise_sorted _,
    List.mergeSort_perm _ _, fun entry => mem_sorted.trans Registry.mem_ofEntries_iff, ?_⟩, ?_⟩
  · intro oneLine
    rw [text_eq_fileLines]
    refine splitOn_intercalate_fileLines fun entry listed => ?_
    obtain ⟨localName, source, name⟩ :=
      oneLine entry (Registry.mem_of_mem_ofEntries (mem_sorted.mp listed))
    exact lineFeed_not_mem_declaration localName source name
  · intro other perm distinct
    -- with distinct local names registering keeps every entry, so only the order differs
    have distinct' : (other.map Entry.localName).Nodup := (perm.map _).nodup_iff.mp distinct
    refine text_eq_of_perm ?_
    show (firstOfEach other).Perm (firstOfEach entries)
    rw [Registry.firstOfEach_eq_self distinct, Registry.firstOfEach_eq_self distinct']
    exact perm.symm

/-- A value under another name, a type and a value whose module has a quote in its specifier, and
the same entries from last to first. -/
theorem text_ofEntries_reverse :
    let entries : List Entry :=
      [⟨"ref", some "vueRef", "vue", false⟩, .type "Ref" "vue", .value "z" "it's"]
    (∃ listed : List Entry,
      (text (.ofEntries entries)).splitOn '\n' = fileLines listed ∧
      listed.Pairwise (fun a b => a.localName < b.localName) ∧ listed.Perm entries) ∧
    text (.ofEntries entries.reverse) = text (.ofEntries entries) := by
  intro entries
  obtain ⟨⟨listed, -, increasing, perm, -, split⟩, independent⟩ := text_ofEntries entries
  refine ⟨⟨listed, split (by decide), increasing, perm⟩, ?_⟩
  exact independent entries.reverse (List.reverse_perm entries).symm (by decide)

end ImportSupply.Declarations
