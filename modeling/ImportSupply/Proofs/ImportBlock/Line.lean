import ImportSupply.ImportBlock
import ImportSupply.Proofs.Registry.Lookup
import ImportSupply.Proofs.Use.Words
import Mathlib.Data.List.Induction

/-!
# The lines of an import block

An import block as data: each line is the values or the types of one module (`Line`), and the plan
of a block says which lines it has (`plan`). Entries that are filed one after another, each with its
module, make the groups of their plan (`foldl_file_eq`), so the block's text is the text of its plan
(`lines_eq_plan`). A line is planned exactly if it has entries, and these are all of its module and
kind (`mem_plan_iff`), so no entry is lost (`exists_line_of_mem`), and no line is empty or holds an
entry of another module or kind (`Line.Holds`).
-/

namespace ImportSupply.ImportBlock

/-- One line of an import block: some values, or some types, of one module. -/
structure Line where
  isType : Bool
  source : String
  entries : List Entry
  deriving DecidableEq, Repr

namespace Line

/-- The words a line starts with. -/
def keywords (line : Line) : String :=
  if line.isType then "import type" else "import"

/-- A line as it is written. -/
def text (line : Line) : List Char :=
  statement line.keywords line.source line.entries

/-- What a line of a plan for some entries holds: at least one of them, and only such as are of
its module and of its kind. -/
structure Holds (entries : List Entry) (line : Line) : Prop where
  nonempty : line.entries ≠ []
  subset : ∀ entry ∈ line.entries, entry ∈ entries
  source : ∀ entry ∈ line.entries, entry.source = line.source
  kind : ∀ entry ∈ line.entries, entry.isType = line.isType

end Line

/-- The entries of one module and kind. -/
def select (entries : List Entry) (source : String) (isType : Bool) : List Entry :=
  entries.filter fun entry => entry.source == source && entry.isType == isType

theorem mem_select {entries : List Entry} {source : String} {isType : Bool} {entry : Entry} :
    entry ∈ select entries source isType ↔
      entry ∈ entries ∧ entry.source = source ∧ entry.isType = isType := by
  simp [select]

/-- The line for the entries of one module and kind, or no line for no entries. -/
def line? (entries : List Entry) (source : String) (isType : Bool) : List Line :=
  if (select entries source isType).isEmpty then []
  else [⟨isType, source, select entries source isType⟩]

/-- The lines for some entries: the modules in the order of their first entry, for each of them its
values and then its types. -/
def plan (entries : List Entry) : List Line :=
  (entries.map Entry.source).eraseDups.flatMap fun source =>
    line? entries source false ++ line? entries source true

/-! ## Filing -/

/-- What a block imports from a module, for some entries. -/
def groupOf (entries : List Entry) (source : String) : Group :=
  ⟨source, select entries source false, select entries source true⟩

theorem source_groupOf (entries : List Entry) (source : String) :
    (groupOf entries source).source = source :=
  rfl

theorem map_text_line? (entries : List Entry) (source : String) (isType : Bool) :
    (line? entries source isType).map Line.text =
      statement? (if isType then "import type" else "import") source
        (select entries source isType) := by
  rw [line?, statement?]
  split
  · rfl
  · rfl

theorem statements_groupOf (entries : List Entry) (source : String) :
    (groupOf entries source).statements =
      (line? entries source false ++ line? entries source true).map Line.text := by
  rw [List.map_append, map_text_line?, map_text_line?]
  rfl

theorem groupOf_concat (entries : List Entry) (entry : Entry) :
    groupOf (entries ++ [entry]) entry.source = (groupOf entries entry.source).add entry := by
  cases kind : entry.isType <;> simp [groupOf, Group.add, select, kind]

theorem groupOf_concat_of_ne (entries : List Entry) {entry : Entry} {source : String}
    (other : source ≠ entry.source) :
    groupOf (entries ++ [entry]) source = groupOf entries source := by
  simp [groupOf, select, Ne.symm other]

/-- An entry goes into the group of its module, and a module without a group gets one behind the
others. -/
theorem file_map_groupOf {entries : List Entry} {entry : Entry} {sources : List String}
    (distinct : sources.Nodup)
    (fresh : entry.source ∉ sources → groupOf entries entry.source = ⟨entry.source, [], []⟩) :
    file (sources.map (groupOf entries)) entry =
      (if entry.source ∈ sources then sources else sources ++ [entry.source]).map
        (groupOf (entries ++ [entry])) := by
  induction sources with
  | nil =>
    rw [if_neg List.not_mem_nil, List.nil_append, List.map_singleton, groupOf_concat,
      fresh List.not_mem_nil]
    rfl
  | cons source sources ih =>
    obtain ⟨alone, distinct⟩ := List.nodup_cons.mp distinct
    rw [List.map_cons, file, source_groupOf]
    by_cases own : source = entry.source
    · subst own
      have others : sources.map (groupOf (entries ++ [entry])) = sources.map (groupOf entries) :=
        List.map_congr_left fun other member =>
          groupOf_concat_of_ne entries fun same => alone (same ▸ member)
      rw [if_pos rfl, if_pos List.mem_cons_self, List.map_cons, groupOf_concat, others]
    · have later : entry.source ∈ source :: sources ↔ entry.source ∈ sources := by
        rw [List.mem_cons, or_iff_right (Ne.symm own)]
      have ih := ih distinct fun new => fresh (mt later.mp new)
      rw [if_neg own, ih, ← groupOf_concat_of_ne entries own]
      simp only [later]
      split <;> rfl

theorem eraseDups_concat (list : List String) (last : String) :
    (list ++ [last]).eraseDups =
      if last ∈ list.eraseDups then list.eraseDups else list.eraseDups ++ [last] := by
  rw [List.eraseDups_append]
  by_cases listed : last ∈ list <;>
    simp [List.removeAll, List.mem_eraseDups, List.eraseDups_cons, listed]

/-- Entries filed one after another: the modules come in the order of their first entry, and each
has all of its entries, in their order. -/
theorem foldl_file_eq (entries : List Entry) :
    entries.foldl file [] = (entries.map Entry.source).eraseDups.map (groupOf entries) := by
  induction entries using List.reverseRecOn with
  | nil => rfl
  | append_singleton entries entry ih =>
    have fresh (new : entry.source ∉ (entries.map Entry.source).eraseDups) :
        groupOf entries entry.source = ⟨entry.source, [], []⟩ := by
      have none (isType : Bool) : select entries entry.source isType = [] := by
        rw [List.eq_nil_iff_forall_not_mem]
        intro other member
        obtain ⟨given, same, -⟩ := mem_select.mp member
        exact new (List.mem_eraseDups.mpr (same ▸ List.mem_map_of_mem given))
      rw [groupOf, none, none]
    rw [List.foldl_append, List.foldl_cons, List.foldl_nil, ih,
      file_map_groupOf (nodup_eraseDups _) fresh, List.map_append, List.map_singleton,
      eraseDups_concat]

theorem foldl_fileUsed_eq (registry : Registry) (used : List String) (groups : List Group) :
    used.foldl (fileUsed registry) groups = (used.filterMap registry.get?).foldl file groups := by
  induction used generalizing groups with
  | nil => rfl
  | cons name used ih =>
    rw [List.foldl_cons, ih, fileUsed, List.filterMap_cons]
    cases registry.get? name <;> rfl

theorem lines_eq_plan (registry : Registry) (used : List String) :
    lines registry used = (plan (used.filterMap registry.get?)).map Line.text := by
  rw [lines, foldl_fileUsed_eq, foldl_file_eq, plan, List.flatMap_map, List.map_flatMap]
  simp only [statements_groupOf]

theorem mem_line?_iff {entries : List Entry} {source : String} {isType : Bool} {line : Line} :
    line ∈ line? entries source isType ↔
      select entries source isType ≠ [] ∧
        line = ⟨isType, source, select entries source isType⟩ := by
  unfold line?
  split
  next empty =>
    rw [List.isEmpty_iff] at empty
    simp [empty]
  next nonempty =>
    rw [List.isEmpty_iff] at nonempty
    simp [nonempty]

/-- A line is planned exactly if it has entries, and these are all of its module and kind, in
order. -/
theorem mem_plan_iff {entries : List Entry} {line : Line} :
    line ∈ plan entries ↔
      line.entries ≠ [] ∧ line.entries = select entries line.source line.isType := by
  constructor
  · intro planned
    obtain ⟨source, -, member⟩ := List.mem_flatMap.mp planned
    rcases List.mem_append.mp member with member | member
    · obtain ⟨nonempty, rfl⟩ := mem_line?_iff.mp member
      exact ⟨nonempty, rfl⟩
    · obtain ⟨nonempty, rfl⟩ := mem_line?_iff.mp member
      exact ⟨nonempty, rfl⟩
  · rintro ⟨nonempty, all⟩
    obtain ⟨isType, source, own⟩ := line
    obtain rfl : own = select entries source isType := all
    -- any entry of the line brings its module in
    obtain ⟨entry, member⟩ := List.exists_mem_of_ne_nil _ nonempty
    obtain ⟨given, rfl, rfl⟩ := mem_select.mp member
    refine List.mem_flatMap.mpr ⟨entry.source, ?_, ?_⟩
    · exact List.mem_eraseDups.mpr (List.mem_map_of_mem given)
    · have line := mem_line?_iff.mpr ⟨nonempty, rfl⟩
      cases kind : entry.isType with
      | false => exact List.mem_append_left _ (kind ▸ line)
      | true => exact List.mem_append_right _ (kind ▸ line)

theorem holds_of_mem_plan {entries : List Entry} {line : Line} (planned : line ∈ plan entries) :
    line.Holds entries := by
  obtain ⟨nonempty, all⟩ := mem_plan_iff.mp planned
  have own {entry : Entry} (member : entry ∈ line.entries) :
      entry ∈ entries ∧ entry.source = line.source ∧ entry.isType = line.isType :=
    mem_select.mp (all ▸ member)
  exact ⟨nonempty, fun _ member => (own member).1, fun _ member => (own member).2.1,
    fun _ member => (own member).2.2⟩

theorem exists_line_of_mem {entries : List Entry} {entry : Entry} (member : entry ∈ entries) :
    ∃ line ∈ plan entries, entry ∈ line.entries := by
  have own : entry ∈ select entries entry.source entry.isType :=
    mem_select.mpr ⟨member, rfl, rfl⟩
  exact ⟨⟨entry.isType, entry.source, select entries entry.source entry.isType⟩,
    mem_plan_iff.mpr ⟨List.ne_nil_of_mem own, rfl⟩, own⟩

/-- Quoting adds quotes and backslashes to a specifier, and nothing else. -/
theorem mem_quoteSource {source : String} {c : Char} (member : c ∈ quoteSource source) :
    c ∈ ['\'', '\\'] ∨ c ∈ source.toList := by
  unfold quoteSource escapeChar at member
  simp only [List.cons_append, List.mem_cons, List.mem_append, List.mem_flatMap, List.not_mem_nil,
    or_false] at member
  rcases member with rfl | ⟨d, own, escaped⟩ | rfl
  · left
    decide
  · split at escaped
    · simp only [List.mem_cons, List.not_mem_nil, or_false] at escaped
      rcases escaped with rfl | rfl
      · left
        decide
      · exact .inr own
    · rw [List.mem_singleton.mp escaped]
      exact .inr own
  · left
    decide

theorem Line.text_ne_nil (line : Line) : line.text ≠ [] := by
  simp [text, statement, quoteSource]

/-- Lines, each with its line end. -/
def written (lines : List Line) : List Char :=
  lines.flatMap fun line => line.text ++ ['\n']

theorem written_cons (line : Line) (lines : List Line) :
    written (line :: lines) = line.text ++ '\n' :: written lines := by
  simp [written]

/-- A block that is not empty, with its line end, is its lines with theirs. -/
theorem intercalate_append_lineEnd {lines : List Line} (nonempty : lines ≠ []) :
    ['\n'].intercalate (lines.map Line.text) ++ ['\n'] = written lines := by
  induction lines with
  | nil => exact absurd rfl nonempty
  | cons line lines ih =>
    cases lines with
    | nil => simp [written]
    | cons next lines =>
      rw [written_cons, ← ih (by simp), List.map_cons, List.map_cons,
        List.intercalate_cons_cons]
      simp

/-- Joined lines are an empty text only if there are none. -/
theorem intercalate_text_eq_nil_iff {lines : List Line} :
    ['\n'].intercalate (lines.map Line.text) = [] ↔ lines = [] := by
  cases lines with
  | nil => simp
  | cons line lines =>
    cases lines with
    | nil => simp [line.text_ne_nil]
    | cons next lines => simp [List.intercalate_cons_cons, line.text_ne_nil]

/-- The text of a block is empty only for a plan without lines. -/
theorem text_eq_nil_iff {registry : Registry} {used : List String} :
    text registry used = [] ↔ plan (used.filterMap registry.get?) = [] := by
  rw [text, lines_eq_plan, intercalate_text_eq_nil_iff]

/-- A block with its line end is the lines of its plan with theirs. -/
theorem text_append_lineEnd {registry : Registry} {used : List String}
    (nonempty : text registry used ≠ []) :
    text registry used ++ ['\n'] = written (plan (used.filterMap registry.get?)) := by
  rw [ne_eq, text_eq_nil_iff] at nonempty
  rw [text, lines_eq_plan, intercalate_append_lineEnd nonempty]

end ImportSupply.ImportBlock
