import ImportSupply.Proofs.Setup.Idempotence
import Mathlib.Data.List.Forall2

/-!
# Which entry a name gets

A setup lists entries from several sources and registers the first of each local name
(`FirstWins`). What comes first is fixed by the options and the tree: the imports, then the presets
in the order in which they are listed, then the directories in theirs; in a directory the files in
the order of the ways to them, and in a file the exports in the order of their places (`Scans`).
-/

namespace ImportSupply

/-! ## Registries -/

/-- A registry in which the first of several entries with one local name wins. -/
structure Registry.FirstWins (registry : Registry) (listed : List Entry) : Prop where
  resolves : ∀ name, registry.get? name = listed.find? fun entry => entry.localName == name
  entries : registry.entries =
    listed.eraseDupsBy fun entry other => entry.localName == other.localName
  key : ∀ name entry, registry.get? name = some entry → entry.localName = name
  names : registry.names = registry.entries.map Entry.localName
  nodup : registry.names.Nodup

theorem Registry.firstWins_ofEntries (entries : List Entry) :
    (ofEntries entries).FirstWins entries where
  resolves := get?_ofEntries entries
  entries := firstOfEach_eq_eraseDupsBy entries
  key _ _ := localName_of_get?
  names := rfl
  nodup := (ofEntries entries).nodup_localName

/-- Registered together, two lists resolve a name as the first one does, or else as the second. -/
theorem Registry.get?_ofEntries_append (first second : List Entry) (name : String) :
    (ofEntries (first ++ second)).get? name =
      ((ofEntries first).get? name).or ((ofEntries second).get? name) := by
  rw [get?_ofEntries, get?_ofEntries, get?_ofEntries, List.find?_append]

/-! ## Presets -/

/-- The entries of one preset; a name under which no preset is listed gives none. -/
def PresetSpec.own : PresetSpec → List Entry
  | builtin name =>
      (Preset.builtins.filter fun listed => listed.1 == name).flatMap fun listed =>
        listed.2.imports.map (Preset.entryOf listed.2.source)
  | inline preset => preset.imports.map (Preset.entryOf preset.source)

/-- Where no key is listed twice, looking one up finds all that is listed under it. -/
theorem filter_key_eq_lookup {α : Type} {listed : List (String × α)}
    (distinct : (listed.map Prod.fst).Nodup) (key : String) :
    (listed.filter fun entry => entry.1 == key).map Prod.snd = (listed.lookup key).toList := by
  induction listed with
  | nil => rfl
  | cons entry listed ih =>
    obtain ⟨other, value⟩ := entry
    rw [List.map_cons, List.nodup_cons] at distinct
    obtain ⟨fresh, distinct⟩ := distinct
    by_cases same : key = other
    · subst same
      have alone : listed.filter (fun entry => entry.1 == key) = [] :=
        List.filter_eq_nil_iff.mpr fun entry member hit =>
          fresh (List.mem_map.mpr ⟨entry, member, eq_of_beq hit⟩)
      simp [alone]
    · have differs : (key == other) = false := beq_false_of_ne same
      rw [List.lookup_cons, differs, ← ih distinct]
      simp [Ne.symm same]

theorem PresetSpec.own_builtin (name : String) :
    own (.builtin name) = (Preset.builtin? name).toList.flatMap Preset.entries := by
  have distinct : (Preset.builtins.map Prod.fst).Nodup := by decide
  rw [Preset.builtin?, ← filter_key_eq_lookup distinct, List.flatMap_map]
  rfl

theorem PresetSpec.entries_eq (specs : List PresetSpec) : entries specs = specs.flatMap own := by
  induction specs with
  | nil => rfl
  | cons spec specs ih =>
    rw [entries] at ih
    rw [entries, List.filterMap_cons, List.flatMap_cons, ← ih]
    cases spec with
    | builtin name =>
      rw [own_builtin, preset?]
      cases Preset.builtin? name with
      | none => rfl
      | some preset => simp
    | inline preset => rfl

/-! ## Directories -/

/-- The two steps of a computation that succeeds. -/
theorem exists_ok_of_bind {α β : Type} {first : Except Failure α} {next : α → Except Failure β}
    {result : β} (succeeds : first >>= next = .ok result) :
    ∃ value, first = .ok value ∧ next value = .ok result := by
  cases first with
  | error cause => cases succeeds
  | ok value => exact ⟨value, rfl, succeeds⟩

namespace ScanDir

/-- What a file gives to a scan: the exports of its text, in the order of their places, or nothing
if it holds no text. -/
inductive Gives (dir : ScanDir) (file : FoundFile) : List Entry → Prop
  | text {script : String} {placed : List Export.Found} : file.contents = .text script →
      placed.Perm (Export.found (Literal.mask script.toList)
        (String.ofList (Script.specifier (FileTree.pathBelow dir.path file.relative).toList))
        dir.types) →
      placed.Pairwise (fun a b => a.place ≤ b.place) →
      Gives dir file (placed.map Export.Found.entry)
  | binary {bytes : List UInt8} : file.contents = .binary bytes → Gives dir file []

/-- What the scan of a directory can come to: nothing, if its path leads to none, and else what the
files below it give that its globs want, in the order of the ways to them. -/
inductive Scans (tree : FileTree) (dir : ScanDir) : List Entry → Prop
  | nowhere : tree.isDirectory dir.path = false → Scans tree dir []
  | listed {location : Location} {includes excludes : Glob.Filter} {files : List FoundFile} :
      tree.resolve .visit dir.path = .ok (.taken location .directory) →
      readFilter dir.includes = .ok includes → readFilter dir.excludes = .ok excludes →
      files.Perm ((tree.filesBelow dir.path tree.walkDepth [location] [] location).filter
        (isWanted includes excludes)) →
      files.Pairwise (fun a b => FileTree.namesLe a.relative b.relative = true) →
      (∀ file ∈ files, dir.Gives file (dir.fileEntries file)) →
      Scans tree dir (files.flatMap dir.fileEntries)

theorem gives_fileEntries (dir : ScanDir) (file : FoundFile) :
    dir.Gives file (dir.fileEntries file) := by
  rw [fileEntries]
  split
  next script holds =>
    exact .text holds (List.mergeSort_perm _ _) (pairwise_mergeSort_key _ _)
  next bytes holds => exact .binary holds

theorem scans_of_entries {tree : FileTree} {dir : ScanDir} {entries : List Entry}
    (scanned : dir.entries tree = .ok entries) : dir.Scans tree entries := by
  rw [ScanDir.entries] at scanned
  split at scanned
  next absent =>
    obtain rfl := Except.ok.inj scanned
    exact .nowhere (by simpa using absent)
  next present =>
    obtain ⟨includes, included, scanned⟩ := exists_ok_of_bind scanned
    obtain ⟨excludes, excluded, scanned⟩ := exists_ok_of_bind scanned
    obtain rfl := Except.ok.inj scanned
    -- the walk starts where the path leads, and a directory's path leads to one
    have leads : ∃ location, tree.resolve .visit dir.path = .ok (.taken location .directory) := by
      rw [FileTree.isDirectory] at present
      split at present
      next location leads => exact ⟨location, leads⟩
      next => exact absurd rfl present
    obtain ⟨location, leads⟩ := leads
    rw [FileTree.walk, leads]
    exact .listed leads included excluded ((List.mergeSort_perm _ _).filter _)
      ((FileTree.pairwise_mergeSort_relative _).filter _) fun file _ => dir.gives_fileEntries file

end ScanDir

/-- A scan of several directories lists what each of them comes to, one after the other. -/
theorem exists_scans_of_scanDirs {tree : FileTree} {dirs : List ScanDir} {entries : List Entry}
    (scanned : scanDirs tree dirs = .ok entries) :
    ∃ blocks, List.Forall₂ (fun dir block => dir.entries tree = .ok block ∧ dir.Scans tree block)
      dirs blocks ∧ entries = blocks.flatten := by
  induction dirs generalizing entries with
  | nil =>
    obtain rfl := Except.ok.inj scanned
    exact ⟨[], .nil, rfl⟩
  | cons dir dirs ih =>
    rw [scanDirs] at scanned
    obtain ⟨first, own, scanned⟩ := exists_ok_of_bind scanned
    obtain ⟨others, rest, scanned⟩ := exists_ok_of_bind scanned
    obtain rfl := Except.ok.inj scanned
    obtain ⟨blocks, scans, rfl⟩ := ih rest
    exact ⟨first :: blocks, .cons ⟨own, ScanDir.scans_of_entries own⟩ scans, rfl⟩

/-! ## Setups -/

namespace Setup

/-- **The first entry of a name wins.** Two lists registered together resolve a name as the first
one does, or else as the second. And a setup registers the first of each name among the options'
imports, the entries of each preset, and what the scan of each directory comes to. -/
theorem registry_firstWins :
    (∀ first second name, (Registry.ofEntries (first ++ second)).get? name =
      ((Registry.ofEntries first).get? name).or ((Registry.ofEntries second).get? name)) ∧
    ∀ options tree after setup, run options tree = (after, .ok setup) →
      ∃ blocks, List.Forall₂
          (fun dir block => dir.entries tree = .ok block ∧ dir.Scans tree block)
          options.scanDirs blocks ∧
        setup.registry.FirstWins
          (options.imports ++ options.presets.flatMap PresetSpec.own ++ blocks.flatten) := by
  refine ⟨Registry.get?_ofEntries_append, fun options tree after setup ran => ?_⟩
  obtain ⟨entries, _, _, _, gathered, -, -, rfl⟩ := exists_stages_of_run ran
  obtain ⟨scanned, found, entries_eq⟩ := exists_ok_of_bind gathered
  obtain rfl := Except.ok.inj entries_eq
  obtain ⟨blocks, scans, rfl⟩ := exists_scans_of_scanDirs found
  refine ⟨blocks, scans, ?_⟩
  rw [← PresetSpec.entries_eq]
  exact Registry.firstWins_ofEntries _

def rivalTree : FileTree :=
  ⟨[(["lib"], .directory), (["lib", "x.ts"], .file (.text "export const state = 1")),
    (["src"], .directory), (["src", "box.ts"], .file (.text "export default class Box \x7b\x7d"))]⟩

/-- An import and presets that give names which others have too, a preset that is not there, and
directories that come after them. -/
def rivalOptions : Options :=
  ⟨[⟨"ref", some "watch", "custom", false⟩],
    [.builtin "nowhere", .builtin "stx",
      .inline ⟨"vue", [.bare "watch", .detailed "reactive" (some "state") false, .bare "toRefs"]⟩],
    [.bare "lib", .bare "absent", .bare "src"], .enabled false, .default, false⟩

def rivalEntries : List Entry :=
  ⟨"ref", some "watch", "custom", false⟩ :: Preset.stx.entries ++
    [.value "watch" "vue", ⟨"reactive", some "state", "vue", false⟩, .value "toRefs" "vue",
      .value "state" "lib/x", ⟨"default", some "Box", "src/box", false⟩]

theorem registry_firstWins_rivals :
    run rivalOptions rivalTree = (rivalTree,
      .ok ⟨Registry.ofEntries rivalEntries, declarationsOf rivalEntries, []⟩) ∧
    ["watch", "state", "toRefs", "Box"].map (Registry.ofEntries rivalEntries).get? =
      [some ⟨"ref", some "watch", "custom", false⟩, some (.value "state" "stx"),
        some (.value "toRefs" "vue"), some ⟨"default", some "Box", "src/box", false⟩] ∧
    ∃ blocks, List.Forall₂
        (fun dir block => dir.entries rivalTree = .ok block ∧ dir.Scans rivalTree block)
        rivalOptions.scanDirs blocks ∧
      (Registry.ofEntries rivalEntries).FirstWins
        (rivalOptions.imports ++ rivalOptions.presets.flatMap PresetSpec.own ++
          blocks.flatten) := by
  have gathered : gather rivalOptions rivalTree = .ok rivalEntries :=
    eq_ok_of_toOption (by decide +kernel)
  have ran := run_of_isUpToDate gathered (by intro path present; cases present)
    (by intro path present; cases present)
  exact ⟨ran, by decide +kernel, registry_firstWins.2 _ _ _ _ ran⟩

end Setup

end ImportSupply
