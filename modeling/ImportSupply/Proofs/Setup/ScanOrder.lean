import ImportSupply.Proofs.FileTree.Found
import ImportSupply.Proofs.Setup.Precedence
import Mathlib.Data.List.ReduceOption

/-!
# The order of a scan

A scan lists, directory by directory, the exports of the files that the globs want, in increasing
order of the ways to them (`ScanDir.Lists`). A walk may yield what lies below a directory in any
order and files may be scanned in any order (`ScanDir.Run`): what a walk yields is sorted, and the
exports of a file have a slot of their own (`fill_eq`). So the scan does not depend on either
(`ScanDir.scanBy_eq`), nor on how the tree lists its nodes. What cannot be read has no exports and
stands in nobody's way.
-/

namespace ImportSupply

open FileTree (pathBelow)

/-! ## Jobs done in some order -/

/-- The slots of some items when the job has been done for those that a schedule numbers. -/
def fill {α β : Type} (job : α → β) (items : List α) (schedule : List Nat) : List (Option β) :=
  schedule.foldl (fun slots k => slots.set k (items[k]?.map job)) (items.map fun _ => none)

theorem getElem?_foldl_set {α β : Type} (job : α → β) {items : List α} (schedule : List Nat)
    {slots : List (Option β)} (sized : slots.length = items.length) (k : Nat) :
    (schedule.foldl (fun slots j => slots.set j (items[j]?.map job)) slots)[k]? =
      if k ∈ schedule then items[k]?.map fun item => some (job item) else slots[k]? := by
  induction schedule generalizing slots with
  | nil => rfl
  | cons j schedule ih =>
    rw [List.foldl_cons, ih (by rw [List.length_set, sized])]
    -- a job that is done again fills its slot with the same
    by_cases later : k ∈ schedule
    · rw [if_pos later, if_pos (List.mem_cons_of_mem j later)]
    · rw [if_neg later, List.getElem?_set, sized]
      by_cases now : j = k
      · subst now
        rw [if_pos rfl, if_pos List.mem_cons_self]
        by_cases inner : j < items.length
        · rw [if_pos inner, List.getElem?_eq_getElem inner]
          rfl
        · rw [if_neg inner, List.getElem?_eq_none (Nat.not_lt.mp inner)]
          rfl
      · rw [if_neg now, if_neg (by simp [later, Ne.symm now])]

/-- When all jobs are done, the slots hold what the items give, in the order of the items. -/
theorem reduceOption_fill {α β : Type} (job : α → β) {items : List α} {schedule : List Nat}
    (complete : schedule.Perm (List.range items.length)) :
    (fill job items schedule).reduceOption = items.map job := by
  have filled : fill job items schedule = items.map fun item => some (job item) := by
    refine List.ext_getElem? fun k => ?_
    rw [fill, getElem?_foldl_set job schedule (List.length_map _), List.getElem?_map,
      List.getElem?_map]
    split
    next => rfl
    next undone =>
      rw [complete.mem_iff, List.mem_range, Nat.not_lt] at undone
      rw [List.getElem?_eq_none undone]
      rfl
  rw [filled, List.reduceOption, List.filterMap_map]
  exact congrFun List.filterMap_eq_map items

namespace ScanDir

/-! ## Which files are wanted -/

/-- One of some patterns accepts the path that names make. -/
def Matches (patterns : List String) (way : List String) : Prop :=
  ∃ pattern ∈ patterns, ∃ glob, Glob.parse pattern = .ok glob ∧
    glob.accepts ("/".intercalate way) = true

/-- The globs of a directory can be read. -/
def Readable (dir : ScanDir) : Prop :=
  ∃ includes excludes, readFilter dir.includes = .ok includes ∧
    readFilter dir.excludes = .ok excludes

theorem forall₂_parse_of_readGlobs {texts : List String} {globs : List Glob}
    (reads : readGlobs texts = .ok globs) :
    List.Forall₂ (fun text glob => Glob.parse text = .ok glob) texts globs := by
  induction texts generalizing globs with
  | nil =>
    obtain rfl := Except.ok.inj reads
    exact .nil
  | cons text texts ih =>
    rw [readGlobs] at reads
    obtain ⟨glob, parses, reads⟩ := exists_ok_of_bind reads
    obtain ⟨others, rest, reads⟩ := exists_ok_of_bind reads
    obtain rfl := Except.ok.inj reads
    refine .cons ?_ (ih rest)
    cases parsed : Glob.parse text with
    | error flaw =>
      rw [parsed] at parses
      cases parses
    | ok own =>
      rw [parsed] at parses
      rw [Except.ok.inj parses]

theorem globs_of_readFilter {texts : List String} {filter : Glob.Filter}
    (reads : readFilter texts = .ok filter) :
    List.Forall₂ (fun text glob => Glob.parse text = .ok glob) texts filter.globs := by
  obtain ⟨globs, parses, makes⟩ := exists_ok_of_bind reads
  have same : filter.globs = globs := by
    rw [Glob.Filter.ofGlobs] at makes
    split at makes
    next => cases makes
    next =>
      split at makes
      next => cases makes
      next => rw [← Except.ok.inj makes]
  rw [same]
  exact forall₂_parse_of_readGlobs parses

theorem accepts_iff_matches {patterns : List String} {filter : Glob.Filter}
    (reads : readFilter patterns = .ok filter) (way : List String) :
    filter.accepts ("/".intercalate way) = true ↔ Matches patterns way := by
  have parses := globs_of_readFilter reads
  rw [Glob.Filter.accepts, List.any_eq_true, Matches]
  generalize filter.globs = globs at parses
  clear reads
  induction parses with
  | nil => simp
  | @cons pattern glob patterns globs parsed _ ih => simp [parsed, ih]

/-- The files below a directory that its globs want: each once, in increasing order of the ways to
them, and each where its path leads. -/
structure Lists (tree : FileTree) (dir : ScanDir) (files : List FoundFile) : Prop where
  ascending : files.Pairwise fun a b => a.relative < b.relative
  mem_iff : ∀ file, file ∈ files ↔ tree.HasFile dir.path file ∧
    Matches dir.includes file.relative ∧ ¬Matches dir.excludes file.relative
  leads : ∀ file ∈ files, ∃ location,
    tree.resolve .visit (pathBelow dir.path file.relative) =
      .ok (.taken location (.file file.contents))

theorem lists_walk {tree : FileTree} (wellFormed : tree.WellFormed) {dir : ScanDir}
    {includes excludes : Glob.Filter} (included : readFilter dir.includes = .ok includes)
    (excluded : readFilter dir.excludes = .ok excludes) :
    dir.Lists tree ((tree.walk dir.path).filter (isWanted includes excludes)) where
  ascending := (FileTree.pairwise_walk wellFormed.distinct dir.path).filter _
  mem_iff file := by
    rw [List.mem_filter, FileTree.mem_walk_iff wellFormed.distinct, isWanted, Bool.and_eq_true,
      Bool.not_eq_true', ← Bool.not_eq_true, accepts_iff_matches included,
      accepts_iff_matches excluded]
  leads file member := by
    have found := (FileTree.mem_walk_iff wellFormed.distinct).mp (List.mem_of_mem_filter member)
    exact found.exists_resolve_eq wellFormed

/-- Whether a file holds a text. -/
def isText (file : FoundFile) : Bool :=
  match file.contents with
  | .text _ => true
  | .binary _ => false

theorem flatMap_fileEntries_isText (dir : ScanDir) (files : List FoundFile) :
    (files.filter isText).flatMap dir.fileEntries = files.flatMap dir.fileEntries := by
  induction files with
  | nil => rfl
  | cons file files ih =>
    obtain ⟨relative, contents⟩ := file
    cases contents with
    | text script => rw [List.filter_cons_of_pos rfl, List.flatMap_cons, List.flatMap_cons, ih]
    | binary bytes =>
      rw [List.filter_cons_of_neg (by simp [isText]), ih, List.flatMap_cons]
      rfl

theorem not_hasFile_of_not_isDirectory {tree : FileTree} {path : String}
    (absent : ¬tree.isDirectory path = true) (file : FoundFile) : ¬tree.HasFile path file := by
  rintro ⟨location, leads, -⟩
  rw [FileTree.isDirectory, leads] at absent
  exact absent rfl

theorem exists_lists {tree : FileTree} (wellFormed : tree.WellFormed) {dir : ScanDir}
    (readable : tree.isDirectory dir.path = true → dir.Readable) :
    ∃ files, dir.Lists tree files ∧ dir.entries tree = .ok (files.flatMap dir.fileEntries) := by
  rw [entries]
  by_cases present : tree.isDirectory dir.path = true
  · obtain ⟨includes, excludes, included, excluded⟩ := readable present
    refine ⟨_, lists_walk wellFormed included excluded, ?_⟩
    rw [present, included, excluded]
    rfl
  · refine ⟨[], ⟨.nil, fun file => ?_, by simp⟩, ?_⟩
    · simp [not_hasFile_of_not_isDirectory present file]
    · rw [if_pos (by simpa using present)]
      rfl

/-! ## Other orders -/

/-- What a walk comes upon. -/
inductive Yield where
  /-- Something that cannot be read. -/
  | trouble
  /-- A directory, or what is neither a directory nor a file. -/
  | passed (way : List String)
  | file (way : List String)

/-- The way to a file that a walk yields. -/
def Yield.way? : Yield → Option (List String)
  | file way => some way
  | _ => none

/-- A walk that yields each file below a path once, in whatever order. -/
structure Yields (tree : FileTree) (path : String) (yields : List Yield) : Prop where
  once : (yields.filterMap Yield.way?).Nodup
  files : ∀ way, .file way ∈ yields ↔ ∃ contents, tree.HasFile path ⟨way, contents⟩

/-- How the scan of a directory can go. -/
structure Run where
  /-- What the walk yields, in this order. -/
  yields : List Yield
  /-- The order in which so many files are scanned. -/
  schedule : Nat → List Nat

/-- A run that comes upon each file once and scans all that are to be scanned. -/
structure Run.Fits (tree : FileTree) (dir : ScanDir) (run : Run) : Prop where
  yields : Yields tree dir.path run.yields
  schedule : ∀ count, (run.schedule count).Perm (List.range count)

/-- The ways to the files to be scanned, sorted. -/
def wantedWays (includes excludes : Glob.Filter) (yields : List Yield) : List (List String) :=
  ((yields.filterMap Yield.way?).filter fun way =>
    includes.accepts ("/".intercalate way) && !excludes.accepts ("/".intercalate way)).mergeSort
      FileTree.namesLe

/-- The entries of the file that a way leads to, if it can be read. -/
def entriesAt (tree : FileTree) (dir : ScanDir) (way : List String) : List Entry :=
  let path := pathBelow dir.path way
  match tree.readText path with
  | .ok script =>
      Export.entries script.toList (String.ofList (Script.specifier path.toList)) dir.types
  | .error _ => []

/-- The entries of a directory's scripts, as a run finds them. -/
def scanBy (tree : FileTree) (dir : ScanDir) (run : Run) : Except Failure (List Entry) :=
  if !tree.isDirectory dir.path then .ok []
  else do
    let includes ← readFilter dir.includes
    let excludes ← readFilter dir.excludes
    let ways := wantedWays includes excludes run.yields
    return (fill (dir.entriesAt tree) ways (run.schedule ways.length)).reduceOption.flatten

theorem entriesAt_eq {tree : FileTree} (wellFormed : tree.WellFormed) {dir : ScanDir}
    {file : FoundFile} (has : tree.HasFile dir.path file) :
    dir.entriesAt tree file.relative = dir.fileEntries file := by
  obtain ⟨there, leads⟩ := has.exists_resolve_eq wellFormed
  rw [entriesAt, fileEntries]
  dsimp only
  rw [FileTree.readText, leads]
  cases file.contents <;> rfl

theorem mem_wantedWays {includes excludes : Glob.Filter} {yields : List Yield}
    {way : List String} :
    way ∈ wantedWays includes excludes yields ↔ .file way ∈ yields ∧
      includes.accepts ("/".intercalate way) = true ∧
      excludes.accepts ("/".intercalate way) = false := by
  have listed : way ∈ yields.filterMap Yield.way? ↔ .file way ∈ yields := by
    rw [List.mem_filterMap]
    constructor
    · rintro ⟨_ | _ | other, member, same⟩
      · cases same
      · cases same
      · rwa [← Option.some.inj same]
    · exact fun member => ⟨_, member, rfl⟩
  rw [wantedWays, (List.mergeSort_perm _ _).mem_iff, List.mem_filter, listed, Bool.and_eq_true,
    Bool.not_eq_true']

theorem pairwise_wantedWays {yields : List Yield} (once : (yields.filterMap Yield.way?).Nodup)
    (includes excludes : Glob.Filter) :
    (wantedWays includes excludes yields).Pairwise (· < ·) := by
  refine FileTree.pairwise_lt_of_nodup (List.pairwise_mergeSort ?_ ?_ _) ?_
  · exact fun a b c => FileTree.namesLe_trans
  · intro a b
    rw [Bool.or_eq_true]
    exact FileTree.namesLe_total a b
  · exact (List.mergeSort_perm _ _).nodup_iff.mpr (once.filter _)

/-- Sorted, the ways are those of the walk, whatever the order in which they were yielded. -/
theorem wantedWays_eq {tree : FileTree} (wellFormed : tree.WellFormed) {path : String}
    {yields : List Yield} (covers : Yields tree path yields) (includes excludes : Glob.Filter) :
    wantedWays includes excludes yields =
      ((tree.walk path).filter (isWanted includes excludes)).map FoundFile.relative := by
  have sorted := (FileTree.pairwise_walk wellFormed.distinct path).filter
    (isWanted includes excludes)
  -- two increasing lists with the same members are one list
  refine (pairwise_wantedWays covers.once includes excludes).eq_of_mem_iff
    (List.pairwise_map.mpr sorted) fun way => ?_
  rw [mem_wantedWays, covers.files, List.mem_map]
  constructor
  · rintro ⟨⟨contents, has⟩, wanted, unwanted⟩
    refine ⟨⟨way, contents⟩, List.mem_filter.mpr ⟨?_, ?_⟩, rfl⟩
    · exact (FileTree.mem_walk_iff wellFormed.distinct).mpr has
    · rw [isWanted, wanted, unwanted]
      rfl
  · rintro ⟨file, member, rfl⟩
    obtain ⟨found, wanted⟩ := List.mem_filter.mp member
    rw [isWanted, Bool.and_eq_true, Bool.not_eq_true'] at wanted
    exact ⟨⟨file.contents, (FileTree.mem_walk_iff wellFormed.distinct).mp found⟩, wanted⟩

theorem scanBy_eq {tree : FileTree} (wellFormed : tree.WellFormed) {dir : ScanDir} {run : Run}
    (fits : run.Fits tree dir) : dir.scanBy tree run = dir.entries tree := by
  rw [scanBy, entries]
  split
  next => rfl
  next =>
    congr 1
    funext includes
    congr 1
    funext excludes
    rw [wantedWays_eq wellFormed fits.yields]
    dsimp only
    rw [reduceOption_fill _ (fits.schedule _), List.map_map, List.flatMap_def]
    congr 2
    refine List.map_congr_left fun file member => ?_
    have found := List.mem_of_mem_filter member
    exact entriesAt_eq wellFormed ((FileTree.mem_walk_iff wellFormed.distinct).mp found)

theorem entries_congr {tree other : FileTree} (distinct : tree.keys.Nodup)
    (perm : other.nodes.Perm tree.nodes) (dir : ScanDir) :
    dir.entries other = dir.entries tree := by
  have same := FileTree.node?_perm distinct perm
  have distinct' : other.keys.Nodup := (FileTree.keys_perm perm).nodup_iff.mpr distinct
  rw [entries, entries, FileTree.isDirectory_congr same,
    FileTree.walk_congr same distinct distinct']

end ScanDir

/-! ## Several directories -/

/-- The entries of some directories' scripts, in order, as a run in each finds them. -/
def scanDirsBy (tree : FileTree) : List (ScanDir × ScanDir.Run) → Except Failure (List Entry)
  | [] => .ok []
  | (dir, run) :: rest => do
      let first ← dir.scanBy tree run
      let others ← scanDirsBy tree rest
      return first ++ others

theorem scanDirsBy_zip {tree : FileTree} (wellFormed : tree.WellFormed) {dirs : List ScanDir}
    {runs : List ScanDir.Run} (fit : List.Forall₂ (fun dir run => run.Fits tree dir) dirs runs) :
    scanDirsBy tree (dirs.zip runs) = scanDirs tree dirs := by
  induction fit with
  | nil => rfl
  | cons fits _ ih =>
    rw [List.zip_cons_cons, scanDirsBy, scanDirs, ScanDir.scanBy_eq wellFormed fits, ih]

/-- What leads to no directory can be left out. -/
theorem scanDirs_filter_isDirectory (tree : FileTree) (dirs : List ScanDir) :
    scanDirs tree (dirs.filter fun dir => tree.isDirectory dir.path) = scanDirs tree dirs := by
  induction dirs with
  | nil => rfl
  | cons dir dirs ih =>
    rw [List.filter_cons]
    split
    next => rw [scanDirs, scanDirs, ih]
    next absent =>
      rw [scanDirs, ScanDir.entries, if_pos (by simpa using absent), ih]
      cases scanDirs tree dirs <;> rfl

theorem exists_lists_of_readable {tree : FileTree} (wellFormed : tree.WellFormed)
    {dirs : List ScanDir}
    (readable : ∀ dir ∈ dirs, tree.isDirectory dir.path = true → dir.Readable) :
    ∃ found : List (List FoundFile),
      List.Forall₂ (fun dir files => dir.Lists tree files) dirs found ∧
      scanDirs tree dirs = .ok (List.zipWith (fun dir files =>
        (files.filter ScanDir.isText).flatMap dir.fileEntries) dirs found).flatten := by
  induction dirs with
  | nil => exact ⟨[], .nil, rfl⟩
  | cons dir dirs ih =>
    obtain ⟨files, lists, scanned⟩ :=
      ScanDir.exists_lists wellFormed (readable dir List.mem_cons_self)
    obtain ⟨found, others, rest⟩ :=
      ih fun other member => readable other (List.mem_cons_of_mem dir member)
    refine ⟨files :: found, .cons lists others, ?_⟩
    rw [scanDirs, scanned, rest, List.zipWith_cons_cons, List.flatten_cons,
      dir.flatMap_fileEntries_isText]
    rfl

/-- A scan with globs that can be read lists, directory by directory, the entries of the texts that
the globs want, in increasing order of the ways to them. It comes to the same for every order in
which a walk yields what is there and for every order in which files are scanned, for every order of
the tree's nodes, and without the directories that are not there. -/
theorem scanDirs_order_free (tree : FileTree) (wellFormed : tree.WellFormed) (dirs : List ScanDir)
    (readable : ∀ dir ∈ dirs, tree.isDirectory dir.path = true → dir.Readable) :
    (∃ found : List (List FoundFile),
      List.Forall₂ (fun dir files => dir.Lists tree files) dirs found ∧
      scanDirs tree dirs = .ok (List.zipWith (fun dir files =>
        (files.filter ScanDir.isText).flatMap dir.fileEntries) dirs found).flatten) ∧
    (∀ runs : List ScanDir.Run, List.Forall₂ (fun dir run => run.Fits tree dir) dirs runs →
      scanDirsBy tree (dirs.zip runs) = scanDirs tree dirs) ∧
    (∀ other : FileTree, other.nodes.Perm tree.nodes →
      scanDirs other dirs = scanDirs tree dirs) ∧
    scanDirs tree (dirs.filter fun dir => tree.isDirectory dir.path) = scanDirs tree dirs := by
  refine ⟨?_, fun runs fit => ?_, fun other perm => ?_, ?_⟩
  · exact exists_lists_of_readable wellFormed readable
  · exact scanDirsBy_zip wellFormed fit
  · exact scanDirs_congr fun dir _ => dir.entries_congr wellFormed.distinct perm
  · exact scanDirs_filter_isDirectory tree dirs

/-- A tree with two scripts, one file that is no text and a link that leads nowhere. -/
def strewnTree : FileTree :=
  ⟨[(["src"], .directory), (["src", "b.ts"], .file (.text "export const b = 1")),
    (["src", "x.ts"], .file (.binary [255])), (["src", "gone.ts"], .link "nowhere"),
    (["src", "a"], .directory), (["src", "a", "c.ts"], .file (.text "export const c = 1"))]⟩

/-- A directory that is not there, with a glob that cannot be read, and one that is there. -/
def strewnDirs : List ScanDir :=
  [⟨"lib", true, ["["], []⟩, ⟨"src", true, ["**/*.ts"], ["**/d.ts"]⟩]

/-- Runs that meet the files in another order than the tree lists them, and scan the last first. -/
def strewnRuns : List ScanDir.Run :=
  [⟨[], fun count => (List.range count).reverse⟩,
    ⟨[.file ["x.ts"], .trouble, .passed ["a"], .file ["b.ts"], .file ["a", "c.ts"]],
      fun count => (List.range count).reverse⟩]

theorem wellFormed_strewnTree : strewnTree.WellFormed := by
  decide +kernel

theorem walk_strewnTree : strewnTree.walk "src" =
    [⟨["a", "c.ts"], .text "export const c = 1"⟩, ⟨["b.ts"], .text "export const b = 1"⟩,
      ⟨["x.ts"], .binary [255]⟩] := by
  have leads : strewnTree.resolve .visit "src" = .ok (.taken ["src"] .directory) := by
    decide +kernel
  have files : strewnTree.filesBelow "src" strewnTree.walkDepth [["src"]] [] ["src"] =
      [⟨["b.ts"], .text "export const b = 1"⟩, ⟨["x.ts"], .binary [255]⟩,
        ⟨["a", "c.ts"], .text "export const c = 1"⟩] := by
    decide +kernel
  refine FileTree.files_eq_of_mem_iff (FileTree.pairwise_walk wellFormed_strewnTree.distinct "src")
    (by decide +kernel) fun file => ?_
  rw [FileTree.mem_walk leads, files]
  simp only [List.mem_cons, List.not_mem_nil]
  tauto

theorem fits_strewnRuns :
    List.Forall₂ (fun dir run => ScanDir.Run.Fits strewnTree dir run) strewnDirs strewnRuns := by
  have absent : ¬strewnTree.isDirectory "lib" = true := by decide +kernel
  refine .cons ⟨⟨List.nodup_nil, fun way => ?_⟩, fun count => List.reverse_perm _⟩
    (.cons ⟨⟨by decide +kernel, fun way => ?_⟩, fun count => List.reverse_perm _⟩ .nil)
  · simp [ScanDir.not_hasFile_of_not_isDirectory absent]
  · simp only [← FileTree.mem_walk_iff wellFormed_strewnTree.distinct, walk_strewnTree]
    simp [exists_or, or_comm, or_assoc]

theorem scanDirs_order_free_strewn :
    strewnTree.WellFormed ∧ ScanDir.Readable ⟨"src", true, ["**/*.ts"], ["**/d.ts"]⟩ ∧
      List.Forall₂ (fun dir run => ScanDir.Run.Fits strewnTree dir run) strewnDirs strewnRuns ∧
      scanDirs strewnTree strewnDirs = .ok [.value "c" "src/a/c", .value "b" "src/b"] ∧
      scanDirsBy strewnTree (strewnDirs.zip strewnRuns) =
        .ok [.value "c" "src/a/c", .value "b" "src/b"] := by
  have readable : ScanDir.Readable ⟨"src", true, ["**/*.ts"], ["**/d.ts"]⟩ := by
    obtain ⟨includes, included⟩ :=
      @Setup.exists_ok_of_toOption _ (ScanDir.readFilter ["**/*.ts"]) (by decide +kernel)
    obtain ⟨excludes, excluded⟩ :=
      @Setup.exists_ok_of_toOption _ (ScanDir.readFilter ["**/d.ts"]) (by decide +kernel)
    exact ⟨includes, excludes, included, excluded⟩
  have absent : ¬strewnTree.isDirectory "lib" = true := by decide +kernel
  have scanned :
      scanDirs strewnTree strewnDirs = .ok [.value "c" "src/a/c", .value "b" "src/b"] := by
    apply Setup.eq_ok_of_toOption
    simp only [strewnDirs, scanDirs, ScanDir.entries, walk_strewnTree]
    decide +kernel
  obtain ⟨-, orders, -, -⟩ := scanDirs_order_free strewnTree wellFormed_strewnTree strewnDirs (by
    intro dir member present
    rcases List.mem_cons.mp member with rfl | member
    · exact absurd present absent
    · rwa [List.mem_singleton.mp member])
  exact ⟨wellFormed_strewnTree, readable, fits_strewnRuns, scanned,
    (orders _ fits_strewnRuns).trans scanned⟩

end ImportSupply
