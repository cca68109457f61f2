import ImportSupply.Command.Run
import ImportSupply.Proofs.Setup.Stages

/-!
# What a setup can change

A setup changes no file but those its output paths lead to, whether it succeeds or fails
(`Affects`, composed stage by stage). It says it wrote exactly the outputs that then read
differently, and it fails for a glob, with the tree untouched, or for a failed access
(`Setup.run_confined`).
-/

namespace ImportSupply

open FileTree (Grows MakesDirectories)

/-! ## Effects on a tree -/

/-- A tree that differs from another one by directories that were made, and by files that some paths
lead to. -/
structure Affects (paths : List String) (before after : FileTree) : Prop where
  grows : Grows before after
  nodes (location : Location) :
    after.node? location = before.node? location ∨
      paths ≠ [] ∧ before.node? location = none ∧ after.node? location = some .directory ∨
      (before.node? location = none ∨ ∃ old, before.node? location = some (.file old)) ∧
        ∃ path ∈ paths, ∃ contents,
          after.resolve .visit path = .ok (.taken location (.file contents))

/-- A path that leads to a file still leads there when the tree has grown. -/
theorem FileTree.Grows.resolve_file {before after : FileTree} (grows : Grows before after)
    {path : String} {location : Location} {contents : Contents}
    (leads : before.resolve .visit path = .ok (.taken location (.file contents))) :
    ∃ contents', after.resolve .visit path = .ok (.taken location (.file contents')) := by
  obtain ⟨course, goes, stops, -⟩ := FileTree.exists_goes_of_resolve leads
  cases stops with
  | taken found =>
    obtain ⟨contents', found⟩ := grows.file found
    refine ⟨contents', ?_⟩
    rw [FileTree.resolve] at leads ⊢
    split_ifs at leads ⊢
    exact FileTree.follow_of_goes (grows.goes goes) (.taken found)

namespace Affects

theorem refl (paths : List String) (tree : FileTree) : Affects paths tree tree :=
  ⟨.refl tree, fun _ => .inl rfl⟩

theorem trans {paths others : List String} {before middle after : FileTree}
    (first : Affects paths before middle) (second : Affects others middle after) :
    Affects (paths ++ others) before after where
  grows := first.grows.trans second.grows
  nodes location := by
    rcases second.nodes location with same | ⟨some, absent, made⟩ | ⟨place, path, member, leads⟩
    · rw [same]
      rcases first.nodes location with kept | ⟨some, absent, made⟩ | ⟨place, path, member, _, leads⟩
      · exact .inl kept
      · exact .inr (.inl ⟨by simp [some], absent, made⟩)
      · exact .inr (.inr ⟨place, path, List.mem_append_left _ member,
          second.grows.resolve_file leads⟩)
    · -- a place that was free in between was free before
      rcases first.nodes location with kept | ⟨_, _, made'⟩ | ⟨place, path, member, _, leads⟩
      · exact .inr (.inl ⟨by simp [some], kept ▸ absent, made⟩)
      · rw [absent] at made'
        cases made'
      · obtain ⟨course, -, stops, -⟩ := FileTree.exists_goes_of_resolve leads
        cases stops with
        | taken found =>
          rw [absent] at found
          cases found
    · refine .inr (.inr ⟨?_, path, List.mem_append_right _ member, leads⟩)
      rcases first.nodes location with kept | ⟨_, absent, _⟩ | ⟨place', _⟩
      · rwa [kept] at place
      · exact .inl absent
      · exact place'

/-- Directories alone change no file. -/
theorem of_makesDirectories {before after : FileTree} (makes : MakesDirectories before after)
    (path : String) : Affects [path] before after where
  grows := makes.grows
  nodes location := by
    rcases makes.node?_eq location with kept | made
    · exact .inl kept
    · exact .inr (.inl ⟨by simp, made⟩)

end Affects

theorem Output.Delivers.affects {path text : String} {before after : FileTree}
    {result : Except Failure (List String)} (delivers : Delivers path text before after result) :
    Affects [path] before after := by
  cases delivers with
  | kept => exact .refl _ before
  | failed makes => exact .of_makesDirectories makes path
  | @written made location stale makes puts leads =>
    refine ⟨makes.grows.trans puts.grows, fun other => ?_⟩
    rw [FileTree.node?_insert puts.ne_nil]
    have inside := makes.node?_eq other
    by_cases same : other = location
    · subst same
      refine .inr (.inr ⟨?_, path, List.mem_singleton_self path, .text text, leads⟩)
      rcases inside with kept | ⟨absent, -⟩
      · rcases puts.place with absent | ⟨old, -, file, -⟩
        · exact .inl (kept ▸ absent)
        · exact .inr ⟨old, kept ▸ file⟩
      · exact .inl absent
    · rw [if_neg same]
      rcases inside with kept | made
      · exact .inl kept
      · exact .inr (.inl ⟨by simp, made⟩)

theorem Setup.Stage.affects {path? : Option String} {text : String} {before after : FileTree}
    {result : Except Failure (List String)} (stage : Stage path? text before after result) :
    Affects path?.toList before after := by
  cases stage with
  | skipped => exact .refl _ before
  | delivered present delivers =>
    rw [present]
    exact delivers.affects

/-! ## Failures of a scan -/

theorem failure_of_bind {α β : Type} {first : Except Failure α} {next : α → Except Failure β}
    {failure : Failure} (fails : first >>= next = .error failure) :
    first = .error failure ∨ ∃ value, first = .ok value ∧ next value = .error failure := by
  cases first with
  | error cause => exact .inl (congrArg Except.error (Except.error.inj fails))
  | ok value => exact .inr ⟨value, rfl, fails⟩

/-- A failure for a glob, or for some globs together. -/
def Failure.IsGlob (failure : Failure) : Prop :=
  ∃ text fault, failure = .glob text fault

namespace ScanDir

theorem isGlob_of_readGlobs {texts : List String} {failure : Failure}
    (fails : readGlobs texts = .error failure) : failure.IsGlob := by
  induction texts with
  | nil => cases fails
  | cons text rest ih =>
    rw [readGlobs] at fails
    rcases failure_of_bind fails with unread | ⟨glob, -, more⟩
    · cases parsed : Glob.parse text with
      | error flaw =>
        rw [parsed] at unread
        exact ⟨_, _, (Except.error.inj unread).symm⟩
      | ok glob =>
        rw [parsed] at unread
        cases unread
    · rcases failure_of_bind more with others | ⟨globs, -, ⟨⟩⟩
      exact ih others

theorem isGlob_of_readFilter {texts : List String} {failure : Failure}
    (fails : readFilter texts = .error failure) : failure.IsGlob := by
  rw [readFilter] at fails
  rcases failure_of_bind fails with unread | ⟨globs, -, more⟩
  · exact isGlob_of_readGlobs unread
  · cases joined : Glob.Filter.ofGlobs globs with
    | error fault =>
      rw [joined] at more
      exact ⟨_, _, (Except.error.inj more).symm⟩
    | ok filter =>
      rw [joined] at more
      cases more

theorem isGlob_of_entries {tree : FileTree} {dir : ScanDir} {failure : Failure}
    (fails : dir.entries tree = .error failure) : failure.IsGlob := by
  rw [entries] at fails
  split at fails
  next => cases fails
  next =>
    rcases failure_of_bind fails with unread | ⟨includes, -, more⟩
    · exact isGlob_of_readFilter unread
    · rcases failure_of_bind more with unread | ⟨excludes, -, ⟨⟩⟩
      exact isGlob_of_readFilter unread

end ScanDir

theorem isGlob_of_scanDirs {tree : FileTree} {dirs : List ScanDir} {failure : Failure}
    (fails : scanDirs tree dirs = .error failure) : failure.IsGlob := by
  induction dirs with
  | nil => cases fails
  | cons dir rest ih =>
    rw [scanDirs] at fails
    rcases failure_of_bind fails with first | ⟨entries, -, more⟩
    · exact ScanDir.isGlob_of_entries first
    · rcases failure_of_bind more with others | ⟨entries', -, ⟨⟩⟩
      exact ih others

/-! ## Effects of a setup -/

/-- The paths a setup may write to: the declaration file, then the globals file. -/
def Options.outputs (options : Options) : List String :=
  options.declarations.path?.toList ++ options.globalsPath?.toList

namespace Setup

theorem isGlob_of_gather {options : Options} {tree : FileTree} {failure : Failure}
    (fails : gather options tree = .error failure) : failure.IsGlob := by
  rw [gather] at fails
  rcases failure_of_bind fails with unscanned | ⟨entries, -, ⟨⟩⟩
  exact isGlob_of_scanDirs unscanned

/-- An output that was brought to a text: it is not said to be written and the tree is as it was, or
it is said to be written, did not read as the text before and does now. -/
def Updates (path? : Option String) (text : String) (before after : FileTree)
    (written : List String) : Prop :=
  written = [] ∧ after = before ∨
    ∃ path, path? = some path ∧ written = [path] ∧
      before.readText path ≠ .ok text ∧ after.readText path = .ok text

theorem Stage.updates {path? : Option String} {text : String} {before after : FileTree}
    {written : List String} (stage : Stage path? text before after (.ok written)) :
    Updates path? text before after written := by
  cases stage with
  | skipped => exact .inl ⟨rfl, rfl⟩
  | delivered present delivers =>
    cases delivers with
    | kept => exact .inl ⟨rfl, rfl⟩
    | written stale _ _ leads =>
      refine .inr ⟨_, present, rfl, stale, ?_⟩
      rw [FileTree.readText, leads]

/-- A stage that fails does so for an access, and changes no file. -/
theorem Stage.of_error {path? : Option String} {text : String} {before after : FileTree}
    {failure : Failure} (stage : Stage path? text before after (.error failure)) :
    (∃ place trouble, failure = .access place trouble) ∧ MakesDirectories before after := by
  cases stage with
  | delivered _ delivers =>
    cases delivers with
    | failed makes => exact ⟨⟨_, _, rfl⟩, makes⟩

theorem Stage.eq_of_none {text : String} {before after : FileTree}
    {result : Except Failure (List String)} (stage : Stage none text before after result) :
    after = before := by
  cases stage with
  | skipped => rfl
  | delivered present => cases present

theorem Builds.affects {options : Options} {tree after : FileTree} {result : Except Failure Setup}
    (builds : Builds options tree after result) : Affects options.outputs tree after := by
  cases builds with
  | unscanned => exact .refl _ tree
  | undeclared _ declared => exact (stage_of_writeDeclarations declared).affects.trans (.refl _ after)
  | unlisted _ declared listed =>
    exact (stage_of_writeDeclarations declared).affects.trans (stage_of_writeGlobals listed).affects
  | complete _ declared listed =>
    exact (stage_of_writeDeclarations declared).affects.trans (stage_of_writeGlobals listed).affects

/-- A setup with no output to write leaves the tree as it was. -/
theorem Builds.eq_of_outputs {options : Options} {tree after : FileTree}
    {result : Except Failure Setup} (builds : Builds options tree after result)
    (none : options.outputs = []) : after = tree := by
  obtain ⟨noDeclarations, noGlobals⟩ := List.append_eq_nil_iff.mp none
  rw [Option.toList_eq_nil_iff] at noDeclarations noGlobals
  have declares : ∀ {declarations middle result},
      writeDeclarations options declarations tree = (middle, result) → middle = tree := by
    intro declarations middle result declared
    have stage := stage_of_writeDeclarations declared
    rw [noDeclarations] at stage
    exact stage.eq_of_none
  have lists : ∀ {entries middle after result},
      writeGlobals options (declarationsOf entries) middle = (after, result) → after = middle := by
    intro entries middle after result listed
    have stage := stage_of_writeGlobals listed
    rw [noGlobals] at stage
    exact stage.eq_of_none
  cases builds with
  | unscanned => rfl
  | undeclared _ declared => exact declares declared
  | unlisted _ declared listed => exact (lists listed).trans (declares declared)
  | complete _ declared listed => exact (lists listed).trans (declares declared)

theorem Builds.written {options : Options} {tree after : FileTree} {setup : Setup}
    (builds : Builds options tree after (.ok setup)) :
    ∃ first second, setup.written = first ++ second ∧
      Updates options.declarations.path? setup.declarations tree
        (writeDeclarations options setup.declarations tree).1 first ∧
      Updates options.globalsPath? (globalsOf options setup.declarations)
        (writeDeclarations options setup.declarations tree).1 after second := by
  cases builds with
  | @complete entries middle _ first second _ declared listed =>
    refine ⟨first, second, rfl, ?_⟩
    dsimp only
    rw [declared]
    exact ⟨(stage_of_writeDeclarations declared).updates, (stage_of_writeGlobals listed).updates⟩

/-- A setup fails for a glob before anything is written, or for an access. -/
theorem Builds.cause {options : Options} {tree after : FileTree} {failure : Failure}
    (builds : Builds options tree after (.error failure)) :
    failure.IsGlob ∧ after = tree ∨ ∃ place trouble, failure = .access place trouble := by
  cases builds with
  | unscanned fails => exact .inl ⟨isGlob_of_gather fails, rfl⟩
  | undeclared _ declared => exact .inr (stage_of_writeDeclarations declared).of_error.1
  | unlisted _ _ listed => exact .inr (stage_of_writeGlobals listed).of_error.1

/-- What a setup may do to a tree, and what it may come to. -/
structure Confined (options : Options) (tree after : FileTree) (result : Except Failure Setup) :
    Prop where
  /-- No file changes or appears but where an output path leads. -/
  affects : Affects options.outputs tree after
  idle : options.outputs = [] → after = tree
  /-- The outputs that are said to be written are those that were, the declaration file first. -/
  written {setup : Setup} : result = .ok setup →
    ∃ first second, setup.written = first ++ second ∧
      Updates options.declarations.path? setup.declarations tree
        (writeDeclarations options setup.declarations tree).1 first ∧
      Updates options.globalsPath? (globalsOf options setup.declarations)
        (writeDeclarations options setup.declarations tree).1 after second
  cause {failure : Failure} : result = .error failure →
    ∃ cause, failure = .setup cause ∧
      (cause.IsGlob ∧ after = tree ∨ ∃ place trouble, cause = .access place trouble)
  /-- When the declaration file cannot be written, nothing else is. -/
  undeclared {entries : List Entry} {middle : FileTree} {failure : Failure} :
    gather options tree = .ok entries →
    writeDeclarations options (declarationsOf entries) tree = (middle, .error failure) →
    after = middle ∧ result = .error failure.inSetup ∧
      ∀ location contents, after.node? location = some (.file contents) ↔
        tree.node? location = some (.file contents)

theorem run_eq (options : Options) (tree : FileTree) :
    run options tree =
      ((build options tree).1, (build options tree).2.mapError Failure.inSetup) :=
  rfl

theorem build_of_run {options : Options} {tree after : FileTree} {setup : Setup}
    (ran : run options tree = (after, .ok setup)) : build options tree = (after, .ok setup) := by
  rw [run_eq] at ran
  obtain ⟨rfl, succeeds⟩ := Prod.mk.inj ran
  refine Prod.ext rfl ?_
  cases built : (build options tree).2 with
  | error failure =>
    rw [built] at succeeds
    cases succeeds
  | ok setup' =>
    rw [built] at succeeds
    exact succeeds

theorem confined_run (options : Options) (tree : FileTree) :
    Confined options tree (run options tree).1 (run options tree).2 := by
  have builds := builds_build options tree
  refine ⟨builds.affects, builds.eq_of_outputs, ?_, ?_, ?_⟩
  · intro setup succeeds
    rw [build_of_run (Prod.ext rfl succeeds)] at builds
    exact builds.written
  · intro failure fails
    rw [run_eq] at fails ⊢
    cases built : (build options tree).2 with
    | ok setup =>
      rw [built] at fails
      cases fails
    | error cause =>
      rw [built] at fails builds
      obtain rfl := Except.error.inj fails
      refine ⟨cause, ?_, builds.cause⟩
      rcases builds.cause with ⟨⟨_, _, rfl⟩, -⟩ | ⟨_, _, rfl⟩ <;> rfl
  · intro entries middle failure gathered declared
    -- the declarations fail before the globals are tried
    have stops : build options tree = (middle, .error failure) := by
      rw [build, gathered]
      dsimp only
      rw [← declarationsOf, declared]
    obtain ⟨-, makes⟩ := (stage_of_writeDeclarations declared).of_error
    rw [run, stops]
    refine ⟨rfl, rfl, fun location contents => ?_⟩
    rcases makes.node?_eq location with kept | ⟨absent, made⟩
    · rw [kept]
    · simp [absent, made]

end Setup

theorem Options.outputs_withoutOutputs (options : Options) : options.withoutOutputs.outputs = [] :=
  rfl

/-- **A setup is confined to its outputs**, and the command that transforms a script changes
nothing. -/
theorem Setup.run_confined (tree : FileTree) :
    (∀ options, Confined options tree (run options tree).1 (run options tree).2) ∧
      ∀ file config, (Command.transform tree file config).tree = tree := by
  refine ⟨fun options => confined_run options tree, fun file config => ?_⟩
  rw [Command.transform]
  split
  next => rfl
  next options _ =>
    have idle := (confined_run options.withoutOutputs tree).idle options.outputs_withoutOutputs
    split
    next after cause ran =>
      rw [ran] at idle
      exact idle
    next after setup ran =>
      rw [ran] at idle
      split
      · exact idle
      · exact idle

end ImportSupply
