import ImportSupply.Proofs.Export.Generated
import ImportSupply.Proofs.FileTree.Revisiting
import ImportSupply.Proofs.Setup.Confinement

/-!
# Setting up twice

A setup that is run again on the tree it left behind makes the same registry and the same
declaration file, and writes nothing (`Setup.run_again`). What the first run wrote has no exports, so
the second scan finds the entries of the first, although it may come upon the outputs and the
directories made for them (`ScanDir.entries_eq`). Both outputs are then up to date.

One condition is needed beside the obvious ones (`Setup.Repeatable`): the directories made for the
outputs must not open a way to what was there already. A scan of `out/../lib` finds nothing as long
as there is no `out`, and all of `lib` once an output has been written there
(`Setup.run_again_reveals`).
-/

namespace ImportSupply

open FileTree (Extends Reveals Keeps components pathBelow)

/-- What stood where none of the paths leads has been left as it is. -/
theorem Affects.node?_eq_of_apart {paths : List String} {before after : FileTree}
    (affects : Affects paths before after) {location : Location} {node : Node}
    (found : before.node? location = some node)
    (apart : ∀ path ∈ paths, after.locationOf? path ≠ some location) :
    after.node? location = before.node? location := by
  rcases affects.nodes location with kept | ⟨_, absent, _⟩ | ⟨_, path, member, _, taken⟩
  · exact kept
  · rw [found] at absent
    cases absent
  · exact absurd (FileTree.locationOf?_eq_some_iff.mpr ⟨_, taken⟩) (apart path member)

/-! ## Generated files -/

/-- What is a text without exports, under every specifier. -/
def Contents.IsBarren (contents : Contents) : Prop :=
  ∃ text : String, contents = .text text ∧
    ∀ source types, Export.entries text.toList source types = []

theorem isBarren_declarationsOf {entries : List Entry}
    (plain : ∀ entry ∈ (Registry.ofEntries entries).entries, entry.Plain) :
    (Contents.text (Setup.declarationsOf entries)).IsBarren := by
  refine ⟨_, rfl, fun source types => ?_⟩
  rw [Setup.declarationsOf, String.toList_ofList]
  exact Export.entries_declarations plain source types

theorem isBarren_globalsOf (options : Options) (declarations : String) :
    (Contents.text (Setup.globalsOf options declarations)).IsBarren := by
  refine ⟨_, rfl, fun source types => ?_⟩
  rw [Setup.globalsOf, String.toList_ofList]
  exact Export.entries_globals _ _ source types

namespace Setup.Stage

variable {path? : Option String} {text : String} {before after : FileTree} {written : List String}

/-- A stage extends the tree by its output. -/
theorem extension (stage : Stage path? text before after (.ok written))
    (barren : (Contents.text text).IsBarren) : Extends Contents.IsBarren before after := by
  cases stage with
  | skipped => exact .refl before
  | delivered _ delivers =>
    cases delivers with
    | kept => exact .refl before
    | written _ makes puts _ =>
      refine (Extends.of_makesDirectories makes).trans (.of_puts puts fun contents same => ?_)
      cases same
      exact barren

/-- A stage changes no file but those it says to have written. -/
theorem affects_written (stage : Stage path? text before after (.ok written)) :
    Affects written before after := by
  cases stage with
  | skipped => exact .refl _ before
  | delivered _ delivers =>
    have affects := delivers.affects
    cases delivers with
    | kept => exact .refl _ before
    | written => exact affects

theorem eq_of_mem_written (stage : Stage path? text before after (.ok written)) {path : String}
    (member : path ∈ written) : path? = some path := by
  cases stage with
  | skipped => cases member
  | delivered present delivers =>
    cases delivers with
    | kept => cases member
    | written =>
      rw [List.mem_singleton.mp member]
      exact present

/-- Behind a stage its output is up to date. -/
theorem isUpToDate (stage : Stage path? text before after (.ok written)) {path : String}
    (present : path? = some path) : Output.isUpToDate after path text = true := by
  cases stage with
  | skipped absent =>
    rw [absent] at present
    cases present
  | delivered present' delivers =>
    obtain rfl := Option.some.inj (present.symm.trans present')
    cases delivers with
    | kept reads same =>
      rw [Output.isUpToDate, reads]
      exact beq_iff_eq.mpr same
    | written _ _ _ leads =>
      rw [Output.isUpToDate, FileTree.readText, leads]
      exact beq_self_eq_true _

/-- A stage leaves a file up to date that is not its own output. -/
theorem isUpToDate_of_apart (stage : Stage path? text before after (.ok written))
    {path text' : String} (current : Output.isUpToDate before path text' = true)
    (apart : ∀ other ∈ path?, after.locationOf? path ≠ after.locationOf? other) :
    Output.isUpToDate after path text' = true := by
  have affects := stage.affects_written
  obtain ⟨existing, reads⟩ : ∃ existing, before.readText path = .ok existing := by
    rw [Output.isUpToDate] at current
    split at current
    next existing reads => exact ⟨existing, reads⟩
    next => cases current
  obtain ⟨location, leads⟩ := FileTree.exists_resolve_of_readText reads
  obtain ⟨contents, leads'⟩ := affects.grows.resolve_file leads
  have kept : after.node? location = before.node? location := by
    refine affects.node?_eq_of_apart (FileTree.node?_of_resolve leads) fun other member taken => ?_
    apply apart other (stage.eq_of_mem_written member)
    rw [FileTree.locationOf?_eq_some_iff.mpr ⟨_, leads'⟩, taken]
  have same : after.readText path = before.readText path := by
    rw [FileTree.node?_of_resolve leads, FileTree.node?_of_resolve leads', Option.some.injEq,
      Node.file.injEq] at kept
    rw [FileTree.readText, leads', kept, reads]
  rw [Output.isUpToDate, same]
  exact current

end Setup.Stage

/-! ## Scanning again -/

namespace ScanDir

/-- A file that contributes entries: its directory's globs want it, and it has exports. -/
def Contributes (dir : ScanDir) (file : FoundFile) : Prop :=
  ∃ includes excludes, readFilter dir.includes = .ok includes ∧
    readFilter dir.excludes = .ok excludes ∧ isWanted includes excludes file = true ∧
      dir.fileEntries file ≠ []

theorem flatMap_fileEntries_filter (dir : ScanDir) (wanted : FoundFile → Bool)
    (files : List FoundFile) :
    (files.filter wanted).flatMap dir.fileEntries =
      (files.filter fun file => wanted file && !(dir.fileEntries file).isEmpty).flatMap
        dir.fileEntries := by
  induction files with
  | nil => rfl
  | cons file files ih =>
    rw [List.filter_cons, List.filter_cons]
    cases wanted file with
    | false => exact ih
    | true =>
      cases entries_eq : dir.fileEntries file with
      | nil => simp [entries_eq, ih]
      | cons entry entries => simp [entries_eq, ih]

/-- The entries of a directory whose globs can be read, whether or not it is there. -/
theorem entries_of_readFilter {tree : FileTree} {dir : ScanDir} {includes excludes : Glob.Filter}
    (readable : readFilter dir.includes = .ok includes)
    (readable' : readFilter dir.excludes = .ok excludes) :
    dir.entries tree = .ok (((tree.walk dir.path).filter fun file =>
      isWanted includes excludes file && !(dir.fileEntries file).isEmpty).flatMap
        dir.fileEntries) := by
  rw [← flatMap_fileEntries_filter, entries]
  by_cases isDirectory : tree.isDirectory dir.path = true
  · rw [isDirectory, readable, readable']
    rfl
  · have nothing : tree.walk dir.path = [] := by
      apply FileTree.walk_eq_nil
      rintro ⟨location, leads⟩
      apply isDirectory
      rw [FileTree.isDirectory, leads]
    rw [if_pos (by simpa using isDirectory), nothing]
    rfl

theorem entries_eq {tree after : FileTree} {dir : ScanDir} {includes excludes : Glob.Filter}
    (wellFormed : tree.WellFormed) (extension : Extends Contents.IsBarren tree after)
    (links : tree.LinksSteady after dir.path)
    (steady : ¬Reveals tree after [] (components dir.path))
    (readable : readFilter dir.includes = .ok includes)
    (readable' : readFilter dir.excludes = .ok excludes)
    (kept : Keeps tree after dir.path
      (fun file => isWanted includes excludes file && !(dir.fileEntries file).isEmpty)
      (tree.walk dir.path)) :
    dir.entries after = dir.entries tree := by
  have blind (file : FoundFile) (barren : file.contents.IsBarren) :
      (isWanted includes excludes file && !(dir.fileEntries file).isEmpty) = false := by
    obtain ⟨text, text_eq, none⟩ := barren
    have nothing : dir.fileEntries file = [] := by
      rw [fileEntries, text_eq]
      exact none _ _
    rw [nothing]
    simp
  rw [entries_of_readFilter readable readable', entries_of_readFilter readable readable',
    FileTree.filter_walk_eq wellFormed extension links blind steady kept]

end ScanDir

theorem scanDirs_congr {tree after : FileTree} {dirs : List ScanDir}
    (same : ∀ dir ∈ dirs, dir.entries after = dir.entries tree) :
    scanDirs after dirs = scanDirs tree dirs := by
  induction dirs with
  | nil => rfl
  | cons dir dirs ih =>
    rw [scanDirs, scanDirs, same dir List.mem_cons_self,
      ih fun other member => same other (List.mem_cons_of_mem dir member)]

namespace Setup

/-! ## Running again -/

/-- A setup that left a tree behind could read its globs, registered plain entries only, and wrote
its outputs to two files that had contributed no entries. -/
structure Orderly (options : Options) (tree after : FileTree) (setup : Setup) : Prop where
  globs : ∀ dir ∈ options.scanDirs, ∃ includes excludes,
    ScanDir.readFilter dir.includes = .ok includes ∧ ScanDir.readFilter dir.excludes = .ok excludes
  plain : ∀ entry ∈ setup.registry.entries, entry.Plain
  apart : ∀ declared ∈ options.declarations.path?, ∀ listed ∈ options.globalsPath?,
    after.locationOf? declared ≠ after.locationOf? listed
  spared : ∀ dir ∈ options.scanDirs, ∀ file ∈ tree.walk dir.path, dir.Contributes file →
    ∀ path ∈ setup.written,
      tree.locationOf? (pathBelow dir.path file.relative) ≠ after.locationOf? path

/-- In the tree it left behind, no path of a directory that is scanned, and no link that a scan
comes upon, leads to what was there already and was not reached by it. -/
structure Repeatable (options : Options) (tree after : FileTree) (setup : Setup) : Prop
    extends Orderly options tree after setup where
  starts : ∀ dir ∈ options.scanDirs, ¬Reveals tree after [] (components dir.path)
  links : ∀ dir ∈ options.scanDirs, tree.LinksSteady after dir.path

theorem writeOutput_of_isUpToDate {tree : FileTree} {path text : String}
    (current : Output.isUpToDate tree path text = true) :
    writeOutput tree path (.ok text) = (tree, .ok []) := by
  rw [writeOutput, Output.writeIfChanged, if_pos current]
  rfl

/-- The stages of a setup that succeeded. -/
theorem exists_stages_of_run {options : Options} {tree after : FileTree} {setup : Setup}
    (ran : run options tree = (after, .ok setup)) :
    ∃ entries middle first second, gather options tree = .ok entries ∧
      Stage options.declarations.path? (declarationsOf entries) tree middle (.ok first) ∧
      Stage options.globalsPath? (globalsOf options (declarationsOf entries)) middle after
        (.ok second) ∧
      setup = ⟨Registry.ofEntries entries, declarationsOf entries, first ++ second⟩ := by
  have builds := builds_build options tree
  rw [build_of_run ran] at builds
  cases builds with
  | @complete entries middle _ first second gathered declared listed =>
    exact ⟨entries, middle, first, second, gathered, stage_of_writeDeclarations declared,
      stage_of_writeGlobals listed, rfl⟩

/-- A setup whose outputs are up to date writes nothing. -/
theorem run_of_isUpToDate {options : Options} {tree : FileTree} {entries : List Entry}
    (gathered : gather options tree = .ok entries)
    (declared : ∀ path ∈ options.declarations.path?,
      Output.isUpToDate tree path (declarationsOf entries) = true)
    (listed : ∀ path ∈ options.globalsPath?,
      Output.isUpToDate tree path (globalsOf options (declarationsOf entries)) = true) :
    run options tree =
      (tree, .ok ⟨Registry.ofEntries entries, declarationsOf entries, []⟩) := by
  have first : writeDeclarations options (declarationsOf entries) tree = (tree, .ok []) := by
    rw [writeDeclarations]
    split
    next => rfl
    next path present => exact writeOutput_of_isUpToDate (declared path present)
  have second : writeGlobals options (declarationsOf entries) tree = (tree, .ok []) := by
    rw [writeGlobals, globalsText_eq]
    split
    next enabled =>
      refine writeOutput_of_isUpToDate (listed _ ?_)
      rw [Options.globalsPath?, if_pos enabled]
      rfl
    next => rfl
  rw [run_eq, build, gathered]
  dsimp only
  rw [← declarationsOf, first]
  dsimp only
  rw [second]
  rfl

/-- **A setup is idempotent**: run again on the tree it left behind it makes the same, writes
nothing and leaves the tree as it is. -/
theorem run_again {options : Options} {tree after : FileTree} {setup : Setup}
    (wellFormed : tree.WellFormed) (ran : run options tree = (after, .ok setup))
    (repeatable : Repeatable options tree after setup) :
    run options after = (after, .ok { setup with written := [] }) := by
  obtain ⟨entries, middle, first, second, gathered, declares, lists, rfl⟩ :=
    exists_stages_of_run ran
  have extension : Extends Contents.IsBarren tree after :=
    (declares.extension (isBarren_declarationsOf repeatable.plain)).trans
      (lists.extension (isBarren_globalsOf _ _))
  have affects := declares.affects_written.trans lists.affects_written
  -- The files written export nothing, and no file that counts is written over, so each scan finds
  -- what it found.
  have same : ∀ dir ∈ options.scanDirs, dir.entries after = dir.entries tree := by
    intro dir member
    obtain ⟨includes, excludes, readable, readable'⟩ := repeatable.globs dir member
    refine ScanDir.entries_eq wellFormed extension (repeatable.links dir member)
      (repeatable.starts dir member) readable readable' fun file found counts place leads => ?_
    rw [Bool.and_eq_true, Bool.not_eq_true', List.isEmpty_eq_false_iff] at counts
    obtain ⟨node, resolves⟩ := FileTree.locationOf?_eq_some_iff.mp leads
    refine affects.node?_eq_of_apart (FileTree.node?_of_resolve resolves) fun path written taken => ?_
    apply repeatable.spared dir member file found
      ⟨includes, excludes, readable, readable', counts⟩ path written
    rw [leads, taken]
  have gathered' : gather options after = .ok entries := by
    rw [gather, scanDirs_congr same, ← gather, gathered]
  refine run_of_isUpToDate gathered' (fun path present => ?_) fun path present => ?_
  · exact lists.isUpToDate_of_apart (declares.isUpToDate present)
      fun other listed => repeatable.apart path present other listed
  · exact lists.isUpToDate present

/-! ## Outputs among the scanned files -/

theorem eq_ok_of_toOption {α : Type} {result : Except Failure α} {value : α}
    (succeeds : result.toOption = some value) : result = .ok value := by
  cases result with
  | error failure => cases succeeds
  | ok value' => exact congrArg Except.ok (Option.some.inj succeeds)

theorem exists_ok_of_toOption {α : Type} {result : Except Failure α}
    (succeeds : result.toOption.isSome = true) : ∃ value, result = .ok value := by
  obtain ⟨value, found⟩ := Option.isSome_iff_exists.mp succeeds
  exact ⟨value, eq_ok_of_toOption found⟩

/-- A script, and a link to a directory that is not there yet. -/
def linkedTree : FileTree :=
  ⟨[(["lib"], .directory), (["lib", "x.ts"], .file (.text "export const x = 1")),
    (["lib", "made"], .link "../gen")]⟩

/-- Options that scan all files of a directory, write one output into it and the other where its link
leads. -/
def linkedOptions : Options :=
  ⟨[], [], [.detailed ⟨"lib", true, ["**"], []⟩], .file "gen/auto.d.ts",
    ⟨true, "lib/globals.json", .flag true⟩, false⟩

def linkedSetup : Setup :=
  ⟨Registry.ofEntries [.value "x" "lib/x"],
    Declarations.banner ++ "\nexport \x7b\x7d\n\ndeclare global \x7b\n" ++
      "  const x: typeof import('lib/x')['x']\n" ++ "\x7d\n",
    ["gen/auto.d.ts", "lib/globals.json"]⟩

def linkedAfter : FileTree :=
  ⟨linkedTree.nodes ++ [(["gen"], .directory),
    (["gen", "auto.d.ts"], .file (.text linkedSetup.declarations)),
    (["lib", "globals.json"],
      .file (.text "\x7b\n  \"globals\": \x7b\n    \"x\": true\n  \x7d\n\x7d"))]⟩

theorem run_linked : run linkedOptions linkedTree = (linkedAfter, .ok linkedSetup) := by
  have both : (run linkedOptions linkedTree).1 = linkedAfter ∧
      (run linkedOptions linkedTree).2.toOption = some linkedSetup := by
    decide +kernel
  exact Prod.ext both.1 (eq_ok_of_toOption both.2)

theorem repeatable_linked : Repeatable linkedOptions linkedTree linkedAfter linkedSetup where
  globs dir member := by
    obtain rfl := List.mem_singleton.mp member
    obtain ⟨includes, readable⟩ := exists_ok_of_toOption
      (by decide +kernel : (ScanDir.readFilter ["**"]).toOption.isSome = true)
    exact ⟨includes, ⟨[]⟩, readable, rfl⟩
  plain := by decide +kernel
  apart := by decide +kernel
  spared := by
    have apart : ∀ dir ∈ linkedOptions.scanDirs, ∀ file ∈ linkedTree.walk dir.path,
        ∀ path ∈ linkedSetup.written,
          linkedTree.locationOf? (pathBelow dir.path file.relative) ≠
            linkedAfter.locationOf? path := by
      decide +kernel
    exact fun dir member file found _ => apart dir member file found
  starts := by decide +kernel
  links dir _ relative location name target _ found := by
    have member := FileTree.mem_nodes_of_node? (by simp) found
    obtain ⟨place, rfl⟩ : location ++ [name] = ["lib"] ++ ["made"] ∧ target = "../gen" := by
      simpa [linkedTree] using member
    obtain ⟨rfl, rfl⟩ := List.append_singleton_inj.mp place
    decide +kernel

/-- The second scan comes upon both outputs, one of them through a link. -/
theorem run_again_linked :
    (∀ way ∈ [["globals.json"], ["made", "auto.d.ts"]],
      ∃ file ∈ linkedAfter.walk "lib", file.relative = way) ∧
    run linkedOptions linkedTree = (linkedAfter, .ok linkedSetup) ∧
      run linkedOptions linkedAfter = (linkedAfter, .ok { linkedSetup with written := [] }) := by
  refine ⟨fun way member => ?_, run_linked, run_again (by decide +kernel) run_linked repeatable_linked⟩
  have found : ∀ way ∈ [["globals.json"], ["made", "auto.d.ts"]], way ∈ (linkedAfter.filesBelow
      "lib" linkedAfter.walkDepth [["lib"]] [] ["lib"]).map FoundFile.relative := by
    decide +kernel
  obtain ⟨file, below, relative_eq⟩ := List.mem_map.mp (found way member)
  exact ⟨file, (FileTree.mem_walk rfl).mpr below, relative_eq⟩

/-! ## A scan of what an output opens -/

/-- A script in a directory. -/
def detourTree : FileTree :=
  ⟨[(["lib"], .directory), (["lib", "x.ts"], .file (.text "export const x = 1"))]⟩

/-- Options that scan the directory by a path through the directory of the output. -/
def detourOptions : Options :=
  ⟨[], [], [.bare "out/../lib"], .file "out/auto.d.ts", .default, false⟩

def detourSetup : Setup :=
  ⟨Registry.ofEntries [],
    Declarations.banner ++ "\nexport \x7b\x7d\n\ndeclare global \x7b\n" ++ "\x7d\n",
    ["out/auto.d.ts"]⟩

def detourAfter : FileTree :=
  ⟨detourTree.nodes ++ [(["out"], .directory),
    (["out", "auto.d.ts"], .file (.text detourSetup.declarations))]⟩

/-- An orderly setup need not be repeatable: here the second run registers a name that the first one
could not find. -/
theorem run_again_reveals :
    detourTree.WellFormed ∧ run detourOptions detourTree = (detourAfter, .ok detourSetup) ∧
      Orderly detourOptions detourTree detourAfter detourSetup ∧
      run detourOptions detourAfter ≠ (detourAfter, .ok { detourSetup with written := [] }) := by
  have both : (run detourOptions detourTree).1 = detourAfter ∧
      (run detourOptions detourTree).2.toOption = some detourSetup := by
    decide +kernel
  refine ⟨by decide +kernel, Prod.ext both.1 (eq_ok_of_toOption both.2), ?_, fun again => ?_⟩
  · have readable : (ScanDir.readFilter ScanDir.defaultIncludes).toOption.isSome = true ∧
        (ScanDir.readFilter ScanDir.defaultExcludes).toOption.isSome = true := by
      decide +kernel
    have nothing : detourTree.walk "out/../lib" = [] := by decide +kernel
    refine ⟨fun dir member => ?_, by decide, by decide, fun dir member file found => ?_⟩
    · obtain rfl := List.mem_singleton.mp member
      obtain ⟨includes, reads⟩ := exists_ok_of_toOption readable.1
      obtain ⟨excludes, reads'⟩ := exists_ok_of_toOption readable.2
      exact ⟨includes, excludes, reads, reads'⟩
    · obtain rfl := List.mem_singleton.mp member
      rw [show (DirSpec.scanDir (.bare "out/../lib")).path = "out/../lib" from rfl, nothing] at found
      cases found
  · obtain ⟨entries, middle, first, second, gathered, -, -, same⟩ := exists_stages_of_run again
    have found : (gather detourOptions detourAfter).toOption =
        some [.value "x" "out/../lib/x"] := by
      decide +kernel
    rw [gathered] at found
    obtain rfl := Option.some.inj found
    have none := congrArg (fun setup => setup.registry.entries) same
    cases none

end Setup

end ImportSupply
