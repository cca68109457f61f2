import ImportSupply.Proofs.FileTree.Growth
import ImportSupply.Setup

/-!
# The stages of a setup

A setup gathers entries, delivers the declaration file and then the globals file, and stops at the
first of these stages that fails. What each stage can do to the tree is said once here (`Delivers`,
`Stage`, `Builds`). The generated texts never stand in the way: a declaration file is never blank,
so there is always a globals file for it (`globalsText_eq`).
-/

namespace ImportSupply

open FileTree (MakesDirectories)

namespace Output

/-- What delivering a text to a path can do to a tree, and the paths that are then said to be
written. -/
inductive Delivers (path text : String) (before : FileTree) :
    FileTree → Except Failure (List String) → Prop
  | kept {existing : String} : before.readText path = .ok existing →
      Sha256.hex existing = Sha256.hex text → Delivers path text before before (.ok [])
  | written {made : FileTree} {location : Location} : before.readText path ≠ .ok text →
      MakesDirectories before made → made.Puts location (.file (.text text)) →
      (made.insert location (.file (.text text))).resolve .visit path =
        .ok (.taken location (.file (.text text))) →
      Delivers path text before (made.insert location (.file (.text text))) (.ok [path])
  | failed {after : FileTree} {place : String} {trouble : Trouble} :
      MakesDirectories before after →
      Delivers path text before after (.error (.access place trouble))

theorem makesDirectories_makeDirectory (tree : FileTree) (path : String) :
    MakesDirectories tree (makeDirectory tree path).1 := by
  rw [makeDirectory]
  split
  next => exact .refl
  next directory _ => exact tree.makesDirectories_makeMissing _

theorem exists_access_of_makeDirectory {tree : FileTree} {path : String} {failure : Failure}
    (fails : (makeDirectory tree path).2 = .error failure) :
    ∃ place trouble, failure = .access place trouble := by
  rw [makeDirectory] at fails
  split at fails
  next => cases fails
  next directory _ =>
    dsimp only at fails
    generalize (tree.makeDirectories directory).2 = result at fails
    cases result with
    | ok => cases fails
    | error trouble => exact ⟨directory, trouble, (Except.error.inj fails).symm⟩

/-- What writing a text to a path can come to: directories are made, and then the text is put into a
file to which the path leads. -/
theorem write_cases (tree : FileTree) (path text : String) :
    (∃ after place trouble, MakesDirectories tree after ∧
      write tree path text = (after, .error (.access place trouble))) ∨
    ∃ made location, MakesDirectories tree made ∧ made.Puts location (.file (.text text)) ∧
      write tree path text = (made.insert location (.file (.text text)), .ok ()) ∧
      (made.insert location (.file (.text text))).resolve .visit path =
        .ok (.taken location (.file (.text text))) := by
  have makes := makesDirectories_makeDirectory tree path
  have access := @exists_access_of_makeDirectory tree path
  rw [write]
  generalize makeDirectory tree path = made at makes access
  obtain ⟨made, failure | _⟩ := made
  · obtain ⟨place, trouble, rfl⟩ := access rfl
    exact .inl ⟨made, place, trouble, makes, rfl⟩
  · dsimp only
    rw [FileTree.writeFile]
    cases writable : made.writableAt path with
    | error trouble => exact .inl ⟨made, path, trouble, makes, rfl⟩
    | ok location =>
      obtain ⟨puts, leads⟩ := FileTree.puts_of_writableAt writable (.text text)
      exact .inr ⟨made, location, makes, puts, rfl, leads⟩

theorem delivers_writeOutput (tree : FileTree) (path text : String) :
    Delivers path text tree (Setup.writeOutput tree path (.ok text)).1
      (Setup.writeOutput tree path (.ok text)).2 := by
  rw [Setup.writeOutput, writeIfChanged]
  by_cases current : isUpToDate tree path text = true
  · rw [if_pos current]
    rw [isUpToDate] at current
    split at current
    next existing reads => exact .kept reads (eq_of_beq current)
    next => cases current
  · rw [if_neg current]
    have stale : tree.readText path ≠ .ok text := by
      intro reads
      rw [isUpToDate, reads] at current
      exact current (beq_self_eq_true _)
    rcases write_cases tree path text with ⟨after, place, trouble, makes, fails⟩ |
      ⟨made, location, makes, puts, writes, leads⟩
    · rw [fails]
      exact .failed makes
    · rw [writes]
      exact .written stale makes puts leads

end Output

/-- The path of the globals file, if it is written. -/
def Options.globalsPath? (options : Options) : Option String :=
  if options.linter.enabled then some options.linter.path else none

namespace Setup

/-- The declaration file of some entries. -/
def declarationsOf (entries : List Entry) : String :=
  String.ofList (Declarations.text (Registry.ofEntries entries))

/-- The globals file that goes with a declaration file. -/
def globalsOf (options : Options) (declarations : String) : String :=
  String.ofList
    ((Globals.toJson options.linter.setting (Globals.names declarations.toList)).indented 0)

/-- An output of a setup, which is delivered if there is a path for it. -/
inductive Stage (path? : Option String) (text : String) (before : FileTree) :
    FileTree → Except Failure (List String) → Prop
  | skipped : path? = none → Stage path? text before before (.ok [])
  | delivered {path : String} {after : FileTree} {result : Except Failure (List String)} :
      path? = some path → Output.Delivers path text before after result →
      Stage path? text before after result

theorem stage_of_writeDeclarations {options : Options} {declarations : String}
    {tree after : FileTree} {result : Except Failure (List String)}
    (declared : writeDeclarations options declarations tree = (after, result)) :
    Stage options.declarations.path? declarations tree after result := by
  have delivers := Output.delivers_writeOutput tree
  rw [writeDeclarations] at declared
  split at declared
  next absent =>
    obtain ⟨rfl, rfl⟩ := Prod.mk.inj declared
    exact .skipped absent
  next path present =>
    specialize delivers path declarations
    rw [declared] at delivers
    exact .delivered present delivers

/-- A declaration file is not blank, and has a globals file. -/
theorem globalsText_eq (options : Options) (entries : List Entry) :
    globalsText options.linter.setting (declarationsOf entries) =
      .ok (globalsOf options (declarationsOf entries)) := by
  have shown : Text.isBlankText (declarationsOf entries).toList = false := by
    rw [declarationsOf, String.toList_ofList, Declarations.text]
    rfl
  rw [globalsText, Globals.text?, shown]
  rfl

theorem stage_of_writeGlobals {options : Options} {entries : List Entry} {tree after : FileTree}
    {result : Except Failure (List String)}
    (listed : writeGlobals options (declarationsOf entries) tree = (after, result)) :
    Stage options.globalsPath? (globalsOf options (declarationsOf entries)) tree after result := by
  have delivers := Output.delivers_writeOutput tree options.linter.path
    (globalsOf options (declarationsOf entries))
  rw [writeGlobals, globalsText_eq] at listed
  rw [Options.globalsPath?]
  split at listed
  next enabled =>
    rw [listed] at delivers
    rw [if_pos enabled]
    exact .delivered rfl delivers
  next disabled =>
    obtain ⟨rfl, rfl⟩ := Prod.mk.inj listed
    rw [if_neg disabled]
    exact .skipped rfl

/-- What a setup can come to, stage by stage. -/
inductive Builds (options : Options) (tree : FileTree) : FileTree → Except Failure Setup → Prop
  | unscanned {failure : Failure} : gather options tree = .error failure →
      Builds options tree tree (.error failure)
  | undeclared {entries : List Entry} {after : FileTree} {failure : Failure} :
      gather options tree = .ok entries →
      writeDeclarations options (declarationsOf entries) tree = (after, .error failure) →
      Builds options tree after (.error failure)
  | unlisted {entries : List Entry} {middle after : FileTree} {first : List String}
      {failure : Failure} :
      gather options tree = .ok entries →
      writeDeclarations options (declarationsOf entries) tree = (middle, .ok first) →
      writeGlobals options (declarationsOf entries) middle = (after, .error failure) →
      Builds options tree after (.error failure)
  | complete {entries : List Entry} {middle after : FileTree} {first second : List String} :
      gather options tree = .ok entries →
      writeDeclarations options (declarationsOf entries) tree = (middle, .ok first) →
      writeGlobals options (declarationsOf entries) middle = (after, .ok second) →
      Builds options tree after
        (.ok ⟨Registry.ofEntries entries, declarationsOf entries, first ++ second⟩)

theorem builds_build (options : Options) (tree : FileTree) :
    Builds options tree (build options tree).1 (build options tree).2 := by
  rw [build]
  split
  next failure fails => exact .unscanned fails
  next entries gathered =>
    dsimp only
    split
    next after failure declared => exact .undeclared gathered declared
    next middle first declared =>
      split
      next after failure listed => exact .unlisted gathered declared listed
      next after second listed => exact .complete gathered declared listed

end Setup

end ImportSupply
