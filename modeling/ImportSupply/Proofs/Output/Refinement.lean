import ImportSupply.Proofs.FileTree.Revisiting
import ImportSupply.Proofs.FileTree.Rewriting
import ImportSupply.Proofs.FileTree.Sameness
import ImportSupply.Proofs.Setup.Stages

/-!
# Writing only what has changed

The guarded writer leaves a file alone that holds the text already; the plain writer makes the
directory and writes the file every time. Where the guard skips, the plain writer makes nothing and
puts the same file in its place (`write_of_holds`), so one call leaves the same nodes with either
(`node?_writeIfChanged`), and so does every run of calls (`writeIfChanged_refines_write`), also one
in which calls fail. The guard compares digests, so this is said of runs that compare no two
different texts with one digest (`Distinguishes`).
-/

namespace ImportSupply.Output

open FileTree (Alike)

/-- A path leads to a file that holds exactly a text. -/
def Holds (tree : FileTree) (path text : String) : Prop :=
  ∃ location, tree.resolve .visit path = .ok (.taken location (.file (.text text)))

theorem holds_iff {tree : FileTree} {path text : String} :
    Holds tree path text ↔ tree.readText path = .ok text := by
  constructor
  · rintro ⟨location, leads⟩
    rw [FileTree.readText, leads]
  · exact FileTree.exists_resolve_of_readText

/-! ## Where the guard skips -/

/-- The plain writer puts a file in place of itself that holds the text already. -/
theorem write_of_holds {tree : FileTree} {path text : String} (holds : Holds tree path text) :
    ∃ location, tree.node? location = some (.file (.text text)) ∧
      write tree path text = (tree.insert location (.file (.text text)), .ok ()) := by
  obtain ⟨location, leads⟩ := holds
  have made : makeDirectory tree path = (tree, .ok ()) := by
    rw [makeDirectory]
    split
    next => rfl
    next directory isParent =>
      obtain ⟨place, there⟩ := FileTree.exists_resolve_directoryOf leads isParent
      rw [FileTree.makeDirectories_of_isDirectory there]
      rfl
  refine ⟨location, FileTree.node?_of_resolve leads, ?_⟩
  rw [write, made]
  dsimp only
  rw [FileTree.writeFile, FileTree.writableAt_of_resolve leads]
  rfl

/-- A node put in place of itself changes nothing. -/
theorem node?_insert_self {tree : FileTree} {location : Location} {contents : Contents}
    (found : tree.node? location = some (.file contents)) :
    (tree.insert location (.file contents)).node? = tree.node? := by
  have inner : location ≠ [] := by
    rintro rfl
    cases found
  funext other
  rw [FileTree.node?_insert inner]
  split
  next same => rw [same, found]
  next => rfl

theorem insert_self {tree : FileTree} (distinct : tree.keys.Nodup) {location : Location}
    {contents : Contents} (found : tree.node? location = some (.file contents)) :
    tree.insert location (.file contents) = tree := by
  have inner : location ≠ [] := by
    rintro rfl
    cases found
  have present : (tree.nodes.lookup location).isSome = true := by
    rw [← FileTree.node?_of_ne_nil inner, found]
    rfl
  rw [FileTree.insert, if_pos present]
  congr 1
  nth_rewrite 2 [← List.map_id tree.nodes]
  refine List.map_congr_left fun entry member => ?_
  obtain ⟨key, node⟩ := entry
  split
  next here =>
    obtain rfl := eq_of_beq here
    have own := FileTree.node?_of_mem_nodes distinct inner member
    rw [found] at own
    rw [← Option.some.inj own]
    rfl
  next => rfl

/-! ## One call -/

/-- The digests of a text and of what a path reads as tell the two apart. -/
def Tells (tree : FileTree) (path text : String) : Prop :=
  ∀ existing, tree.readText path = .ok existing → Sha256.hex existing = Sha256.hex text →
    existing = text

instance (tree : FileTree) (path text : String) : Decidable (Tells tree path text) :=
  match reads : tree.readText path with
  | .ok existing =>
      decidable_of_iff (Sha256.hex existing = Sha256.hex text → existing = text)
        ⟨fun told _ reads' => Except.ok.inj (reads.symm.trans reads') ▸ told,
          fun tells => tells existing reads⟩
  | .error _ => .isTrue fun _ reads' => nomatch reads.symm.trans reads'

theorem isUpToDate_iff {tree : FileTree} {path text : String} (tells : Tells tree path text) :
    isUpToDate tree path text = true ↔ Holds tree path text := by
  rw [holds_iff, isUpToDate]
  cases reads : tree.readText path with
  | error trouble => simp
  | ok existing =>
    rw [beq_iff_eq, Except.ok.injEq]
    exact ⟨tells existing reads, congrArg Sha256.hex⟩

/-- What the guarded writer does: nothing to a file that holds the text, and else what the plain one
does. -/
theorem writeIfChanged_cases {tree : FileTree} {path text : String} (tells : Tells tree path text) :
    Holds tree path text ∧ writeIfChanged tree path text = (tree, .ok false) ∨
    ¬Holds tree path text ∧ writeIfChanged tree path text =
      ((write tree path text).1, (write tree path text).2.map fun _ => true) := by
  rw [← isUpToDate_iff tells, writeIfChanged]
  split
  next current => exact .inl ⟨current, rfl⟩
  next stale => exact .inr ⟨stale, rfl⟩

theorem node?_writeIfChanged {tree : FileTree} {path text : String} (tells : Tells tree path text) :
    (writeIfChanged tree path text).1.node? = (write tree path text).1.node? := by
  rcases writeIfChanged_cases tells with ⟨holds, skips⟩ | ⟨-, writes⟩
  · obtain ⟨location, found, written⟩ := write_of_holds holds
    rw [skips, written]
    exact (node?_insert_self found).symm
  · rw [writes]

theorem writeIfChanged_fst {tree : FileTree} (distinct : tree.keys.Nodup) {path text : String}
    (tells : Tells tree path text) :
    (writeIfChanged tree path text).1 = (write tree path text).1 := by
  rcases writeIfChanged_cases tells with ⟨holds, skips⟩ | ⟨-, writes⟩
  · obtain ⟨location, found, written⟩ := write_of_holds holds
    rw [skips, written]
    exact (insert_self distinct found).symm
  · rw [writes]

theorem distinct_write {tree : FileTree} (distinct : tree.keys.Nodup) (path text : String) :
    (write tree path text).1.keys.Nodup := by
  have kept {after : FileTree} (makes : FileTree.MakesDirectories tree after) : after.keys.Nodup :=
    (@FileTree.Extends.of_makesDirectories (fun _ => True) _ _ makes).distinct distinct
  rcases write_cases tree path text with ⟨after, _, _, makes, fails⟩ |
    ⟨made, location, makes, puts, writes, -⟩
  · rw [fails]
    exact kept makes
  · rw [writes]
    exact (@FileTree.Extends.of_puts (fun _ => True) _ _ _ puts fun _ _ => trivial).distinct
      (kept makes)

/-- What a guarded call reports, told from what the plain one returns: its failure, or else whether
the path did not hold the text before. After a call that does not fail it does. -/
structure Reports (before after : FileTree) (path text : String) (plain : Except Failure Unit)
    (guarded : Except Failure Bool) : Prop where
  fails : ∀ failure, guarded = .error failure ↔ plain = .error failure
  written : guarded = .ok true ↔ plain = .ok () ∧ ¬Holds before path text
  kept : guarded = .ok false ↔ plain = .ok () ∧ Holds before path text
  holds : plain = .ok () → Holds after path text

theorem reports_writeIfChanged {tree : FileTree} {path text : String}
    (tells : Tells tree path text) :
    Reports tree (writeIfChanged tree path text).1 path text (write tree path text).2
      (writeIfChanged tree path text).2 := by
  rcases writeIfChanged_cases tells with ⟨holds, skips⟩ | ⟨absent, writes⟩
  · obtain ⟨location, -, written⟩ := write_of_holds holds
    rw [skips, written]
    exact ⟨by simp, by simp [holds], by simp [holds], fun _ => holds⟩
  · rw [writes]
    rcases write_cases tree path text with ⟨after, place, trouble, -, fails⟩ |
      ⟨made, location, -, -, puts, leads⟩
    · rw [fails]
      exact ⟨by simp [Except.map], by simp [Except.map], by simp [Except.map], by simp⟩
    · rw [puts]
      exact ⟨by simp [Except.map], by simp [Except.map, absent], by simp [Except.map, absent],
        fun _ => ⟨location, leads⟩⟩

/-- The plain writer does the same in trees with the same nodes. -/
theorem write_congr {tree other : FileTree} (same : tree.node? = other.node?)
    (path text : String) : Alike (write tree path text) (write other path text) := by
  have making : Alike (makeDirectory tree path) (makeDirectory other path) := by
    rw [makeDirectory, makeDirectory]
    split
    next => exact ⟨same, rfl⟩
    next directory _ =>
      have made := FileTree.makeDirectories_congr same directory
      exact ⟨made.nodes, congrArg (Except.mapError (Failure.access directory)) made.result⟩
  rw [write, write]
  generalize makeDirectory tree path = first at making
  generalize makeDirectory other path = second at making
  obtain ⟨made, result⟩ := first
  obtain ⟨made', result'⟩ := second
  obtain ⟨nodes, rfl⟩ := making
  cases result with
  | error failure => exact ⟨nodes, rfl⟩
  | ok =>
    dsimp only
    rcases FileTree.writeFile_congr nodes path (.text text) with ⟨trouble, fails, fails'⟩ |
      ⟨written, written', writes, writes', nodes'⟩
    · rw [fails, fails']
      exact ⟨nodes, rfl⟩
    · rw [writes, writes']
      exact ⟨nodes', rfl⟩

/-! ## Runs of calls -/

/-- A run of calls with a path and a text each, one after the other whether they fail or not: the
tree that it leaves and what the calls return. -/
def runAll {α : Type} (call : FileTree → String → String → FileTree × Except Failure α) :
    FileTree → List (String × String) → FileTree × List (Except Failure α)
  | tree, [] => (tree, [])
  | tree, (path, text) :: calls =>
      let (next, result) := call tree path text
      let (last, results) := runAll call next calls
      (last, result :: results)

theorem runAll_cons {α : Type} (call : FileTree → String → String → FileTree × Except Failure α)
    (tree : FileTree) (path text : String) (calls : List (String × String)) :
    runAll call tree ((path, text) :: calls) =
      ((runAll call (call tree path text).1 calls).1,
        (call tree path text).2 :: (runAll call (call tree path text).1 calls).2) :=
  rfl

/-- No call of a guarded run compares two different texts with one digest. -/
def Distinguishes : FileTree → List (String × String) → Prop
  | _, [] => True
  | tree, (path, text) :: calls =>
      Tells tree path text ∧ Distinguishes (writeIfChanged tree path text).1 calls

instance decidableDistinguishes :
    (tree : FileTree) → (calls : List (String × String)) → Decidable (Distinguishes tree calls)
  | _, [] => .isTrue trivial
  | tree, (path, text) :: calls =>
      @instDecidableAnd _ _ (inferInstanceAs (Decidable (Tells tree path text)))
        (decidableDistinguishes (writeIfChanged tree path text).1 calls)

theorem node?_runAll {tree other : FileTree} (same : tree.node? = other.node?)
    {calls : List (String × String)} (tells : Distinguishes tree calls) :
    (runAll writeIfChanged tree calls).1.node? = (runAll write other calls).1.node? := by
  induction calls generalizing tree other with
  | nil => exact same
  | cons call calls ih =>
    obtain ⟨path, text⟩ := call
    obtain ⟨first, later⟩ := tells
    have plain := (write_congr same path text).nodes
    rw [runAll_cons, runAll_cons]
    exact ih ((node?_writeIfChanged first).trans plain) later

theorem runAll_fst {tree : FileTree} (distinct : tree.keys.Nodup) {calls : List (String × String)}
    (tells : Distinguishes tree calls) :
    (runAll writeIfChanged tree calls).1 = (runAll write tree calls).1 := by
  induction calls generalizing tree with
  | nil => rfl
  | cons call calls ih =>
    obtain ⟨path, text⟩ := call
    obtain ⟨first, later⟩ := tells
    rw [writeIfChanged_fst distinct first] at later
    rw [runAll_cons, runAll_cons, writeIfChanged_fst distinct first]
    exact ih (distinct_write distinct path text) later

theorem reports_runAll {tree other : FileTree} (same : tree.node? = other.node?)
    {calls : List (String × String)} (tells : Distinguishes tree calls) {k : Nat}
    {path text : String} (called : calls[k]? = some (path, text)) :
    ∃ plain guarded, (runAll write other calls).2[k]? = some plain ∧
      (runAll writeIfChanged tree calls).2[k]? = some guarded ∧
      Reports (runAll writeIfChanged tree (calls.take k)).1
        (runAll writeIfChanged tree (calls.take (k + 1))).1 path text plain guarded := by
  induction calls generalizing tree other k with
  | nil => cases called
  | cons call calls ih =>
    obtain ⟨path', text'⟩ := call
    obtain ⟨first, later⟩ := tells
    have plain := write_congr same path' text'
    rw [runAll_cons, runAll_cons, List.take_succ_cons, runAll_cons]
    cases k with
    | zero =>
      obtain ⟨rfl, rfl⟩ := Prod.mk.inj (Option.some.inj called)
      refine ⟨_, _, List.getElem?_cons_zero, List.getElem?_cons_zero, ?_⟩
      rw [← plain.result]
      exact reports_writeIfChanged first
    | succ k =>
      rw [List.take_succ_cons, runAll_cons]
      exact ih ((node?_writeIfChanged first).trans plain.nodes) later called

/-- Over any run of calls, the guarded writer leaves the nodes that the plain one leaves: the same
tree, if no location is listed twice. Each call fails if the plain one does, and else returns
whether its path did not hold the text just before. -/
theorem writeIfChanged_refines_write (tree : FileTree) (calls : List (String × String))
    (tells : Distinguishes tree calls) :
    (runAll writeIfChanged tree calls).1.node? = (runAll write tree calls).1.node? ∧
    (tree.keys.Nodup → (runAll writeIfChanged tree calls).1 = (runAll write tree calls).1) ∧
    ∀ k path text, calls[k]? = some (path, text) →
      ∃ plain guarded, (runAll write tree calls).2[k]? = some plain ∧
        (runAll writeIfChanged tree calls).2[k]? = some guarded ∧
        Reports (runAll writeIfChanged tree (calls.take k)).1
          (runAll writeIfChanged tree (calls.take (k + 1))).1 path text plain guarded :=
  ⟨node?_runAll rfl tells, fun distinct => runAll_fst distinct tells,
    fun _ _ _ called => reports_runAll rfl tells called⟩

theorem writeIfChanged_refines_write_nested :
    let tree : FileTree := ⟨[(["out"], .directory), (["out", "a"], .file (.binary [255]))]⟩
    let calls := [("out/a", "x"), ("out/./a", "x"), ("lib/b/c", "x"), ("out/a/c", "x"),
      ("lib/b/c", "y"), ("out/a", "x")]
    Distinguishes tree calls ∧ tree.keys.Nodup ∧
      (runAll writeIfChanged tree calls).1 = (runAll write tree calls).1 ∧
      (runAll writeIfChanged tree calls).2 =
        [.ok true, .ok false, .ok true, .error (.access "out/a" .alreadyExists), .ok true,
          .ok false] := by
  intro tree calls
  have tells : Distinguishes tree calls := by decide +kernel
  have distinct : tree.keys.Nodup := by decide
  exact ⟨tells, distinct, (writeIfChanged_refines_write tree calls tells).2.1 distinct,
    by decide +kernel⟩

end ImportSupply.Output
