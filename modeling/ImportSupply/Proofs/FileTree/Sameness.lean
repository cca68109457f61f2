import ImportSupply.Proofs.FileTree.Growth

/-!
# Trees with the same nodes

Two trees can list the same nodes in different ways. Paths lead to the same spots in both
(`resolve_congr`), and what is made or written in both leaves the same nodes again
(`makeDirectories_congr`, `writeFile_congr`).
-/

namespace ImportSupply.FileTree

variable {tree other : FileTree}

/-! ## Following paths -/

theorem descend_congr (same : tree.node? = other.node?) (purpose : Purpose)
    (onLink : Location → List String → Except Trouble Spot) (location : Location)
    (path : List String) :
    tree.descend purpose onLink location path = other.descend purpose onLink location path := by
  induction path generalizing location with
  | nil => rw [descend, descend, same]
  | cons component rest ih => simp only [descend, same, ih]

theorem follow_congr (same : tree.node? = other.node?) (purpose : Purpose) (links : Nat) :
    tree.follow purpose links = other.follow purpose links := by
  induction links with
  | zero =>
    funext location path
    exact descend_congr same purpose _ location path
  | succ links ih =>
    funext location path
    rw [follow, follow, ih]
    exact descend_congr same purpose _ location path

theorem resolve_congr (same : tree.node? = other.node?) (purpose : Purpose) (path : String) :
    tree.resolve purpose path = other.resolve purpose path := by
  rw [resolve, resolve, follow_congr same]

theorem isDirectory_congr (same : tree.node? = other.node?) (path : String) :
    tree.isDirectory path = other.isDirectory path := by
  rw [isDirectory, isDirectory, resolve_congr same]

/-! ## Changing trees -/

theorem insert_congr (same : tree.node? = other.node?) {location : Location} (inner : location ≠ [])
    (node : Node) : (tree.insert location node).node? = (other.insert location node).node? := by
  funext place
  rw [node?_insert inner, node?_insert inner, same]

/-- What two changes come to that leave the same nodes and have the same result. -/
structure Alike {ε α : Type} (first second : FileTree × Except ε α) : Prop where
  nodes : first.1.node? = second.1.node?
  result : first.2 = second.2

/-- A directory is made in both trees or in none. -/
theorem makeDirectory_congr (same : tree.node? = other.node?) (path : String) :
    (∃ trouble, tree.makeDirectory path = .error trouble ∧
      other.makeDirectory path = .error trouble) ∨
    ∃ made made', tree.makeDirectory path = .ok made ∧ other.makeDirectory path = .ok made' ∧
      made.node? = made'.node? := by
  have placed : other.placeFor path = tree.placeFor path := (resolve_congr same _ _).symm
  rw [makeDirectory, makeDirectory, placed]
  split
  next trouble _ => exact .inl ⟨trouble, rfl, rfl⟩
  next => exact .inl ⟨_, rfl, rfl⟩
  next location leads =>
    obtain ⟨course, -, stops, bare⟩ := exists_goes_of_resolve leads
    have puts : tree.Puts location .directory := stops.puts bare (by simp)
    exact .inr ⟨_, _, rfl, rfl, insert_congr same puts.ne_nil _⟩

theorem unlessDirectory_congr (same : tree.node? = other.node?) (path : String)
    (trouble : Trouble) :
    Alike (tree.unlessDirectory path trouble) (other.unlessDirectory path trouble) :=
  ⟨same, by rw [unlessDirectory, unlessDirectory, isDirectory_congr same]⟩

theorem makeMissing_congr (same : tree.node? = other.node?) (paths : List String) :
    Alike (tree.makeMissing paths) (other.makeMissing paths) := by
  induction paths with
  | nil => exact ⟨same, rfl⟩
  | cons path outer ih =>
    rw [makeMissing, makeMissing]
    rcases makeDirectory_congr same path with ⟨trouble, fails, fails'⟩ |
      ⟨made, made', makes, makes', nodes⟩
    · rw [fails, fails']
      cases trouble with
      | missing =>
        dsimp only
        generalize tree.makeMissing outer = first at ih
        generalize other.makeMissing outer = second at ih
        obtain ⟨made, result⟩ := first
        obtain ⟨made', result'⟩ := second
        obtain ⟨nodes, rfl⟩ := ih
        cases result with
        | error trouble => exact ⟨nodes, rfl⟩
        | ok =>
          dsimp only
          rcases makeDirectory_congr nodes path with ⟨trouble, fails, fails'⟩ |
            ⟨complete, complete', makes, makes', nodes⟩
          · rw [fails, fails']
            exact unlessDirectory_congr nodes path trouble
          · rw [makes, makes']
            exact ⟨nodes, rfl⟩
      | _ => exact unlessDirectory_congr same path _
    · rw [makes, makes']
      exact ⟨nodes, rfl⟩

theorem makeDirectories_congr (same : tree.node? = other.node?) (path : String) :
    Alike (tree.makeDirectories path) (other.makeDirectories path) :=
  makeMissing_congr same _

/-- A file is written in both trees or in none. -/
theorem writeFile_congr (same : tree.node? = other.node?) (path : String) (contents : Contents) :
    (∃ trouble, tree.writeFile path contents = .error trouble ∧
      other.writeFile path contents = .error trouble) ∨
    ∃ written written', tree.writeFile path contents = .ok written ∧
      other.writeFile path contents = .ok written' ∧ written.node? = written'.node? := by
  have placed : other.writableAt path = tree.writableAt path := by
    rw [writableAt, writableAt, resolve_congr same]
  rw [writeFile, writeFile, placed]
  cases writable : tree.writableAt path with
  | error trouble => exact .inl ⟨trouble, rfl, rfl⟩
  | ok location =>
    obtain ⟨puts, -⟩ := puts_of_writableAt writable contents
    exact .inr ⟨_, _, rfl, rfl, insert_congr same puts.ne_nil _⟩

end ImportSupply.FileTree
