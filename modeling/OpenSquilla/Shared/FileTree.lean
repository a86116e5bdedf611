import Mathlib.Data.List.Infix

set_option autoImplicit false

abbrev FilePath := List String

inductive Node (Bytes : Type*)
  | file (bytes : Bytes)
  | dir

structure FileTree (Bytes : Type*) where
  node : FilePath → Option (Node Bytes)
  root : node [] = some .dir
  nested : ∀ name parent, node (name :: parent) ≠ none → node parent = some .dir

namespace FileTree

variable {Bytes : Type*} {tree : FileTree Bytes} {path : FilePath}

@[ext]
theorem ext {first second : FileTree Bytes} (same : ∀ path, first.node path = second.node path) :
    first = second := by
  cases first
  cases second
  congr
  exact funext same

def present (tree : FileTree Bytes) (path : FilePath) : Bool := (tree.node path).isSome

def isDir (tree : FileTree Bytes) (path : FilePath) : Bool :=
  match tree.node path with
  | some .dir => true
  | _ => false

def isFile (tree : FileTree Bytes) (path : FilePath) : Bool :=
  match tree.node path with
  | some (.file _) => true
  | _ => false

def onlyRoot : FileTree Bytes where
  node path := if path = [] then some .dir else none
  root := if_pos rfl
  nested name parent inside := absurd (if_neg (List.cons_ne_nil name parent)) inside

@[simp] theorem isDir_iff : tree.isDir path = true ↔ tree.node path = some .dir := by
  unfold isDir
  split <;> simp_all

@[simp] theorem isFile_iff : tree.isFile path = true ↔ ∃ bytes, tree.node path = some (.file bytes) := by
  unfold isFile
  split <;> simp_all

-- A path set in a directory, to anything that keeps what is inside it.
def set (tree : FileTree Bytes) (name : String) (parent : FilePath) (value : Option (Node Bytes))
    (inDir : tree.node parent = some .dir)
    (keeps : value = some .dir ∨ tree.node (name :: parent) ≠ some .dir) : FileTree Bytes where
  node := Function.update tree.node (name :: parent) value
  root := by rw [Function.update_of_ne (List.cons_ne_nil name parent).symm, tree.root]
  nested other inner inside := by
    by_cases own : other :: inner = name :: parent
    · obtain rfl := (List.cons.inj own).2
      rw [Function.update_of_ne (by simp), inDir]
    · rw [Function.update_of_ne own] at inside
      have dir := tree.nested other inner inside
      by_cases within : inner = name :: parent
      · rcases keeps with rfl | notDir
        · rw [within, Function.update_self]
        · exact absurd (within ▸ dir) notDir
      · rw [Function.update_of_ne within, dir]

-- what the operating system refuses is none, and leaves the tree as it was

def mkdir (tree : FileTree Bytes) : FilePath → Option (FileTree Bytes)
  | [] => none
  | name :: parent =>
    if free : tree.isDir parent ∧ ¬tree.present (name :: parent) then
      some (tree.set name parent (some .dir) (isDir_iff.mp free.1) (.inl rfl))
    else none

-- The directory with its missing parents. One that is there already is no error.
def makeDirs (tree : FileTree Bytes) : FilePath → Option (FileTree Bytes)
  | [] => some tree
  | name :: parent =>
    if tree.isDir (name :: parent) then some tree
    else (makeDirs tree parent).bind (fun tree => tree.mkdir (name :: parent))

def write (tree : FileTree Bytes) (bytes : Bytes) : FilePath → Option (FileTree Bytes)
  | [] => none
  | name :: parent =>
    if within : tree.isDir parent ∧ ¬tree.isDir (name :: parent) then
      some (tree.set name parent (some (.file bytes)) (isDir_iff.mp within.1)
        (.inr (mt isDir_iff.mpr within.2)))
    else none

def unlink (tree : FileTree Bytes) : FilePath → Option (FileTree Bytes)
  | [] => none
  | name :: parent =>
    if held : tree.isFile (name :: parent) then
      some (tree.set name parent none
        (tree.nested name parent (by obtain ⟨bytes, held⟩ := isFile_iff.mp held; simp [held]))
        (.inr (by obtain ⟨bytes, held⟩ := isFile_iff.mp held; simp [held])))
    else none

theorem node_mkdir {result : FileTree Bytes} (made : tree.mkdir path = some result) :
    result.node = Function.update tree.node path (some .dir) := by
  cases path with
  | nil => cases made
  | cons name parent =>
    by_cases allowed : tree.isDir parent ∧ ¬tree.present (name :: parent)
    · rw [mkdir, dif_pos allowed] at made
      rw [← Option.some.inj made, set]
    · rw [mkdir, dif_neg allowed] at made
      cases made

theorem node_write {bytes : Bytes} {result : FileTree Bytes} (written : tree.write bytes path = some result) :
    result.node = Function.update tree.node path (some (.file bytes)) := by
  cases path with
  | nil => cases written
  | cons name parent =>
    by_cases allowed : tree.isDir parent ∧ ¬tree.isDir (name :: parent)
    · rw [write, dif_pos allowed] at written
      rw [← Option.some.inj written, set]
    · rw [write, dif_neg allowed] at written
      cases written

theorem node_unlink {result : FileTree Bytes} (removed : tree.unlink path = some result) :
    result.node = Function.update tree.node path none := by
  cases path with
  | nil => cases removed
  | cons name parent =>
    by_cases allowed : tree.isFile (name :: parent)
    · rw [unlink, dif_pos allowed] at removed
      rw [← Option.some.inj removed, set]
    · rw [unlink, dif_neg allowed] at removed
      cases removed

theorem write_succeeds (bytes : Bytes) {name : String} {parent : FilePath}
    (inDir : tree.node parent = some .dir) (notDir : tree.node (name :: parent) ≠ some .dir) :
    ∃ result, tree.write bytes (name :: parent) = some result :=
  ⟨_, dif_pos ⟨isDir_iff.mpr inDir, mt isDir_iff.mp notDir⟩⟩

theorem unlink_succeeds {bytes : Bytes} (held : tree.node path = some (.file bytes)) :
    ∃ result, tree.unlink path = some result := by
  cases path with
  | nil =>
    rw [tree.root] at held
    cases held
  | cons name parent => exact ⟨_, dif_pos (isFile_iff.mpr ⟨bytes, held⟩)⟩

theorem dir_of_suffix {ancestor : FilePath} (dir : tree.node path = some .dir) (suffix : ancestor <:+ path) :
    tree.node ancestor = some .dir := by
  induction path with
  | nil =>
    rw [List.suffix_nil.mp suffix]
    exact dir
  | cons name parent ih =>
    rcases List.suffix_cons_iff.mp suffix with rfl | within
    · exact dir
    · exact ih (tree.nested name parent (by simp [dir])) within

theorem not_cons_suffix (name : String) (parent : FilePath) : ¬name :: parent <:+ parent := by
  intro suffix
  have shorter := suffix.length_le
  rw [List.length_cons] at shorter
  omega

/-- Where no file stands in the way, every ancestor becomes a directory and nothing else changes. -/
theorem makeDirs_succeeds (path : FilePath) (clear : ∀ ancestor, ancestor <:+ path → ¬tree.isFile ancestor) :
    ∃ result, tree.makeDirs path = some result ∧
      ∀ other, result.node other = if other <:+ path then some .dir else tree.node other := by
  induction path with
  | nil =>
    refine ⟨tree, rfl, fun other => ?_⟩
    split
    next suffix =>
      rw [List.suffix_nil.mp suffix]
      exact tree.root
    · rfl
  | cons name parent ih =>
    obtain ⟨inner, made, nodes⟩ := ih fun ancestor suffix =>
      clear ancestor (suffix.trans (List.suffix_cons name parent))
    unfold makeDirs
    split
    next there =>
      refine ⟨tree, rfl, fun other => ?_⟩
      split
      next suffix => exact dir_of_suffix (isDir_iff.mp there) suffix
      · rfl
    next missing =>
      have inDir : inner.node parent = some .dir := by rw [nodes, if_pos List.suffix_rfl]
      have unchanged : inner.node (name :: parent) = tree.node (name :: parent) := by
        rw [nodes, if_neg (not_cons_suffix name parent)]
      have free : ¬inner.present (name :: parent) := by
        have noFile := clear (name :: parent) List.suffix_rfl
        rw [isDir_iff] at missing
        rw [isFile_iff] at noFile
        rw [present, unchanged]
        cases held : tree.node (name :: parent) with
        | none => simp
        | some node =>
          cases node with
          | file bytes => exact absurd ⟨bytes, held⟩ noFile
          | dir => exact absurd held missing
      have allowed : inner.mkdir (name :: parent) =
          some (inner.set name parent (some .dir) inDir (.inl rfl)) :=
        dif_pos ⟨isDir_iff.mpr inDir, free⟩
      refine ⟨_, by rw [made, Option.bind_some, allowed], fun other => ?_⟩
      rw [node_mkdir allowed]
      by_cases own : other = name :: parent
      · rw [own, Function.update_self, if_pos List.suffix_rfl]
      · rw [Function.update_of_ne own, nodes]
        simp only [List.suffix_cons_iff, own, false_or]

end FileTree
