import Mathlib.Data.List.Infix
import Mathlib.Data.List.TakeWhile

/-! A tree of files and directories, and the paths that a system follows through it one
component at a time: a directory on the way that is missing, or a file in its place, ends
the walk, also where a later component would lead back out of it. -/

set_option autoImplicit false

namespace Storage

/-- A component of a path that leads on: to the parent, or to a child by its name. -/
inductive Segment (Name : Type) where
  | parent
  | child (name : Name)
  deriving DecidableEq, Repr

section

variable {Name : Type}

/-- The directories that the children along a path name, in the order of the walk. The
parent of the root is the root. -/
def visited (reached : List Name) : List (Segment Name) → List (List Name)
  | [] => []
  | .parent :: segments => visited reached.dropLast segments
  | .child name :: segments => (reached ++ [name]) :: visited (reached ++ [name]) segments

/-- Where a walk ends that nothing stops. -/
def arrived (reached : List Name) : List (Segment Name) → List Name
  | [] => reached
  | .parent :: segments => arrived reached.dropLast segments
  | .child name :: segments => arrived (reached ++ [name]) segments

theorem visited_append (reached : List Name) (before behind : List (Segment Name)) :
    visited reached (before ++ behind) =
      visited reached before ++ visited (arrived reached before) behind := by
  induction before generalizing reached with
  | nil => rfl
  | cons segment before ih => cases segment <;> simp [visited, arrived, ih]

/-- The parent of a visited directory is visited too, or lies on the way to the start. -/
theorem visited_dropLast {reached location : List Name} {segments : List (Segment Name)}
    (member : location ∈ visited reached segments) :
    location.dropLast ∈ visited reached segments ∨ location.dropLast <+: reached := by
  induction segments generalizing reached with
  | nil => cases member
  | cons segment segments ih =>
      cases segment with
      | parent => exact (ih member).imp id fun outer => outer.trans (List.dropLast_prefix _)
      | child name =>
          rcases List.mem_cons.mp member with rfl | later
          · exact .inr (by simp)
          · rcases ih later with within | outer
            · exact .inl (List.mem_cons_of_mem _ within)
            · rcases List.prefix_concat_iff.mp outer with same | outer
              · exact .inl (same ▸ List.mem_cons_self)
              · exact .inr outer

end

/-- Why a file system refuses a path. -/
inductive FileError where
  | notFound
  | alreadyExists
  | notADirectory
  | isADirectory
  deriving DecidableEq, Repr

/-- Files by their locations, the latest first, and the locations of directories. -/
structure FileTree (Name Content : Type) where
  files : List (List Name × Content)
  directories : List (List Name)

namespace FileTree

variable {Name Content : Type} [DecidableEq Name]
  (tree : FileTree Name Content) (location : List Name)

def file : Option Content := tree.files.lookup location

def isDirectory : Bool := decide (location ∈ tree.directories)

/-- A file where a walk needs a directory. -/
def obstructed : Bool := !tree.isDirectory location && (tree.file location).isSome

def pathExists : Bool := (tree.file location).isSome || tree.isDirectory location

def make : FileTree Name Content := { tree with directories := location :: tree.directories }

def write (content : Content) : FileTree Name Content :=
  { tree with files := (location, content) :: tree.files }

/-- A walk through directories. -/
def enter : List (List Name) → Except FileError Unit
  | [] => .ok ()
  | location :: rest =>
      if tree.isDirectory location then enter rest
      else if (tree.file location).isSome then .error .notADirectory
      else .error .notFound

/-- A walk that makes the directories it misses. The system sees a file in the place of a
directory as one that already exists once it is the last component that is tried. -/
def createDirAll (tree : FileTree Name Content) (made : Bool) :
    List (List Name) → Except FileError Unit × FileTree Name Content
  | [] => (.ok (), tree)
  | location :: rest =>
      if tree.isDirectory location then createDirAll tree made rest
      else if (tree.file location).isSome then
        (.error (if made || rest.isEmpty then .alreadyExists else .notADirectory), tree)
      else createDirAll (tree.make location) true rest

/-- Reading a file at the end of a walk. -/
def read (way : List (List Name)) : Except FileError Content :=
  match tree.enter way with
  | .error error => .error error
  | .ok () =>
      match tree.file location with
      | some content => .ok content
      | none => .error (if tree.isDirectory location then .isADirectory else .notFound)

variable {tree location}

@[simp] theorem file_make (other : List Name) :
    (tree.make other).file location = tree.file location :=
  rfl

@[simp] theorem isDirectory_make (other : List Name) :
    (tree.make other).isDirectory location =
      (decide (location = other) || tree.isDirectory location) := by
  simp [make, isDirectory]

@[simp] theorem isDirectory_write (other : List Name) (content : Content) :
    (tree.write other content).isDirectory location = tree.isDirectory location :=
  rfl

@[simp] theorem file_write_same (content : Content) :
    (tree.write location content).file location = some content := by
  simp [write, file]

theorem file_write_other {other : List Name} (different : other ≠ location)
    (content : Content) : (tree.write other content).file location = tree.file location := by
  have distinct : (location == other) = false := beq_false_of_ne different.symm
  simp only [write, file, List.lookup_cons, distinct]

theorem obstructed_write_other {other : List Name} (different : other ≠ location)
    (content : Content) :
    (tree.write other content).obstructed location = tree.obstructed location := by
  simp only [obstructed, isDirectory_write, file_write_other different]

/-- A walk passes exactly where every directory on it is there. -/
theorem enter_ok_iff {way : List (List Name)} :
    tree.enter way = .ok () ↔ ∀ directory ∈ way, tree.isDirectory directory = true := by
  induction way with
  | nil => simp [enter]
  | cons directory way ih =>
      unfold enter
      split
      · simp_all
      · rename_i missing
        refine ⟨fun passed => ?_, fun all => absurd (all _ List.mem_cons_self) missing⟩
        split at passed <;> cases passed

/-- A walk that no file obstructs breaks off at a missing directory or not at all. -/
theorem enter_of_free {way : List (List Name)}
    (free : ∀ directory ∈ way, tree.obstructed directory = false) :
    tree.enter way = .ok () ∨ tree.enter way = .error .notFound := by
  induction way with
  | nil => exact .inl rfl
  | cons directory way ih =>
      have clear := free directory List.mem_cons_self
      simp only [obstructed, Bool.and_eq_false_iff, Bool.not_eq_false'] at clear
      unfold enter
      split
      · exact ih fun other member => free other (List.mem_cons_of_mem _ member)
      · rename_i missing
        rw [clear.resolve_left missing]
        exact .inr rfl

/-- In a tree with more directories and the same obstructions, a walk that is not broken off
at a missing directory ends the same way. -/
theorem enter_of_more {tree more : FileTree Name Content} {way : List (List Name)}
    (grows : ∀ directory, tree.isDirectory directory = true → more.isDirectory directory = true)
    (alike : ∀ directory ∈ way, more.obstructed directory = tree.obstructed directory)
    (decided : tree.enter way ≠ .error .notFound) : more.enter way = tree.enter way := by
  induction way with
  | nil => rfl
  | cons directory way ih =>
      have later : ∀ other ∈ way, more.obstructed other = tree.obstructed other :=
        fun other member => alike other (List.mem_cons_of_mem _ member)
      unfold enter at decided ⊢
      cases own : tree.isDirectory directory with
      | true =>
          simp only [own, if_true, grows directory own] at decided ⊢
          exact ih later decided
      | false =>
          have same := alike directory List.mem_cons_self
          simp only [own, Bool.false_eq_true, if_false] at decided ⊢
          cases found : tree.file directory with
          | none => exact absurd (by simp [found]) decided
          | some content =>
              simp only [obstructed, own, found, Option.isSome_some, Bool.not_false,
                Bool.and_true, Bool.and_eq_true, Bool.not_eq_true'] at same
              simp [same.1, same.2]

/-- The directories that a walk of `createDirAll` reaches: up to the first obstruction. -/
def reachable (tree : FileTree Name Content) (way : List (List Name)) : List (List Name) :=
  way.takeWhile fun directory => !tree.obstructed directory

theorem obstructed_make (clear : tree.obstructed location = false) (other : List Name) :
    (tree.make location).obstructed other = tree.obstructed other := by
  by_cases same : other = location
  · subst same
    simp only [obstructed, isDirectory_make, decide_true, Bool.true_or, Bool.not_true,
      Bool.false_and] at clear ⊢
    exact clear.symm
  · simp [obstructed, same]

theorem reachable_cons_clear (clear : tree.obstructed location = false)
    (way : List (List Name)) :
    tree.reachable (location :: way) = location :: tree.reachable way := by
  simp [reachable, clear]

theorem reachable_cons_obstructed (blocked : tree.obstructed location = true)
    (way : List (List Name)) : tree.reachable (location :: way) = [] := by
  simp [reachable, blocked]

theorem obstructed_of_reachable {way : List (List Name)}
    (member : location ∈ tree.reachable way) : tree.obstructed location = false := by
  simpa using List.mem_takeWhile_imp member

theorem mem_of_reachable {way : List (List Name)} (member : location ∈ tree.reachable way) :
    location ∈ way :=
  (List.takeWhile_prefix _).subset member

/-- A part of a walk that nothing obstructs is reached in full. -/
theorem reachable_append_of_free {before : List (List Name)}
    (free : ∀ directory ∈ before, tree.obstructed directory = false)
    (behind : List (List Name)) :
    tree.reachable (before ++ behind) = before ++ tree.reachable behind :=
  List.takeWhile_append_of_pos fun directory member => by simp [free directory member]

theorem reachable_of_free {way : List (List Name)}
    (free : ∀ directory ∈ way, tree.obstructed directory = false) : tree.reachable way = way := by
  have all := reachable_append_of_free free []
  rwa [show tree.reachable [] = [] from rfl, List.append_nil] at all

theorem reachable_congr {left right : FileTree Name Content} {way : List (List Name)}
    (alike : ∀ directory ∈ way, left.obstructed directory = right.obstructed directory) :
    left.reachable way = right.reachable way := by
  induction way with
  | nil => rfl
  | cons directory way ih =>
      have later := ih fun other member => alike other (List.mem_cons_of_mem _ member)
      have same := alike directory List.mem_cons_self
      cases blocked : right.obstructed directory with
      | true =>
          rw [reachable_cons_obstructed blocked, reachable_cons_obstructed (same.trans blocked)]
      | false =>
          rw [reachable_cons_clear blocked, reachable_cons_clear (same.trans blocked), later]

/-- Creating directories adds those that the walk reaches, and changes no file. -/
theorem createDirAll_spec (tree : FileTree Name Content) (made : Bool)
    (way : List (List Name)) :
    (∀ other, (tree.createDirAll made way).2.isDirectory other =
        (decide (other ∈ tree.reachable way) || tree.isDirectory other)) ∧
      (∀ other, (tree.createDirAll made way).2.file other = tree.file other) ∧
      ((tree.createDirAll made way).1 = .ok () ↔
        ∀ directory ∈ way, tree.obstructed directory = false) := by
  induction way generalizing tree made with
  | nil => simp [createDirAll, reachable]
  | cons directory way ih =>
      unfold createDirAll
      cases own : tree.isDirectory directory with
      | true =>
          have clear : tree.obstructed directory = false := by simp [obstructed, own]
          obtain ⟨directories, files, succeeds⟩ := ih tree made
          refine ⟨fun other => ?_, files, by simp [succeeds, clear]⟩
          rw [if_pos rfl, directories, reachable_cons_clear clear]
          by_cases same : other = directory <;> simp [same, own]
      | false =>
          cases found : tree.file directory with
          | some content =>
              have blocked : tree.obstructed directory = true := by simp [obstructed, own, found]
              simp [reachable_cons_obstructed blocked, blocked]
          | none =>
              have clear : tree.obstructed directory = false := by simp [obstructed, found]
              obtain ⟨directories, files, succeeds⟩ := ih (tree.make directory) true
              have same : (tree.make directory).reachable way = tree.reachable way :=
                reachable_congr fun other _ => obstructed_make clear other
              simp only [obstructed_make clear] at succeeds
              refine ⟨fun other => ?_, by simpa using files, by simpa [clear] using succeeds⟩
              simp only [Bool.false_eq_true, if_false, Option.isSome_none, directories, same,
                isDirectory_make, reachable_cons_clear clear]
              by_cases here : other = directory <;> simp [here]

theorem isDirectory_createDirAll (tree : FileTree Name Content) (made : Bool)
    (way : List (List Name)) (other : List Name) :
    (tree.createDirAll made way).2.isDirectory other =
      (decide (other ∈ tree.reachable way) || tree.isDirectory other) :=
  (createDirAll_spec tree made way).1 other

theorem file_createDirAll (tree : FileTree Name Content) (made : Bool)
    (way : List (List Name)) (other : List Name) :
    (tree.createDirAll made way).2.file other = tree.file other :=
  (createDirAll_spec tree made way).2.1 other

theorem createDirAll_ok_iff {made : Bool} {way : List (List Name)} :
    (tree.createDirAll made way).1 = .ok () ↔
      ∀ directory ∈ way, tree.obstructed directory = false :=
  (createDirAll_spec tree made way).2.2

theorem isDirectory_createDirAll_of_isDirectory {made : Bool} {way : List (List Name)}
    (there : tree.isDirectory location = true) :
    (tree.createDirAll made way).2.isDirectory location = true := by
  rw [isDirectory_createDirAll, there, Bool.or_true]

theorem pathExists_createDirAll {made : Bool} {way : List (List Name)}
    (there : tree.pathExists location = true) :
    (tree.createDirAll made way).2.pathExists location = true := by
  simp only [pathExists, Bool.or_eq_true, file_createDirAll] at there ⊢
  exact there.imp id isDirectory_createDirAll_of_isDirectory

/-- What obstructs a walk before directories are created obstructs it afterwards. -/
theorem obstructed_createDirAll (made : Bool) (way : List (List Name)) (other : List Name) :
    (tree.createDirAll made way).2.obstructed other = tree.obstructed other := by
  simp only [obstructed, isDirectory_createDirAll, file_createDirAll]
  by_cases reached : other ∈ tree.reachable way
  · have clear := obstructed_of_reachable reached
    simp only [obstructed] at clear
    simp [reached, clear]
  · simp [reached]

/-- Directories that have been created can be walked through. -/
theorem enter_createDirAll {made : Bool} {way : List (List Name)}
    (created : (tree.createDirAll made way).1 = .ok ()) :
    (tree.createDirAll made way).2.enter way = .ok () := by
  have reached := reachable_of_free (createDirAll_ok_iff.mp created)
  refine enter_ok_iff.mpr fun directory member => ?_
  rw [isDirectory_createDirAll, reached, decide_eq_true member, Bool.true_or]

/-- A walk that breaks off after directories were created has broken off before. -/
theorem enter_before_createDirAll {made : Bool} {way walk : List (List Name)}
    (missing : (tree.createDirAll made way).2.enter walk = .error .notFound) :
    tree.enter walk = .error .notFound := by
  by_contra decided
  have same : (tree.createDirAll made way).2.enter walk = tree.enter walk :=
    enter_of_more (fun _ => isDirectory_createDirAll_of_isDirectory)
      (fun other _ => obstructed_createDirAll made way other) decided
  exact decided (same ▸ missing)

end FileTree

end Storage
