import OpsCodex.Error
import OpsCodex.Storage.FileTree

/-! The disk artifact store: artifacts by workspace and digest, in files whose paths are
joined from the workspace identifier as it is given. -/

set_option autoImplicit false

namespace OpsCodex.Evidence

open Storage

abbrev Tree := FileTree String (List UInt8)

/-- A component of a path, unless it stays where it is. -/
def segment (component : List Char) : Option (Segment String) :=
  if component = [] ∨ component = ['.'] then none
  else if component = ['.', '.'] then some .parent
  else some (.child (String.ofList component))

def segments (path : String) : List (Segment String) :=
  (path.toList.splitOn '/').filterMap segment

def isAbsolute (path : String) : Bool := path.toList.head? == some '/'

def join (directory path : String) : String :=
  if isAbsolute path then path
  else if directory.toList.getLast? = some '/' ∨ directory = "" then directory ++ path
  else directory ++ "/" ++ path

def osError : FileError → String
  | .notFound => "No such file or directory (os error 2)"
  | .alreadyExists => "File exists (os error 17)"
  | .notADirectory => "Not a directory (os error 20)"
  | .isADirectory => "Is a directory (os error 21)"

def isSha256 (value : String) : Bool :=
  decide (value.toList.length = 64) && value.toList.all fun symbol =>
    symbol.isDigit || ('a' ≤ symbol && symbol ≤ 'f') || ('A' ≤ symbol && symbol ≤ 'F')

/-- The store of an absolute directory, given by the names on the way to it. -/
structure ArtifactStore where
  directory : List String
  maxBytes : Nat
  sha256Hex : List UInt8 → String

namespace ArtifactStore

variable (store : ArtifactStore)

/-- The way from the root to the directory that an identifier is joined to give. -/
def workspaceSegments (workspaceId : String) : List (Segment String) :=
  (if isAbsolute workspaceId then [] else store.directory.map .child) ++ segments workspaceId

def workspaceDirectory (workspaceId : String) : List String :=
  arrived [] (store.workspaceSegments workspaceId)

/-- The first two digits of a digest, under which its file is kept. -/
def shard (sha256 : String) : String := String.ofList (sha256.toList.take 2)

/-- The directories on the way to an artifact. -/
def parents (workspaceId sha256 : String) : List (List String) :=
  visited [] (store.workspaceSegments workspaceId ++ [.child (shard sha256)])

def artifactDirectory (workspaceId sha256 : String) : List String :=
  store.workspaceDirectory workspaceId ++ [shard sha256]

def artifactPath (workspaceId sha256 : String) : List String :=
  store.artifactDirectory workspaceId sha256 ++ [sha256]

/-- The path of an artifact's directory as it is joined. -/
def parentName (workspaceId sha256 : String) : String :=
  join (join ("/" ++ "/".intercalate store.directory) workspaceId) (shard sha256)

def putIn (tree : Tree) (workspaceId : String) (bytes : List UInt8) : Result String × Tree :=
  if store.maxBytes < bytes.length then
    (.error (.protocol (s!"artifact exceeds quota ({bytes.length} bytes > {store.maxBytes} " ++
      "bytes); reduce output or raise the artifact limit")), tree)
  else
    let digest := store.sha256Hex bytes
    let path := store.artifactPath workspaceId digest
    match tree.createDirAll false (store.parents workspaceId digest) with
    | (.error error, tree) =>
        (.error (.storage (s!"failed to create artifact directory " ++
          s!"{store.parentName workspaceId digest}: {osError error}")), tree)
    | (.ok (), tree) =>
        if tree.pathExists path then (.ok digest, tree)
        else (.ok digest, tree.write path bytes)

def getIn (tree : Tree) (workspaceId sha256 : String) (maxBytes : Nat) : Result (List UInt8) :=
  if isSha256 sha256 then
    match tree.read (store.artifactPath workspaceId sha256)
        (store.parents workspaceId sha256) with
    | .ok bytes => .ok (bytes.take (max (min maxBytes store.maxBytes) 1))
    | .error .notFound => .error (.notFound s!"artifact {sha256}")
    | .error error =>
        .error (.storage (s!"failed to read artifact " ++
          s!"{join (store.parentName workspaceId sha256) sha256}: {osError error}"))
  else .error (.protocol "invalid artifact id")

inductive ArtifactCall where
  | putIn (workspaceId : String) (bytes : List UInt8)
  | getIn (workspaceId sha256 : String) (maxBytes : Nat)
  deriving DecidableEq

def run (tree : Tree) : ArtifactCall → Tree
  | .putIn workspaceId bytes => (store.putIn tree workspaceId bytes).2
  | .getIn _ _ _ => tree

/-- The tree of a store that has just been opened. -/
def opened : Tree where
  files := []
  directories := store.directory.inits

/-- The puts of one workspace. -/
def isPutOf (workspaceId : String) : ArtifactCall → Bool
  | .putIn other _ => decide (other = workspaceId)
  | .getIn _ _ _ => false

/-- A put of another workspace leads to a directory that is not this one's, not through an
artifact of this one's, and to an artifact through which this one's way does not lead. -/
structure Apart (workspaceId other : String) (bytes : List UInt8) : Prop where
  different : store.workspaceDirectory other ≠ store.workspaceDirectory workspaceId
  outside : ∀ sha256, isSha256 sha256 = true →
    store.artifactPath workspaceId sha256 ∉ store.parents other (store.sha256Hex bytes)
  around : store.artifactPath other (store.sha256Hex bytes) ∉
    visited [] (store.workspaceSegments workspaceId)

/-- Where the way to an artifact of a workspace breaks off at a missing directory, no file
stands on the rest of it and nothing at its end. -/
def Settled (tree : Tree) (workspaceId : String) : Prop :=
  ∀ sha256, isSha256 sha256 = true →
    tree.enter (store.parents workspaceId sha256) = .error .notFound →
    (∀ directory ∈ store.parents workspaceId sha256, tree.obstructed directory = false) ∧
      tree.pathExists (store.artifactPath workspaceId sha256) = false

section

variable {store} {workspaceId other sha256 : String} {tree own : Tree}

theorem length_of_isSha256 (valid : isSha256 sha256 = true) : sha256.toList.length = 64 := by
  simp only [isSha256, Bool.and_eq_true, decide_eq_true_eq] at valid
  exact valid.1

theorem shard_ne (valid : isSha256 sha256 = true) (sha256' : String) : shard sha256' ≠ sha256 := by
  intro same
  have lengths := congrArg (fun text : String => text.toList.length) same
  simp only [shard, String.toList_ofList, List.length_take, length_of_isSha256 valid] at lengths
  omega

theorem artifactPath_injective {sha256' : String}
    (same : store.artifactPath workspaceId sha256 = store.artifactPath other sha256') :
    store.workspaceDirectory workspaceId = store.workspaceDirectory other ∧ sha256 = sha256' := by
  obtain ⟨outer, last⟩ := List.append_inj' same rfl
  obtain ⟨resolved, -⟩ := List.append_inj' outer rfl
  exact ⟨resolved, (List.cons.inj last).1⟩

theorem parents_eq (workspaceId sha256 : String) :
    store.parents workspaceId sha256 =
      visited [] (store.workspaceSegments workspaceId) ++
        [store.artifactDirectory workspaceId sha256] :=
  visited_append [] _ _

/-- An artifact on the way to another one is on the way to its workspace. -/
theorem visited_of_artifactPath_mem {sha256' : String} (valid : isSha256 sha256 = true)
    (member : store.artifactPath other sha256 ∈ store.parents workspaceId sha256') :
    store.artifactPath other sha256 ∈ visited [] (store.workspaceSegments workspaceId) := by
  rw [parents_eq] at member
  rcases List.mem_append.mp member with within | last
  · exact within
  · obtain ⟨-, same⟩ := List.append_inj' (List.mem_singleton.mp last) rfl
    exact absurd (List.cons.inj same).1.symm (shard_ne valid sha256')

/-- A way through an artifact's own place leads through the artifact's directory. -/
theorem artifactDirectory_visited
    (member : store.artifactPath workspaceId sha256 ∈
      visited [] (store.workspaceSegments workspaceId)) :
    store.artifactDirectory workspaceId sha256 ∈
      visited [] (store.workspaceSegments workspaceId) := by
  have outer := visited_dropLast member
  rw [artifactPath, List.dropLast_concat] at outer
  refine outer.resolve_right fun root => ?_
  have short := root.length_le
  simp [artifactDirectory] at short

/-- Two trees answer alike wherever a call of one workspace looks, and the first has every
directory of the second. -/
structure Alike (store : ArtifactStore) (workspaceId : String) (tree own : Tree) : Prop where
  file : ∀ sha256, isSha256 sha256 = true →
    tree.file (store.artifactPath workspaceId sha256) =
      own.file (store.artifactPath workspaceId sha256)
  isDirectory : ∀ sha256, isSha256 sha256 = true →
    tree.isDirectory (store.artifactPath workspaceId sha256) =
      own.isDirectory (store.artifactPath workspaceId sha256)
  obstructed : ∀ sha256, isSha256 sha256 = true →
    ∀ directory ∈ store.parents workspaceId sha256,
      tree.obstructed directory = own.obstructed directory
  grows : ∀ directory, own.isDirectory directory = true → tree.isDirectory directory = true
  settled : store.Settled own workspaceId

theorem Alike.refl (settled : store.Settled tree workspaceId) :
    Alike store workspaceId tree tree :=
  ⟨fun _ _ => rfl, fun _ _ => rfl, fun _ _ _ _ => rfl, fun _ there => there, settled⟩

theorem Alike.pathExists_eq (alike : Alike store workspaceId tree own)
    (valid : isSha256 sha256 = true) :
    tree.pathExists (store.artifactPath workspaceId sha256) =
      own.pathExists (store.artifactPath workspaceId sha256) := by
  simp only [FileTree.pathExists, alike.file sha256 valid, alike.isDirectory sha256 valid]

/-- A walk that breaks off in the one tree may lead further in the other, to nothing. -/
theorem Alike.read_eq (alike : Alike store workspaceId tree own)
    (valid : isSha256 sha256 = true) :
    tree.read (store.artifactPath workspaceId sha256) (store.parents workspaceId sha256) =
      own.read (store.artifactPath workspaceId sha256) (store.parents workspaceId sha256) := by
  by_cases missing : own.enter (store.parents workspaceId sha256) = .error .notFound
  · obtain ⟨free, absent⟩ := alike.settled sha256 valid missing
    have nothing := alike.pathExists_eq valid ▸ absent
    simp only [FileTree.pathExists, Bool.or_eq_false_iff, Option.isSome_eq_false_iff,
      Option.isNone_iff_eq_none] at nothing
    have clear : ∀ directory ∈ store.parents workspaceId sha256,
        tree.obstructed directory = false := fun directory member =>
      (alike.obstructed sha256 valid directory member).trans (free directory member)
    have walked := FileTree.enter_of_free clear
    rcases walked with passed | missed
    · simp [FileTree.read, missing, passed, nothing]
    · simp [FileTree.read, missing, missed]
  · have same := FileTree.enter_of_more alike.grows (alike.obstructed sha256 valid) missing
    simp only [FileTree.read, same, alike.file sha256 valid, alike.isDirectory sha256 valid]

theorem Alike.getIn_eq (alike : Alike store workspaceId tree own) (sha256 : String)
    (maxBytes : Nat) :
    store.getIn tree workspaceId sha256 maxBytes =
      store.getIn own workspaceId sha256 maxBytes := by
  unfold getIn
  split
  · rename_i valid
    rw [alike.read_eq valid]
  · rfl

/-- A workspace's own put leaves it settled: it makes no directory in an artifact's place
without all those on the way to it. -/
theorem Settled.created (settled : store.Settled tree workspaceId) (digest : String) :
    store.Settled (tree.createDirAll false (store.parents workspaceId digest)).2
      workspaceId := by
  intro sha256 valid missing
  obtain ⟨free, absent⟩ := settled sha256 valid (FileTree.enter_before_createDirAll missing)
  simp only [FileTree.pathExists, Bool.or_eq_false_iff] at absent
  refine ⟨fun directory member => ?_, ?_⟩
  · rw [FileTree.obstructed_createDirAll, free directory member]
  · have outside : store.artifactPath workspaceId sha256 ∉
        tree.reachable (store.parents workspaceId digest) := by
      intro reached
      have within := visited_of_artifactPath_mem valid (FileTree.mem_of_reachable reached)
      have directory := artifactDirectory_visited within
      have all : ∀ other ∈ store.parents workspaceId sha256,
          other ∈ tree.reachable (store.parents workspaceId digest) := by
        intro other member
        rw [parents_eq] at member free ⊢
        rw [FileTree.reachable_append_of_free fun other early =>
          free other (List.mem_append_left _ early)]
        rcases List.mem_append.mp member with early | last
        · exact List.mem_append_left _ early
        · exact List.mem_append_left _ (List.mem_singleton.mp last ▸ directory)
      have passed : (tree.createDirAll false (store.parents workspaceId digest)).2.enter
          (store.parents workspaceId sha256) = .ok () := by
        refine FileTree.enter_ok_iff.mpr fun other member => ?_
        rw [FileTree.isDirectory_createDirAll, decide_eq_true (all other member), Bool.true_or]
      rw [passed] at missing
      cases missing
    simp [FileTree.pathExists, FileTree.file_createDirAll, FileTree.isDirectory_createDirAll,
      outside, absent]

theorem Settled.write (settled : store.Settled tree workspaceId) {digest : String}
    (valid : isSha256 digest = true)
    (passed : tree.enter (store.parents workspaceId digest) = .ok ())
    (absent : tree.pathExists (store.artifactPath workspaceId digest) = false)
    (bytes : List UInt8) :
    store.Settled (tree.write (store.artifactPath workspaceId digest) bytes) workspaceId := by
  have outside : ∀ sha256 directory, directory ∈ store.parents workspaceId sha256 →
      store.artifactPath workspaceId digest ≠ directory := by
    rintro sha256 directory member rfl
    have early := visited_of_artifactPath_mem valid member
    have there := FileTree.enter_ok_iff.mp passed _
      (parents_eq workspaceId digest ▸ List.mem_append_left _ early)
    simp [FileTree.pathExists, there] at absent
  intro sha256 shaped missing
  have same : ∀ directory ∈ store.parents workspaceId sha256,
      (tree.write (store.artifactPath workspaceId digest) bytes).obstructed directory =
        tree.obstructed directory :=
    fun directory member => FileTree.obstructed_write_other (outside sha256 directory member) _
  have before : tree.enter (store.parents workspaceId sha256) = .error .notFound := by
    by_contra decided
    have unchanged :
        (tree.write (store.artifactPath workspaceId digest) bytes).enter
          (store.parents workspaceId sha256) = tree.enter (store.parents workspaceId sha256) :=
      FileTree.enter_of_more (fun _ there => there) same decided
    exact decided (unchanged ▸ missing)
  obtain ⟨free, nothing⟩ := settled sha256 shaped before
  have different : store.artifactPath workspaceId digest ≠
      store.artifactPath workspaceId sha256 := by
    intro equal
    obtain ⟨-, rfl⟩ := artifactPath_injective equal
    rw [passed] at before
    cases before
  refine ⟨fun directory member => (same directory member).trans (free directory member), ?_⟩
  simpa only [FileTree.pathExists, FileTree.file_write_other different,
    FileTree.isDirectory_write] using nothing

/-- Creating the directories of the workspace's own artifact keeps two trees alike. -/
theorem Alike.created (alike : Alike store workspaceId tree own) {digest : String}
    (valid : isSha256 digest = true) :
    Alike store workspaceId (tree.createDirAll false (store.parents workspaceId digest)).2
      (own.createDirAll false (store.parents workspaceId digest)).2 := by
  have reached := FileTree.reachable_congr (alike.obstructed digest valid)
  refine ⟨fun sha256 shaped => ?_, fun sha256 shaped => ?_,
    fun sha256 shaped directory member => ?_, fun directory there => ?_,
    alike.settled.created digest⟩
  · rw [FileTree.file_createDirAll, FileTree.file_createDirAll, alike.file sha256 shaped]
  · rw [FileTree.isDirectory_createDirAll, FileTree.isDirectory_createDirAll, reached,
      alike.isDirectory sha256 shaped]
  · rw [FileTree.obstructed_createDirAll, FileTree.obstructed_createDirAll,
      alike.obstructed sha256 shaped directory member]
  · rw [FileTree.isDirectory_createDirAll, reached] at *
    exact Bool.or_eq_true_iff.mpr ((Bool.or_eq_true_iff.mp there).imp id (alike.grows directory))

/-- Writing one artifact of the workspace in both trees keeps them alike. -/
theorem Alike.write (alike : Alike store workspaceId tree own) {digest : String}
    (valid : isSha256 digest = true)
    (passed : own.enter (store.parents workspaceId digest) = .ok ())
    (absent : own.pathExists (store.artifactPath workspaceId digest) = false)
    (bytes : List UInt8) :
    Alike store workspaceId (tree.write (store.artifactPath workspaceId digest) bytes)
      (own.write (store.artifactPath workspaceId digest) bytes) where
  file sha256 shaped := by
    by_cases same : store.artifactPath workspaceId digest = store.artifactPath workspaceId sha256
    · rw [same, FileTree.file_write_same, FileTree.file_write_same]
    · rw [FileTree.file_write_other same, FileTree.file_write_other same,
        alike.file sha256 shaped]
  isDirectory := alike.isDirectory
  obstructed sha256 shaped directory member := by
    by_cases same : store.artifactPath workspaceId digest = directory
    · subst same
      have early := visited_of_artifactPath_mem valid member
      have there := FileTree.enter_ok_iff.mp passed _
        (parents_eq workspaceId digest ▸ List.mem_append_left _ early)
      simp [FileTree.pathExists, there] at absent
    · rw [FileTree.obstructed_write_other same, FileTree.obstructed_write_other same,
        alike.obstructed sha256 shaped directory member]
  grows := alike.grows
  settled := alike.settled.write valid passed absent bytes

/-- A put of the workspace itself does the same in trees that are alike. -/
theorem Alike.putIn (alike : Alike store workspaceId tree own) (bytes : List UInt8)
    (digest : isSha256 (store.sha256Hex bytes) = true) :
    Alike store workspaceId (store.putIn tree workspaceId bytes).2
      (store.putIn own workspaceId bytes).2 := by
  have made := alike.created digest
  have free : (tree.createDirAll false
      (store.parents workspaceId (store.sha256Hex bytes))).1 = .ok () ↔
        (own.createDirAll false
          (store.parents workspaceId (store.sha256Hex bytes))).1 = .ok () := by
    rw [FileTree.createDirAll_ok_iff, FileTree.createDirAll_ok_iff]
    exact forall₂_congr fun directory member => by
      rw [alike.obstructed _ digest directory member]
  have passed : (own.createDirAll false
      (store.parents workspaceId (store.sha256Hex bytes))).1 = .ok () →
        (own.createDirAll false (store.parents workspaceId (store.sha256Hex bytes))).2.enter
          (store.parents workspaceId (store.sha256Hex bytes)) = .ok () :=
        FileTree.enter_createDirAll
  unfold ArtifactStore.putIn
  split
  · exact alike
  · dsimp only
    generalize tree.createDirAll false
      (store.parents workspaceId (store.sha256Hex bytes)) = more at made free ⊢
    generalize own.createDirAll false
      (store.parents workspaceId (store.sha256Hex bytes)) = less at made free passed ⊢
    obtain ⟨outcome, tree'⟩ := more
    obtain ⟨outcome', own'⟩ := less
    dsimp only at made free passed ⊢
    cases outcome' with
    | error error =>
        cases outcome with
        | error error' => exact made
        | ok => cases free.mp rfl
    | ok =>
        cases free.mpr rfl
        dsimp only
        rw [made.pathExists_eq digest]
        split
        · exact made
        · rename_i absent
          exact made.write digest (passed rfl) (Bool.eq_false_iff.mpr absent) bytes

/-- A put of a workspace that is apart changes nothing of what a call of this one sees. -/
theorem Alike.putIn_other {bytes : List UInt8}
    (alike : Alike store workspaceId tree own) (apart : store.Apart workspaceId other bytes)
    (digest : isSha256 (store.sha256Hex bytes) = true) :
    Alike store workspaceId (store.putIn tree other bytes).2 own := by
  have made : Alike store workspaceId
      (tree.createDirAll false (store.parents other (store.sha256Hex bytes))).2 own := by
    refine ⟨fun sha256 valid => ?_, fun sha256 valid => ?_, fun sha256 valid directory member => ?_,
      fun directory there =>
        FileTree.isDirectory_createDirAll_of_isDirectory (alike.grows directory there),
      alike.settled⟩
    · rw [FileTree.file_createDirAll, alike.file sha256 valid]
    · have outside : store.artifactPath workspaceId sha256 ∉
          tree.reachable (store.parents other (store.sha256Hex bytes)) :=
        mt FileTree.mem_of_reachable (apart.outside sha256 valid)
      rw [FileTree.isDirectory_createDirAll, decide_eq_false outside, Bool.false_or,
        alike.isDirectory sha256 valid]
    · rw [FileTree.obstructed_createDirAll, alike.obstructed sha256 valid directory member]
  have written : ∀ between, Alike store workspaceId between own →
      Alike store workspaceId
        (between.write (store.artifactPath other (store.sha256Hex bytes)) bytes) own := by
    intro between before
    refine ⟨fun sha256 valid => ?_, before.isDirectory, fun sha256 valid directory member => ?_,
      before.grows, before.settled⟩
    · have different : store.artifactPath other (store.sha256Hex bytes) ≠
          store.artifactPath workspaceId sha256 :=
        fun same => apart.different (artifactPath_injective same).1
      rw [FileTree.file_write_other different, before.file sha256 valid]
    · have different : store.artifactPath other (store.sha256Hex bytes) ≠ directory := by
        rintro rfl
        exact apart.around (visited_of_artifactPath_mem digest member)
      rw [FileTree.obstructed_write_other different,
        before.obstructed sha256 valid directory member]
  unfold ArtifactStore.putIn
  split
  · exact alike
  · dsimp only
    generalize tree.createDirAll false
      (store.parents other (store.sha256Hex bytes)) = more at made ⊢
    obtain ⟨outcome, between⟩ := more
    cases outcome with
    | error error => exact made
    | ok =>
        dsimp only
        split
        · exact made
        · exact written between made

theorem Alike.run (alike : Alike store workspaceId tree own)
    (digests : ∀ bytes, isSha256 (store.sha256Hex bytes) = true) (calls : List ArtifactCall)
    (apart : ∀ other bytes, .putIn other bytes ∈ calls →
      other = workspaceId ∨ store.Apart workspaceId other bytes) :
    Alike store workspaceId (calls.foldl store.run tree)
      ((calls.filter (isPutOf workspaceId)).foldl store.run own) := by
  induction calls generalizing tree own with
  | nil => exact alike
  | cons call calls ih =>
      have later : ∀ other bytes, ArtifactCall.putIn other bytes ∈ calls →
          other = workspaceId ∨ store.Apart workspaceId other bytes :=
        fun other bytes member => apart other bytes (List.mem_cons_of_mem _ member)
      cases call with
      | getIn other sha256 maxBytes => exact ih alike later
      | putIn other bytes =>
          by_cases same : other = workspaceId
          · subst same
            simp only [List.filter_cons, isPutOf, decide_true, if_true, List.foldl_cons]
            exact ih (alike.putIn bytes (digests bytes)) later
          · simp only [List.filter_cons, isPutOf, same, decide_false, Bool.false_eq_true,
              if_false, List.foldl_cons]
            have apart := (apart other bytes List.mem_cons_self).resolve_left same
            exact ih (alike.putIn_other apart (digests bytes)) later

/-- On a store that has just been opened a way breaks off before it meets anything, unless it
leads back to the store's own directory. -/
theorem settled_opened
    (inside : ∀ sha256, ¬ store.artifactPath workspaceId sha256 <+: store.directory) :
    store.Settled store.opened workspaceId := by
  intro sha256 _ _
  refine ⟨fun directory _ => by simp [FileTree.obstructed, FileTree.file, opened], ?_⟩
  simp [FileTree.pathExists, FileTree.file, FileTree.isDirectory, opened, inside sha256]

end

/-- Where every other workspace that puts is apart from this one, what this one gets is
what it gets after its own puts alone. -/
theorem getIn_isolated (tree : Tree) (workspaceId : String) (calls : List ArtifactCall)
    (settled : store.Settled tree workspaceId)
    (digests : ∀ bytes, isSha256 (store.sha256Hex bytes) = true)
    (apart : ∀ other bytes, .putIn other bytes ∈ calls →
      other = workspaceId ∨ store.Apart workspaceId other bytes)
    (sha256 : String) (maxBytes : Nat) :
    store.getIn (calls.foldl store.run tree) workspaceId sha256 maxBytes =
      store.getIn ((calls.filter (isPutOf workspaceId)).foldl store.run tree) workspaceId sha256
        maxBytes :=
  ((Alike.refl settled).run digests calls apart).getIn_eq sha256 maxBytes

namespace Demo

def hello : List UInt8 := [104, 101, 108, 108, 111]

def helloDigest : String := "2cf24dba5fb0a30e26e83b2ac5b9e29e1b161e5c1fa7425e73043362938b9824"

def emptyDigest : String := "e3b0c44298fc1c149afbf4c8996fb92427ae41e4649b934ca495991b7852b855"

def artifacts : ArtifactStore where
  directory := ["data", "artifacts"]
  maxBytes := 1048576
  sha256Hex bytes := if bytes = hello then helloDigest else emptyDigest

theorem digests (bytes : List UInt8) : isSha256 (artifacts.sha256Hex bytes) = true := by
  show isSha256 (if bytes = hello then helloDigest else emptyDigest) = true
  split <;> decide +kernel

end Demo

theorem getIn_isolated_teams :
    Demo.artifacts.getIn ([.putIn "team" Demo.hello, .putIn "other" []].foldl Demo.artifacts.run
        Demo.artifacts.opened) "team" Demo.helloDigest 3 =
      Demo.artifacts.getIn
        ([.putIn "team" Demo.hello].foldl Demo.artifacts.run Demo.artifacts.opened)
        "team" Demo.helloDigest 3 := by
  have long : ∀ sha256, (Demo.artifacts.artifactPath "team" sha256).length = 5 := by
    intro sha256
    have team : Demo.artifacts.workspaceDirectory "team" = ["data", "artifacts", "team"] := by
      decide +kernel
    simp [artifactPath, artifactDirectory, team]
  have short : ∀ directory ∈ Demo.artifacts.parents "other" (Demo.artifacts.sha256Hex []),
      directory.length ≤ 4 := by decide +kernel
  have apart : Demo.artifacts.Apart "team" "other" [] := by
    refine ⟨by decide +kernel, fun sha256 _ within => ?_, by decide +kernel⟩
    have bounded := short _ within
    rw [long sha256] at bounded
    omega
  have settled : Demo.artifacts.Settled Demo.artifacts.opened "team" := by
    refine settled_opened fun sha256 within => ?_
    have bounded := within.length_le
    rw [long sha256] at bounded
    exact absurd bounded (by decide)
  have kept : [ArtifactCall.putIn "team" Demo.hello, .putIn "other" []].filter
      (isPutOf "team") = [.putIn "team" Demo.hello] := by decide
  rw [← kept]
  refine getIn_isolated Demo.artifacts Demo.artifacts.opened "team" _ settled Demo.digests ?_ _ _
  intro other bytes member
  simp only [List.mem_cons, ArtifactCall.putIn.injEq, List.not_mem_nil, or_false] at member
  rcases member with ⟨rfl, -⟩ | ⟨rfl, rfl⟩
  · exact .inl rfl
  · exact .inr apart

/-- What is put under one identifier can be read through another spelling of it. -/
theorem not_getIn_isolated :
    Demo.artifacts.getIn ([.putIn "team" Demo.hello].foldl Demo.artifacts.run Demo.artifacts.opened)
        "./team" Demo.helloDigest 5 = .ok Demo.hello ∧
      [ArtifactCall.putIn "team" Demo.hello].filter (isPutOf "./team") = [] ∧
      Demo.artifacts.getIn Demo.artifacts.opened "./team" Demo.helloDigest 5 =
        .error (.notFound s!"artifact {Demo.helloDigest}") := by
  refine ⟨?_, ?_, ?_⟩ <;> decide +kernel

end ArtifactStore

end OpsCodex.Evidence
