import OpsCodex.Evidence.Artifact

/-! What the artifact store returns when a crash may cut off a put: a file is written in
place, and a put leaves a file that exists as it is. -/

set_option autoImplicit false

namespace OpsCodex.Evidence.ArtifactStore

open Storage

/-- Where a crash stops a put: while it creates the directories, of which some are there, or
after it has created the file and written a number of bytes. -/
inductive Crash where
  | creating (depth : Nat)
  | writing (count : Nat)

inductive Step where
  | put (workspaceId : String) (bytes : List UInt8)
  | get (workspaceId sha256 : String) (maxBytes : Nat)
  | torn (workspaceId : String) (bytes : List UInt8) (crash : Crash)

variable (store : ArtifactStore)

/-- What a put leaves that a crash stops. -/
def tornPut (tree : Tree) (workspaceId : String) (bytes : List UInt8) (crash : Crash) : Tree :=
  let digest := store.sha256Hex bytes
  let parents := store.parents workspaceId digest
  let path := store.artifactPath workspaceId digest
  if store.maxBytes < bytes.length then tree
  else match crash with
    | .creating depth => (tree.createDirAll false (parents.take depth)).2
    | .writing count =>
        match tree.createDirAll false parents with
        | (.error _, tree) => tree
        | (.ok (), tree) =>
            if tree.pathExists path then tree else tree.write path (bytes.take count)

def after (tree : Tree) : Step → Tree
  | .put workspaceId bytes => (store.putIn tree workspaceId bytes).2
  | .get _ _ _ => tree
  | .torn workspaceId bytes crash => store.tornPut tree workspaceId bytes crash

/-- No crash between the creation of a file and its last byte. -/
def Whole (tree : Tree) : Step → Prop
  | .torn workspaceId bytes (.writing count) => bytes.length ≤ count ∨
      tree.pathExists (store.artifactPath workspaceId (store.sha256Hex bytes)) = true
  | _ => True

def AllWhole : Tree → List Step → Prop
  | _, [] => True
  | tree, step :: steps => store.Whole tree step ∧ AllWhole (store.after tree step) steps

def contentOf : Step → Option (List UInt8)
  | .put _ bytes => some bytes
  | .get _ _ _ => none
  | .torn _ bytes _ => some bytes

/-- What a caller expects of the artifacts in a tree, where `contents` have been put. -/
structure Integrity (contents : List (List UInt8)) (tree : Tree) : Prop where
  get : ∀ workspaceId sha256 maxBytes stored bytes,
    tree.file (store.artifactPath workspaceId sha256) = some stored →
    stored.length ≤ maxBytes → store.getIn tree workspaceId sha256 maxBytes = .ok bytes →
    store.sha256Hex bytes = sha256
  put : ∀ workspaceId bytes digest later maxBytes,
    store.putIn tree workspaceId bytes = (.ok digest, later) →
    tree.isDirectory (store.artifactPath workspaceId digest) = false →
    store.artifactPath workspaceId digest ∉ store.parents workspaceId digest →
    (∀ other ∈ contents, store.sha256Hex other = store.sha256Hex bytes → other = bytes) →
    bytes.length ≤ maxBytes → store.getIn later workspaceId digest maxBytes = .ok bytes

/-- Every file is one of the contents under its digest. -/
def Intact (contents : List (List UInt8)) (tree : Tree) : Prop :=
  ∀ path content, tree.file path = some content → content ∈ contents ∧
    content.length ≤ store.maxBytes ∧
    ∃ workspaceId, path = store.artifactPath workspaceId (store.sha256Hex content)

section

variable {store} {contents : List (List UInt8)} {tree : Tree} {workspaceId : String}
  {bytes : List UInt8}

theorem Intact.mono (intact : store.Intact contents tree) {more : List (List UInt8)}
    (subset : contents ⊆ more) : store.Intact more tree := by
  intro path content found
  obtain ⟨member, fits, named⟩ := intact path content found
  exact ⟨subset member, fits, named⟩

/-- More directories change no file. -/
theorem Intact.created (intact : store.Intact contents tree) {way : List (List String)}
    {outcome : Except FileError Unit} {made : Tree}
    (creates : tree.createDirAll false way = (outcome, made)) : store.Intact contents made := by
  intro path content found
  have same := FileTree.file_createDirAll tree false way path
  rw [creates] at same
  exact intact path content (same ▸ found)

theorem Intact.write (intact : store.Intact contents tree) (member : bytes ∈ contents)
    (fits : bytes.length ≤ store.maxBytes) (workspaceId : String) :
    store.Intact contents
      (tree.write (store.artifactPath workspaceId (store.sha256Hex bytes)) bytes) := by
  intro path content found
  by_cases same : store.artifactPath workspaceId (store.sha256Hex bytes) = path
  · subst same
    rw [FileTree.file_write_same] at found
    cases found
    exact ⟨member, fits, workspaceId, rfl⟩
  · rw [FileTree.file_write_other same] at found
    exact intact path content found

theorem Intact.put (intact : store.Intact contents tree) (member : bytes ∈ contents)
    (workspaceId : String) : store.Intact contents (store.putIn tree workspaceId bytes).2 := by
  unfold putIn
  split
  · exact intact
  · rename_i fits
    dsimp only
    split
    · rename_i error made creates
      exact intact.created creates
    · rename_i made creates
      have before := intact.created creates
      split
      · exact before
      · exact before.write member (Nat.le_of_not_lt fits) workspaceId

theorem Intact.torn (intact : store.Intact contents tree) (member : bytes ∈ contents)
    {crash : Crash} (whole : store.Whole tree (.torn workspaceId bytes crash)) :
    store.Intact contents (store.tornPut tree workspaceId bytes crash) := by
  unfold tornPut
  dsimp only
  split
  · exact intact
  · rename_i fits
    cases crash with
    | creating depth => exact intact.created rfl
    | writing count =>
        dsimp only
        split
        · rename_i error made creates
          exact intact.created creates
        · rename_i made creates
          have before := intact.created creates
          split
          · exact before
          · rename_i absent
            rcases whole with all | there
            · rw [List.take_of_length_le all]
              exact before.write member (Nat.le_of_not_lt fits) workspaceId
            · refine absurd ?_ absent
              have kept : (tree.createDirAll false
                  (store.parents workspaceId (store.sha256Hex bytes))).2.pathExists
                    (store.artifactPath workspaceId (store.sha256Hex bytes)) = true :=
                FileTree.pathExists_createDirAll there
              rwa [creates] at kept

theorem Intact.after (intact : store.Intact contents tree) {step : Step}
    (whole : store.Whole tree step) (member : ∀ bytes ∈ contentOf step, bytes ∈ contents) :
    store.Intact contents (store.after tree step) := by
  cases step with
  | put workspaceId bytes => exact intact.put (member bytes rfl) workspaceId
  | get workspaceId sha256 maxBytes => exact intact
  | torn workspaceId bytes crash => exact intact.torn (member bytes rfl) whole

theorem Intact.run (intact : store.Intact contents tree) {steps : List Step}
    (whole : store.AllWhole tree steps)
    (put : ∀ bytes ∈ steps.filterMap contentOf, bytes ∈ contents) :
    store.Intact contents (steps.foldl store.after tree) := by
  induction steps generalizing tree with
  | nil => exact intact
  | cons step steps ih =>
      refine ih (intact.after whole.1 fun bytes own => ?_) whole.2 fun bytes later => ?_
      · exact put bytes (List.mem_filterMap.mpr ⟨step, List.mem_cons_self, own⟩)
      · obtain ⟨other, member, own⟩ := List.mem_filterMap.mp later
        exact put bytes (List.mem_filterMap.mpr ⟨other, List.mem_cons_of_mem _ member, own⟩)

theorem intact_opened : store.Intact contents store.opened := by
  intro path content found
  cases found

/-- A get with room for the whole file returns the whole file, where its directories are. -/
theorem getIn_stored {sha256 : String} {maxBytes : Nat} {stored : List UInt8}
    (valid : isSha256 sha256 = true)
    (passed : tree.enter (store.parents workspaceId sha256) = .ok ())
    (found : tree.file (store.artifactPath workspaceId sha256) = some stored)
    (fits : stored.length ≤ store.maxBytes) (room : stored.length ≤ maxBytes) :
    store.getIn tree workspaceId sha256 maxBytes = .ok stored := by
  unfold getIn
  rw [if_pos valid]
  simp only [FileTree.read, passed, found]
  rw [List.take_of_length_le (by omega)]

/-- A get that returns something has found the directories and an identifier in shape. -/
theorem getIn_ok {sha256 : String} {maxBytes : Nat}
    (got : store.getIn tree workspaceId sha256 maxBytes = .ok bytes) :
    isSha256 sha256 = true ∧ tree.enter (store.parents workspaceId sha256) = .ok () := by
  unfold getIn at got
  split at got
  · rename_i valid
    refine ⟨valid, ?_⟩
    cases walked : tree.enter (store.parents workspaceId sha256) with
    | ok => rfl
    | error error => cases error <;> simp [FileTree.read, walked] at got
  · cases got

theorem integrity_get (intact : store.Intact contents tree) {sha256 : String} {maxBytes : Nat}
    {stored : List UInt8} (found : tree.file (store.artifactPath workspaceId sha256) = some stored)
    (room : stored.length ≤ maxBytes)
    (got : store.getIn tree workspaceId sha256 maxBytes = .ok bytes) :
    store.sha256Hex bytes = sha256 := by
  obtain ⟨-, fits, other, named⟩ := intact _ _ found
  obtain ⟨valid, passed⟩ := getIn_ok got
  rw [getIn_stored valid passed found fits room] at got
  cases got
  exact (artifactPath_injective named).2.symm

/-- After a put that succeeds the artifact's file is there, at the end of its directories. -/
theorem file_putIn {digest : String} {later : Tree}
    (put : store.putIn tree workspaceId bytes = (.ok digest, later))
    (free : tree.isDirectory (store.artifactPath workspaceId digest) = false)
    (outside : store.artifactPath workspaceId digest ∉ store.parents workspaceId digest) :
    digest = store.sha256Hex bytes ∧ bytes.length ≤ store.maxBytes ∧
      later.enter (store.parents workspaceId digest) = .ok () ∧
      ∃ stored, later.file (store.artifactPath workspaceId digest) = some stored ∧
        (stored = bytes ∨ tree.file (store.artifactPath workspaceId digest) = some stored) := by
  unfold putIn at put
  split at put
  · cases put
  · rename_i fits
    dsimp only at put
    split at put
    · cases put
    · rename_i made creates
      have passed := FileTree.enter_createDirAll (congrArg Prod.fst creates)
      rw [creates] at passed
      split at put
      · rename_i there
        cases put
        have unmade : store.artifactPath workspaceId (store.sha256Hex bytes) ∉
            tree.reachable (store.parents workspaceId (store.sha256Hex bytes)) :=
          mt FileTree.mem_of_reachable outside
        have kept := FileTree.isDirectory_createDirAll tree false
          (store.parents workspaceId (store.sha256Hex bytes))
          (store.artifactPath workspaceId (store.sha256Hex bytes))
        have same := FileTree.file_createDirAll tree false
          (store.parents workspaceId (store.sha256Hex bytes))
          (store.artifactPath workspaceId (store.sha256Hex bytes))
        rw [creates, decide_eq_false unmade, Bool.false_or, free] at kept
        rw [creates] at same
        rw [FileTree.pathExists, kept, Bool.or_false] at there
        obtain ⟨stored, found⟩ := Option.isSome_iff_exists.mp there
        exact ⟨rfl, Nat.le_of_not_lt fits, passed, stored, found, .inr (same ▸ found)⟩
      · rename_i absent
        cases put
        refine ⟨rfl, Nat.le_of_not_lt fits, ?_, bytes, FileTree.file_write_same _, .inl rfl⟩
        have there := FileTree.enter_ok_iff.mp passed
        exact FileTree.enter_ok_iff.mpr there

theorem integrity_put (digests : ∀ bytes, isSha256 (store.sha256Hex bytes) = true)
    (intact : store.Intact contents tree) {digest : String} {later : Tree} {maxBytes : Nat}
    (put : store.putIn tree workspaceId bytes = (.ok digest, later))
    (free : tree.isDirectory (store.artifactPath workspaceId digest) = false)
    (outside : store.artifactPath workspaceId digest ∉ store.parents workspaceId digest)
    (distinct : ∀ other ∈ contents, store.sha256Hex other = store.sha256Hex bytes →
      other = bytes) (room : bytes.length ≤ maxBytes) :
    store.getIn later workspaceId digest maxBytes = .ok bytes := by
  obtain ⟨rfl, fits, passed, stored, found, origin⟩ := file_putIn put free outside
  have same : stored = bytes := by
    rcases origin with same | old
    · exact same
    · obtain ⟨member, -, other, named⟩ := intact _ _ old
      exact distinct stored member (artifactPath_injective named).2.symm
  subst same
  exact getIn_stored (digests stored) passed found fits room

/-- In a run in which no crash falls between the creation of a file and its last byte, every
artifact that is read in full has its digest, and a put can be read back. -/
theorem integrity_of_whole (digests : ∀ bytes, isSha256 (store.sha256Hex bytes) = true)
    {steps : List Step} (whole : store.AllWhole store.opened steps) :
    store.Integrity (steps.filterMap contentOf) (steps.foldl store.after store.opened) := by
  have intact := intact_opened.run whole fun bytes member => member
  exact ⟨fun _ _ _ _ _ found room got => integrity_get intact found room got,
    fun _ _ _ _ _ put free outside distinct room =>
      integrity_put digests intact put free outside distinct room⟩

end

namespace Demo.Tears

def firstByteDigest : String := "aaa9402664f1a41f40ebbc52c9993eb66aeb366602958fdfaa283b71e64db123"

def artifacts : ArtifactStore where
  directory := ["data", "artifacts"]
  maxBytes := 1048576
  sha256Hex bytes :=
    if bytes = Demo.hello then Demo.helloDigest
    else if bytes = [104] then firstByteDigest
    else Demo.emptyDigest

theorem digests (bytes : List UInt8) : isSha256 (artifacts.sha256Hex bytes) = true := by
  unfold artifacts
  dsimp only
  split
  · decide +kernel
  · split <;> decide +kernel

/-- A put that is repeated after a crash in the middle of it. -/
def repeated (crash : Crash) : List Step :=
  [.torn "team" Demo.hello crash, .put "team" Demo.hello]

end Demo.Tears

open Demo.Tears in
theorem integrity_of_whole_repeated :
    artifacts.Integrity ((repeated (.creating 3)).filterMap contentOf)
      ((repeated (.creating 3)).foldl artifacts.after artifacts.opened) :=
  integrity_of_whole digests ⟨trivial, trivial, trivial⟩

open Demo.Tears in
/-- After a crash that leaves one byte, a repeated put is read back as that byte for ever. -/
theorem not_integrity : ¬ ∀ steps : List Step,
    artifacts.Integrity (steps.filterMap contentOf)
      (steps.foldl artifacts.after artifacts.opened) := by
  intro always
  have digest := (always (repeated (.writing 1))).get "team" Demo.helloDigest 5 [104] [104]
    (by decide +kernel) (by decide) (by decide +kernel)
  revert digest
  decide +kernel

end OpsCodex.Evidence.ArtifactStore
