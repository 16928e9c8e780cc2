import Mathlib.Data.List.MinMax
import Mathlib.Data.List.Nodup
import Mathlib.Data.String.Basic
import OpsCodex.Extensions.Skill
import OpsCodex.Store.Migration

/-! Runbooks: local documents that are found by their words and read by their identifier. -/

set_option autoImplicit false

namespace OpsCodex

open OpsCodex.Action (Codec utf8)
open OpsCodex.Strings (eqIgnoreAsciiCase isWhitespace toAsciiLowercase trim)
open OpsCodex.Extensions Offsets

structure RunbookMeta where
  id : String
  title : String
  services : List String
  signals : List String
  tags : List String
  version : UInt32
  hash : String

structure Runbook where
  info : RunbookMeta
  body : List Char

namespace Runbook

def key (runbook : Runbook) : String × UInt32 := (runbook.info.id, runbook.info.version)

structure FrontMatter where
  id : String
  title : String
  services : List String
  signals : List String
  tags : List String
  version : UInt32

def parse (codec : Codec) (fromStr : List Char → Except String FrontMatter)
    (source : List Char) : Result Runbook :=
  let trimmed := source.dropWhile isWhitespace
  if ¬ ['-', '-', '-'] <+: trimmed then
    .error (.protocol "runbook is missing YAML front matter")
  else
    match Strings.splitOnce ['\n', '-', '-', '-'] (trimmed.drop 3) with
    | none => .error (.protocol "runbook front matter is not terminated")
    | some (front, body) =>
        match fromStr (trim front) with
        | .error error => .error (.protocol ("invalid runbook front matter: " ++ error))
        | .ok front =>
            if (trim front.id.toList).isEmpty || (trim front.title.toList).isEmpty then
              .error (.protocol "runbook id and title are required")
            else
              .ok {
                info := {
                  id := front.id
                  title := front.title
                  services := front.services
                  signals := front.signals
                  tags := front.tags
                  version := if front.version = 0 then 1 else front.version
                  hash := codec.sha256Hex (utf8 (String.ofList source)) }
                body := trim body }

/-- The words that a query is looked for in. -/
def hay (runbook : Runbook) : List Char :=
  toAsciiLowercase (runbook.info.id ++ " " ++ runbook.info.title ++ " " ++
    " ".intercalate runbook.info.tags ++ " " ++ " ".intercalate runbook.info.signals).toList

def score (needle : List Char) (runbook : Runbook) : Nat :=
  if needle.isEmpty || Strings.contains needle runbook.hay then
    1 + (runbook.info.signals.filter fun signal =>
      Strings.contains needle (toAsciiLowercase signal.toList)).length
  else 0

def serves (service : Option String) (runbook : Runbook) : Bool :=
  service.all fun service =>
    runbook.info.services.any fun item => eqIgnoreAsciiCase item.toList service.toList

/-- An identifier that could name another file. -/
def hasPathSegments (id : String) : Bool :=
  Strings.contains ['.', '.'] id.toList || id.toList.contains '/' || id.toList.contains '\\'

/-- The runbook of the greatest version. -/
def latest (runbooks : List Runbook) : Option Runbook :=
  -- of equal versions the last one wins
  runbooks.reverse.argmax fun runbook => runbook.info.version.toNat

/-- The order of what a search finds: a greater score first, then by identifier. -/
def ranked (left right : Nat × RunbookMeta) : Bool :=
  decide (right.1 < left.1) || (decide (left.1 = right.1) && decide (¬ right.2.id < left.2.id))

end Runbook

/-- The runbooks that were loaded: no two of them share their identifier and version. -/
structure RunbookCatalog where
  runbooks : List Runbook
  unique : (runbooks.map Runbook.key).Nodup

/-- A file of the runbook directory, with its text unless it cannot be read. -/
structure RunbookFile where
  name : List UInt8
  path : String
  content : Except String (List Char)

/-- What reading the runbook directory gives: none is configured or it does not exist, it
cannot be read, or its entries in the order of the file system. -/
inductive RunbookDirectory where
  | absent
  | unreadable (error : String)
  | entries (entries : List (Except String RunbookFile))

namespace RunbookCatalog

def empty : RunbookCatalog where
  runbooks := []
  unique := List.nodup_nil

def knows (catalog : RunbookCatalog) (runbook : Runbook) : Bool :=
  catalog.runbooks.any fun item =>
    item.info.id = runbook.info.id && item.info.version = runbook.info.version

theorem knows_iff {catalog : RunbookCatalog} {runbook : Runbook} :
    catalog.knows runbook = true ↔ runbook.key ∈ catalog.runbooks.map Runbook.key := by
  simp only [knows, List.any_eq_true, Bool.and_eq_true, decide_eq_true_eq, List.mem_map,
    Runbook.key, Prod.mk.injEq]

theorem nodup_concat {catalog : RunbookCatalog} {runbook : Runbook}
    (fresh : ¬ catalog.knows runbook = true) :
    ((catalog.runbooks ++ [runbook]).map Runbook.key).Nodup := by
  rw [knows_iff] at fresh
  rw [List.map_append, List.map_singleton, ← List.concat_eq_append]
  exact catalog.unique.concat fresh

def insert (catalog : RunbookCatalog) (runbook : Runbook) : Result RunbookCatalog :=
  if known : catalog.knows runbook then
    .error (.protocol s!"duplicate runbook {runbook.info.id}@{runbook.info.version}")
  else .ok ⟨catalog.runbooks ++ [runbook], nodup_concat known⟩

def search (catalog : RunbookCatalog) (query : String) (service : Option String) :
    List RunbookMeta :=
  let needle := toAsciiLowercase query.toList
  let scored := (catalog.runbooks.filter (Runbook.serves service)).map fun runbook =>
    (runbook.score needle, runbook.info)
  ((scored.filter fun found => 0 < found.1).mergeSort Runbook.ranked).map Prod.snd

def read (catalog : RunbookCatalog) (id : String) (version : Option UInt32) : Result Runbook :=
  if Runbook.hasPathSegments id then
    .error (.policy "runbook id cannot contain path segments")
  else
    match Runbook.latest ((catalog.runbooks.filter fun runbook => runbook.info.id = id).filter
        fun runbook => version.all fun version => runbook.info.version = version) with
    | none => .error (.notFound s!"runbook {id}")
    | some runbook => .ok runbook

def isMarkdown (name : List UInt8) : Bool :=
  decide ((Store.splitExtension name).2 = some (utf8 "md"))

section

variable (codec : Codec) (fromStr : List Char → Except String Runbook.FrontMatter)

/-- The runbook of an entry, and none for a file of another kind. -/
def ofEntry : Except String RunbookFile → Result (Option Runbook)
  | .error error => .error (.storage s!"failed to read runbook entry: {error}")
  | .ok file =>
      if isMarkdown file.name then
        match file.content with
        | .error error => .error (.storage s!"failed to read {file.path}: {error}")
        | .ok source => (Runbook.parse codec fromStr source).map some
      else .ok none

def loadFrom (catalog : RunbookCatalog) :
    List (Except String RunbookFile) → Result RunbookCatalog
  | [] => .ok catalog
  | entry :: entries => do
      match ← ofEntry codec fromStr entry with
      | none => loadFrom catalog entries
      | some runbook => loadFrom (← catalog.insert runbook) entries

def load : RunbookDirectory → Result RunbookCatalog
  | .absent => .ok empty
  | .unreadable error => .error (.storage s!"failed to read runbook directory: {error}")
  | .entries entries => loadFrom codec fromStr empty entries

end

/-! ## Loading -/

section Loading

variable {codec : Codec} {fromStr : List Char → Except String Runbook.FrontMatter}
  {catalog next : RunbookCatalog} {runbook : Runbook}
  {entries shuffled : List (Except String RunbookFile)}

variable (codec fromStr) in
/-- The runbooks of the entries that can be read. -/
def runbooksOf (entries : List (Except String RunbookFile)) : List Runbook :=
  entries.filterMap fun entry => (ofEntry codec fromStr entry).toOption.join

theorem runbooksOf_none {entry : Except String RunbookFile}
    (other : ofEntry codec fromStr entry = .ok none) :
    runbooksOf codec fromStr (entry :: entries) = runbooksOf codec fromStr entries := by
  rw [runbooksOf, List.filterMap_cons, other]
  rfl

theorem runbooksOf_some {entry : Except String RunbookFile}
    (found : ofEntry codec fromStr entry = .ok (some runbook)) :
    runbooksOf codec fromStr (entry :: entries) =
      runbook :: runbooksOf codec fromStr entries := by
  rw [runbooksOf, List.filterMap_cons, found]
  rfl

theorem insert_runbooks (inserted : catalog.insert runbook = .ok next) :
    next.runbooks = catalog.runbooks ++ [runbook] := by
  rw [insert] at inserted
  split at inserted
  · cases inserted
  · cases inserted
    rfl

/-- A load that succeeds has read every entry and keeps what it found in their order. -/
theorem loadFrom_runbooks (loaded : loadFrom codec fromStr catalog entries = .ok next) :
    (∀ entry ∈ entries, ∃ found, ofEntry codec fromStr entry = .ok found) ∧
      next.runbooks = catalog.runbooks ++ runbooksOf codec fromStr entries := by
  induction entries generalizing catalog with
  | nil =>
      cases loaded
      exact ⟨fun _ inside => absurd inside List.not_mem_nil, (List.append_nil _).symm⟩
  | cons entry entries ih =>
      rw [loadFrom] at loaded
      cases reads : ofEntry codec fromStr entry with
      | error error =>
          rw [reads] at loaded
          cases loaded
      | ok found =>
          rw [reads] at loaded
          cases found with
          | none =>
              obtain ⟨readable, grown⟩ := ih loaded
              exact ⟨List.forall_mem_cons.mpr ⟨⟨_, reads⟩, readable⟩,
                by rw [grown, runbooksOf_none reads]⟩
          | some runbook =>
              cases inserted : catalog.insert runbook with
              | error error =>
                  simp only [inserted, bind, Except.bind] at loaded
                  cases loaded
              | ok larger =>
                  simp only [inserted, bind, Except.bind] at loaded
                  obtain ⟨readable, grown⟩ := ih loaded
                  refine ⟨List.forall_mem_cons.mpr ⟨⟨_, reads⟩, readable⟩, ?_⟩
                  rw [grown, insert_runbooks inserted, runbooksOf_some reads,
                    List.append_assoc, List.singleton_append]

theorem loadFrom_succeeds
    (readable : ∀ entry ∈ entries, ∃ found, ofEntry codec fromStr entry = .ok found)
    (distinct : ((catalog.runbooks ++ runbooksOf codec fromStr entries).map
      Runbook.key).Nodup) :
    ∃ next, loadFrom codec fromStr catalog entries = .ok next := by
  induction entries generalizing catalog with
  | nil => exact ⟨catalog, rfl⟩
  | cons entry entries ih =>
      obtain ⟨⟨found, reads⟩, readable⟩ := List.forall_mem_cons.mp readable
      rw [loadFrom, reads]
      cases found with
      | none =>
          rw [runbooksOf_none reads] at distinct
          exact ih readable distinct
      | some runbook =>
          rw [runbooksOf_some reads, List.append_cons] at distinct
          have fresh : ¬ catalog.knows runbook = true := by
            rw [knows_iff]
            intro known
            rw [List.map_append, List.map_append, List.nodup_append, List.nodup_append] at distinct
            exact distinct.1.2.2 _ known _ (List.mem_singleton_self _) rfl
          have inserted : catalog.insert runbook = .ok ⟨_, nodup_concat fresh⟩ := dif_neg fresh
          simp only [inserted, bind, Except.bind]
          exact ih readable distinct

theorem loadFrom_shuffled (same : entries.Perm shuffled)
    (loaded : loadFrom codec fromStr empty entries = .ok catalog) :
    ∃ other, loadFrom codec fromStr empty shuffled = .ok other ∧
      other.runbooks.Perm catalog.runbooks := by
  obtain ⟨readable, grown⟩ := loadFrom_runbooks loaded
  have alike : (runbooksOf codec fromStr shuffled).Perm catalog.runbooks := by
    rw [grown]
    exact (same.filterMap _).symm
  have distinct : ((empty.runbooks ++ runbooksOf codec fromStr shuffled).map
      Runbook.key).Nodup :=
    (alike.map Runbook.key).nodup_iff.mpr catalog.unique
  obtain ⟨other, succeeded⟩ := loadFrom_succeeds
    (fun entry inside => readable entry (same.mem_iff.mpr inside)) distinct
  refine ⟨other, succeeded, ?_⟩
  rw [(loadFrom_runbooks succeeded).2]
  exact alike

end Loading

/-! ## Reading -/

section Reading

open Runbook (latest)

variable {runbooks shuffled : List Runbook} {runbook : Runbook} {catalog other : RunbookCatalog}

theorem latest_eq_none : latest runbooks = none ↔ runbooks = [] := by
  rw [latest, List.argmax_eq_none, List.reverse_eq_nil_iff]

theorem latest_mem (greatest : latest runbooks = some runbook) : runbook ∈ runbooks :=
  List.mem_reverse.mp (List.argmax_mem greatest)

theorem latest_max (greatest : latest runbooks = some runbook) {item : Runbook}
    (inside : item ∈ runbooks) : item.info.version.toNat ≤ runbook.info.version.toNat :=
  List.le_of_mem_argmax (f := fun item : Runbook => item.info.version.toNat)
    (List.mem_reverse.mpr inside) greatest

/-- Where no two have the same version, the greatest does not depend on the order. -/
theorem latest_shuffled (same : runbooks.Perm shuffled)
    (distinct : ∀ left ∈ runbooks, ∀ right ∈ runbooks,
      left.info.version = right.info.version → left = right) :
    latest runbooks = latest shuffled := by
  cases first : latest runbooks with
  | none =>
      rw [latest_eq_none] at first
      subst first
      exact (latest_eq_none.mpr same.nil_eq.symm).symm
  | some left =>
      cases second : latest shuffled with
      | none =>
          rw [latest_eq_none] at second
          subst second
          rw [same.eq_nil] at first
          cases first
      | some right =>
          have inside := same.mem_iff.mpr (latest_mem second)
          have above := latest_max first inside
          have below := latest_max second (same.mem_iff.mp (latest_mem first))
          rw [distinct left (latest_mem first) right inside
            (UInt32.toNat_inj.mp (Nat.le_antisymm below above))]

theorem key_inj (left right : Runbook) (inside : left ∈ catalog.runbooks)
    (within : right ∈ catalog.runbooks) (same : left.key = right.key) : left = right :=
  List.inj_on_of_nodup_map catalog.unique inside within same

/-- What `read` looks at. -/
def candidates (catalog : RunbookCatalog) (id : String) (version : Option UInt32) :
    List Runbook :=
  (catalog.runbooks.filter fun runbook => runbook.info.id = id).filter fun runbook =>
    version.all fun version => runbook.info.version = version

theorem mem_candidates {id : String} {version : Option UInt32} :
    runbook ∈ catalog.candidates id version ↔
      runbook ∈ catalog.runbooks ∧ runbook.info.id = id ∧
        ∀ wanted, version = some wanted → runbook.info.version = wanted := by
  rw [candidates, List.mem_filter, List.mem_filter, decide_eq_true_eq, Option.all_eq_true,
    and_assoc]
  simp only [decide_eq_true_eq]

theorem read_shuffled (same : other.runbooks.Perm catalog.runbooks) (id : String)
    (version : Option UInt32) : other.read id version = catalog.read id version := by
  have greatest : latest (other.candidates id version) =
      latest (catalog.candidates id version) := by
    refine latest_shuffled ((same.filter _).filter _) fun left inside right within alike => ?_
    obtain ⟨inside, ofLeft, _⟩ := mem_candidates.mp inside
    obtain ⟨within, ofRight, _⟩ := mem_candidates.mp within
    exact key_inj left right inside within (Prod.ext (ofLeft.trans ofRight.symm) alike)
  rw [read, read]
  rw [candidates, candidates] at greatest
  rw [greatest]

theorem read_ok {id : String} {version : Option UInt32}
    (reads : catalog.read id version = .ok runbook) :
    Runbook.hasPathSegments id = false ∧ runbook ∈ catalog.candidates id version := by
  rw [read] at reads
  split at reads
  · cases reads
  · rename_i single
    rw [Bool.not_eq_true] at single
    split at reads
    · cases reads
    · rename_i greatest
      cases reads
      exact ⟨single, latest_mem greatest⟩

/-- A runbook is read back by its own identifier and version. -/
theorem read_own (inside : runbook ∈ catalog.runbooks)
    (single : Runbook.hasPathSegments runbook.info.id = false) :
    catalog.read runbook.info.id (some runbook.info.version) = .ok runbook := by
  have chosen : runbook ∈ catalog.candidates runbook.info.id (some runbook.info.version) :=
    mem_candidates.mpr ⟨inside, rfl, fun wanted same => Option.some.inj same⟩
  rw [candidates] at chosen
  rw [read, single]
  cases greatest : latest ((catalog.runbooks.filter fun item =>
      item.info.id = runbook.info.id).filter fun item =>
        (some runbook.info.version).all fun version => item.info.version = version) with
  | none =>
      rw [latest_eq_none.mp greatest] at chosen
      cases chosen
  | some found =>
      obtain ⟨known, sameId, sameVersion⟩ := mem_candidates.mp (latest_mem greatest)
      rw [key_inj found runbook known inside (Prod.ext sameId (sameVersion _ rfl))]
      rfl

/-- Without a version the newest runbook of the identifier is read. -/
theorem read_newest (inside : runbook ∈ catalog.runbooks)
    (single : Runbook.hasPathSegments runbook.info.id = false) :
    ∃ newest, catalog.read runbook.info.id none = .ok newest ∧ newest ∈ catalog.runbooks ∧
      newest.info.id = runbook.info.id ∧
      ∀ item ∈ catalog.runbooks, item.info.id = runbook.info.id →
        item.info.version.toNat ≤ newest.info.version.toNat := by
  have chosen : runbook ∈ catalog.candidates runbook.info.id none :=
    mem_candidates.mpr ⟨inside, rfl, nofun⟩
  cases greatest : latest (catalog.candidates runbook.info.id none) with
  | none =>
      rw [latest_eq_none.mp greatest] at chosen
      cases chosen
  | some newest =>
      obtain ⟨known, sameId, _⟩ := mem_candidates.mp (latest_mem greatest)
      refine ⟨newest, ?_, known, sameId, fun item within own =>
        latest_max greatest (mem_candidates.mpr ⟨within, own, nofun⟩)⟩
      rw [candidates] at greatest
      rw [read, single, greatest]
      rfl

end Reading

/-! ## Searching -/

section Searching

variable {catalog other : RunbookCatalog} {query : String} {service : Option String}
  {info : RunbookMeta}

/-- What a search finds, with its scores, before it is ordered. -/
def found (catalog : RunbookCatalog) (query : String) (service : Option String) :
    List (Nat × RunbookMeta) :=
  ((catalog.runbooks.filter (Runbook.serves service)).map fun runbook =>
    (runbook.score (toAsciiLowercase query.toList), runbook.info)).filter fun found => 0 < found.1

theorem search_eq : catalog.search query service =
    ((catalog.found query service).mergeSort Runbook.ranked).map Prod.snd := rfl

theorem search_perm_found :
    (catalog.search query service).Perm ((catalog.found query service).map Prod.snd) :=
  (List.mergeSort_perm _ _).map _

theorem mem_search : info ∈ catalog.search query service ↔
    ∃ runbook ∈ catalog.runbooks, runbook.serves service = true ∧
      0 < runbook.score (toAsciiLowercase query.toList) ∧ runbook.info = info := by
  rw [search_perm_found.mem_iff, found]
  constructor
  · intro inside
    obtain ⟨scored, kept, rfl⟩ := List.mem_map.mp inside
    obtain ⟨listed, positive⟩ := List.mem_filter.mp kept
    obtain ⟨runbook, served, rfl⟩ := List.mem_map.mp listed
    obtain ⟨known, serves⟩ := List.mem_filter.mp served
    exact ⟨runbook, known, serves, of_decide_eq_true positive, rfl⟩
  · rintro ⟨runbook, known, serves, positive, rfl⟩
    refine List.mem_map.mpr ⟨_, List.mem_filter.mpr ⟨List.mem_map.mpr ⟨runbook,
      List.mem_filter.mpr ⟨known, serves⟩, rfl⟩, decide_eq_true positive⟩, rfl⟩

theorem found_shuffled (same : other.runbooks.Perm catalog.runbooks) :
    (other.found query service).Perm (catalog.found query service) :=
  ((same.filter _).map _).filter _

theorem ranked_iff {left right : Nat × RunbookMeta} : Runbook.ranked left right = true ↔
    right.1 < left.1 ∨ left.1 = right.1 ∧ left.2.id ≤ right.2.id := by
  rw [Runbook.ranked, Bool.or_eq_true, Bool.and_eq_true, decide_eq_true_eq, decide_eq_true_eq,
    decide_eq_true_eq, not_lt]

theorem ranked_trans (first second third : Nat × RunbookMeta)
    (left : Runbook.ranked first second = true) (right : Runbook.ranked second third = true) :
    Runbook.ranked first third = true := by
  rw [ranked_iff] at *
  rcases left with more | ⟨tied, before⟩
  · rcases right with more' | ⟨tied, _⟩
    · exact .inl (Nat.lt_trans more' more)
    · exact .inl (tied ▸ more)
  · rcases right with more | ⟨tied', before'⟩
    · exact .inl (tied ▸ more)
    · exact .inr ⟨tied.trans tied', le_trans before before'⟩

theorem ranked_total (left right : Nat × RunbookMeta) :
    (Runbook.ranked left right || Runbook.ranked right left) = true := by
  rw [Bool.or_eq_true, ranked_iff, ranked_iff]
  rcases Nat.lt_trichotomy left.1 right.1 with less | tied | more
  · exact .inr (.inl less)
  · rcases le_total left.2.id right.2.id with before | before
    · exact .inl (.inr ⟨tied, before⟩)
    · exact .inr (.inr ⟨tied.symm, before⟩)
  · exact .inl (.inl more)

theorem search_shuffled (same : other.runbooks.Perm catalog.runbooks)
    (distinct : ((catalog.search query service).map RunbookMeta.id).Nodup) :
    other.search query service = catalog.search query service := by
  have apart : ((catalog.found query service).map fun scored => scored.2.id).Nodup := by
    have listed := (search_perm_found.map RunbookMeta.id).nodup_iff.mp distinct
    rwa [List.map_map] at listed
  rw [search_eq, search_eq]
  congr 1
  refine List.Perm.eq_of_pairwise ?_ (List.pairwise_mergeSort ranked_trans ranked_total _)
    (List.pairwise_mergeSort ranked_trans ranked_total _) ?_
  · intro left right inside within before after
    rw [ranked_iff] at before after
    rw [List.mem_mergeSort, (found_shuffled same).mem_iff] at inside
    rw [List.mem_mergeSort] at within
    refine List.inj_on_of_nodup_map apart inside within ?_
    rcases before with more | ⟨_, below⟩
    · rcases after with less | ⟨tied, _⟩
      · exact absurd more (Nat.lt_asymm less)
      · exact absurd more (tied ▸ Nat.lt_irrefl _)
    · rcases after with less | ⟨_, above⟩
      · omega
      · exact le_antisymm below above
  · exact (List.mergeSort_perm _ _).trans
      ((found_shuffled same).trans (List.mergeSort_perm _ _).symm)

end Searching

/-- A directory whose entries come in another order gives a catalog that reads alike and
finds the same runbooks, in the same order where their identifiers are distinct. -/
theorem load_shuffled (codec : Codec)
    (fromStr : List Char → Except String Runbook.FrontMatter)
    {entries shuffled : List (Except String RunbookFile)} (same : entries.Perm shuffled)
    {catalog : RunbookCatalog} (loaded : load codec fromStr (.entries entries) = .ok catalog) :
    ∃ other, load codec fromStr (.entries shuffled) = .ok other ∧
      (∀ id version, other.read id version = catalog.read id version) ∧
      ∀ query service,
        (other.search query service).Perm (catalog.search query service) ∧
          (((catalog.search query service).map RunbookMeta.id).Nodup →
            other.search query service = catalog.search query service) := by
  obtain ⟨other, succeeded, alike⟩ := loadFrom_shuffled same loaded
  refine ⟨other, succeeded, read_shuffled alike, fun query service =>
    ⟨?_, search_shuffled alike⟩⟩
  exact search_perm_found.trans
    (((found_shuffled alike).map _).trans search_perm_found.symm)

namespace Demo

def diskSource : List Char := "---\nid: disk\ntitle: Disk\n---\nFree space.".toList

def cpuSource : List Char := "---\nid: cpu\ntitle: Load\n---\nFind the process.".toList

def codec : Codec where
  sha256Hex := fun bytes =>
    if bytes = utf8 (String.ofList diskSource) then
      "42c1865986e86f716c3fd27a2aacb7c2ea5e0efd1f1b1fb691ec5c2863d62f49"
    else "47a8755e34a49c96f79e26093cc93b4e62414bfe1f81e31c9390772f317b439b"
  toVec := fun _ => []
  toRfc3339 := fun _ => ""

def frontMatter (id title : String) : Runbook.FrontMatter where
  id := id
  title := title
  services := []
  signals := []
  tags := []
  version := 0

def fromStr (front : List Char) : Except String Runbook.FrontMatter :=
  if front = "id: disk\ntitle: Disk".toList then .ok (frontMatter "disk" "Disk")
  else .ok (frontMatter "cpu" "Load")

def disk : RunbookFile where
  name := utf8 "disk.md"
  path := "runbooks/disk.md"
  content := .ok diskSource

def cpu : RunbookFile where
  name := utf8 "cpu.md"
  path := "runbooks/cpu.md"
  content := .ok cpuSource

end Demo

theorem load_shuffled_cpu :
    ∃ catalog other,
      load Demo.codec Demo.fromStr (.entries [.ok Demo.disk, .ok Demo.cpu]) = .ok catalog ∧
        load Demo.codec Demo.fromStr (.entries [.ok Demo.cpu, .ok Demo.disk]) = .ok other ∧
        other.read "disk" none = catalog.read "disk" none := by
  have succeeds : (load Demo.codec Demo.fromStr
      (.entries [.ok Demo.disk, .ok Demo.cpu])).toOption.isSome = true := by
    decide +kernel
  cases loaded : load Demo.codec Demo.fromStr (.entries [.ok Demo.disk, .ok Demo.cpu]) with
  | error error =>
      rw [loaded] at succeeds
      cases succeeds
  | ok catalog =>
      obtain ⟨other, succeeded, reads, _⟩ :=
        load_shuffled Demo.codec Demo.fromStr (List.Perm.swap _ _ _) loaded
      exact ⟨catalog, other, rfl, succeeded, reads "disk" none⟩

/-- What a search finds can be read back by its identifier and version, unless that
identifier could name another file; an empty search finds every runbook. -/
theorem search_reads (catalog : RunbookCatalog) :
    (∀ query service, ∀ info ∈ catalog.search query service,
      if Runbook.hasPathSegments info.id then
        ∀ version, catalog.read info.id version =
          .error (.policy "runbook id cannot contain path segments")
      else
        ∃ runbook newest, runbook.info = info ∧
          catalog.read info.id (some info.version) = .ok runbook ∧
          catalog.read info.id none = .ok newest ∧ newest.info.id = info.id ∧
          info.version.toNat ≤ newest.info.version.toNat) ∧
      (catalog.search "" none).Perm (catalog.runbooks.map Runbook.info) := by
  constructor
  · intro query service info inside
    obtain ⟨runbook, known, _, _, rfl⟩ := mem_search.mp inside
    split
    · rename_i several
      intro version
      rw [read, several]
      rfl
    · rename_i single
      rw [Bool.not_eq_true] at single
      obtain ⟨newest, reads, _, sameId, above⟩ := read_newest known single
      exact ⟨runbook, newest, rfl, read_own known single, reads, sameId,
        above runbook known rfl⟩
  · have positive (scored : Nat × RunbookMeta)
        (inside : scored ∈ catalog.runbooks.map fun runbook =>
          (runbook.score [], runbook.info)) : decide (0 < scored.1) = true := by
      obtain ⟨runbook, _, rfl⟩ := List.mem_map.mp inside
      exact decide_eq_true (Nat.lt_of_lt_of_le Nat.zero_lt_one (Nat.le_add_right 1 _))
    have all : catalog.found "" none =
        catalog.runbooks.map fun runbook => (runbook.score [], runbook.info) := by
      have everyone : catalog.runbooks.filter (Runbook.serves none) = catalog.runbooks :=
        List.filter_eq_self.mpr fun _ _ => rfl
      rw [found, everyone]
      exact List.filter_eq_self.mpr positive
    refine search_perm_found.trans ?_
    rw [all, List.map_map]
    exact List.Perm.refl _

end RunbookCatalog

end OpsCodex
