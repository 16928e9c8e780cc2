import OpsCodex.Effect.Monitor
import OpsCodex.Error
import OpsCodex.Runtime.Identifiers
import OpsCodex.Store.Table

/-! The migrations of the SQLite schema. Each statement of a start commits on its own, so a
start can end between any two of them, and the next one takes over what is there. -/

set_option autoImplicit false

namespace OpsCodex.Store.Schema

open Effect OpsCodex.Runtime

/-- A script of the schema: the version that it is recorded under and, in order, the tables
and indexes that its statements create. -/
structure Script where
  version : Int
  creates : List String

def schemaVersion : Int := 1

def schemaSql : Script where
  version := schemaVersion
  creates := ["schema_migrations", "workspaces", "threads", "turns", "idx_turns_status", "events",
    "idx_events_thread_seq", "idx_threads_updated", "evidence", "checkpoints",
    "idx_checkpoints_turn", "approvals", "leases", "resume_ops"]

def schemaV2Sql : Script where
  version := 2
  creates := ["action_plans", "actions", "idx_actions_thread", "audit_log"]

def scripts : List Script := [schemaSql, schemaV2Sql]

structure MigrationRow where
  version : Int
  checksum : String
  appliedAt : DateTime

/-- What a database file has of the schema. -/
structure Tables where
  objects : List String
  migrations : List MigrationRow

structure SqliteFailure where
  text : String
  diskFull : Bool

def sqliteError (action : String) (error : SqliteFailure) : OpsCodexError :=
  if error.diskFull then
    .storage s!"sqlite {action} failed: disk is full; free space and retry ({error.text})"
  else .storage s!"sqlite {action} failed: {error.text}"

/-- The statements of a start. -/
inductive Op where
  | create (name : String)
  | queryChecksum (version : Int)
  | insert (version : Int) (checksum : String)

abbrev Op.Answer : Op → Type
  | .create _ | .insert .. => Except SqliteFailure Unit
  | .queryChecksum _ => Except SqliteFailure (Option String)

def interface : Interface where
  Op := Op
  Answer := Op.Answer

namespace Tables

def findChecksum (tables : Tables) (version : Int) : Option String :=
  (Table.lookup MigrationRow.version version tables.migrations).map MigrationRow.checksum

/-- A statement that is carried out. -/
def settle (clock : DateTime) : (op : Op) → Tables → op.Answer × Tables
  | .create name, tables =>
      (.ok (), if name ∈ tables.objects then tables
        else { tables with objects := tables.objects ++ [name] })
  | .queryChecksum version, tables =>
      if "schema_migrations" ∈ tables.objects then (.ok (tables.findChecksum version), tables)
      else (.error ⟨"no such table: schema_migrations", false⟩, tables)
  | .insert version checksum, tables =>
      if "schema_migrations" ∈ tables.objects then
        match tables.findChecksum version with
        | some _ => (.error ⟨"UNIQUE constraint failed: schema_migrations.version", false⟩, tables)
        | none => (.ok (), { tables with
            migrations := tables.migrations ++ [⟨version, checksum, clock⟩] })
      else (.error ⟨"no such table: schema_migrations", false⟩, tables)

end Tables

inductive Choice where
  | settle (clock : DateTime)
  | fault (error : SqliteFailure)

def perform : (op : Op) → Choice → Tables → Option (op.Answer × Tables)
  | op, .settle clock, tables => some (tables.settle clock op)
  | .create _, .fault error, tables | .queryChecksum _, .fault error, tables
  | .insert .., .fault error, tables => some (.error error, tables)

abbrev Sqlite (Value : Type) : Type := Fallible interface OpsCodexError Value

def create (name : String) : Sqlite Unit :=
  ExceptT.mk (Program.perform (I := interface) (.create name) >>= fun answer =>
    pure (answer.mapError (sqliteError "schema")))

def migrationChecksumApplied (version : Int) : Sqlite (Option String) :=
  ExceptT.mk (Program.perform (I := interface) (.queryChecksum version) >>= fun answer =>
    pure (answer.mapError (sqliteError "schema_migrations")))

def insertMigration (version : Int) (checksum : String) : Sqlite Unit :=
  ExceptT.mk (Program.perform (I := interface) (.insert version checksum) >>= fun answer =>
    pure (answer.mapError (sqliteError "schema_migrations insert")))

def executeBatch (script : Script) : Sqlite Unit := Fallible.forEach create script.creates

def checksumMismatch : OpsCodexError :=
  .storage "sqlite schema checksum mismatch; refusing to start"

section Start

variable (migrationChecksum : Script → String)

/-- Check the recorded checksum of a script, or do what is missing. -/
def verify (script : Script) (missing : Sqlite Unit) : Sqlite Unit := do
  match ← migrationChecksumApplied script.version with
  | some existing =>
      if existing = migrationChecksum script then return () else throw checksumMismatch
  | none => missing

def recordOrVerifyMigration (script : Script) : Sqlite Unit :=
  verify migrationChecksum script (insertMigration script.version (migrationChecksum script))

def applyIfMissing (script : Script) : Sqlite Unit :=
  verify migrationChecksum script do
    executeBatch script
    insertMigration script.version (migrationChecksum script)

def applySchema : Sqlite Unit := do
  executeBatch schemaSql
  recordOrVerifyMigration migrationChecksum schemaSql
  applyIfMissing migrationChecksum schemaV2Sql

/-- Starts of processes over one database file. -/
def system : System interface where
  State := Tables
  Choice := Choice
  perform := perform
  Startup := Unit
  restart := fun _ tables => tables
  Job := Unit
  Result := Result Unit
  program := fun _ => (applySchema migrationChecksum).run

end Start

/-- What a start has seen of the file. -/
structure Knowledge where
  made : List String
  recorded : List (Int × String)

namespace Knowledge

def move (known : Knowledge) : (op : Op) → op.Answer → Knowledge
  | .create name, .ok () => { known with made := name :: known.made }
  | .queryChecksum version, .ok (some checksum) =>
      { known with recorded := (version, checksum) :: known.recorded }
  | .insert version checksum, .ok () =>
      { known with recorded := (version, checksum) :: known.recorded }
  | _, _ => known

variable (migrationChecksum : Script → String)

/-- A version is recorded only for a script all of whose statements were carried out. -/
def Admitted (known : Knowledge) : Op → Prop
  | .insert version checksum => ∃ script ∈ scripts, version = script.version ∧
      checksum = migrationChecksum script ∧ ∀ name ∈ script.creates, name ∈ known.made
  | _ => True

def monitor : Monitor interface where
  Standing := Knowledge
  start := { made := [], recorded := [] }
  Admits := Admitted migrationChecksum
  move := move

/-- A start knows the record of a script. -/
def Knows (script : Script) (known : Knowledge) : Prop :=
  (script.version, migrationChecksum script) ∈ known.recorded

/-- Nothing that was known is forgotten. -/
structure Extends (before after : Knowledge) : Prop where
  made : ∀ name ∈ before.made, name ∈ after.made
  recorded : ∀ row ∈ before.recorded, row ∈ after.recorded

theorem Extends.refl (known : Knowledge) : Extends known known := ⟨fun _ => id, fun _ => id⟩

theorem Extends.trans {first second third : Knowledge} (left : Extends first second)
    (right : Extends second third) : Extends first third :=
  ⟨fun name member => right.made name (left.made name member),
    fun row member => right.recorded row (left.recorded row member)⟩

abbrev anyhow {Value : Type} : Value → Knowledge → Prop := fun _ _ => True

variable {migrationChecksum}

theorem create_meets (name : String) (known : Knowledge) :
    Meets (monitor migrationChecksum).protocol (create name) known
      (fun _ after => after = { known with made := name :: known.made }) anyhow := by
  intro answer
  cases answer with
  | error error => exact ⟨known, ⟨trivial, rfl⟩, trivial⟩
  | ok => exact ⟨_, ⟨trivial, rfl⟩, rfl⟩

theorem forEach_meets (names : List String) (known : Knowledge) :
    Meets (monitor migrationChecksum).protocol (Fallible.forEach create names) known
      (fun _ after => Extends known after ∧ ∀ name ∈ names, name ∈ after.made) anyhow := by
  induction names generalizing known with
  | nil => exact Meets.pure ⟨.refl known, fun _ member => absurd member List.not_mem_nil⟩
  | cons name names ih =>
      refine Meets.bind ((create_meets name known).mono ?_ fun _ _ _ => trivial)
      rintro _ _ rfl
      refine (ih _).mono ?_ fun _ _ _ => trivial
      intro _ after ⟨extends', made⟩
      refine ⟨⟨fun other member => extends'.made other (List.mem_cons_of_mem name member),
        extends'.recorded⟩, fun other member => ?_⟩
      obtain rfl | later := List.mem_cons.mp member
      · exact extends'.made other List.mem_cons_self
      · exact made other later

theorem insertMigration_meets {script : Script} (ours : script ∈ scripts) {known : Knowledge}
    (made : ∀ name ∈ script.creates, name ∈ known.made) :
    Meets (monitor migrationChecksum).protocol
      (insertMigration script.version (migrationChecksum script)) known
      (fun _ after => Extends known after ∧ Knows migrationChecksum script after) anyhow := by
  intro answer
  have admitted : Admitted migrationChecksum known
      (.insert script.version (migrationChecksum script)) := ⟨script, ours, rfl, rfl, made⟩
  cases answer with
  | error error => exact ⟨known, ⟨admitted, rfl⟩, trivial⟩
  | ok =>
      refine ⟨_, ⟨admitted, rfl⟩, ⟨fun _ => id, fun row member => ?_⟩, List.mem_cons_self⟩
      exact List.mem_cons_of_mem _ member

/-- A recorded checksum is checked, and a missing one is filled in by the rest. -/
theorem verify_meets {script : Script} {known : Knowledge} {missing : Sqlite Unit}
    (fills : Meets (monitor migrationChecksum).protocol missing known
      (fun _ after => Extends known after ∧ Knows migrationChecksum script after) anyhow) :
    Meets (monitor migrationChecksum).protocol (verify migrationChecksum script missing) known
      (fun _ after => Extends known after ∧ Knows migrationChecksum script after) anyhow := by
  unfold verify
  refine Meets.bind fun answer => ?_
  cases answer with
  | error error => exact ⟨known, ⟨trivial, rfl⟩, trivial⟩
  | ok found =>
      cases found with
      | none => exact ⟨known, ⟨trivial, rfl⟩, fills⟩
      | some existing =>
          refine ⟨_, ⟨trivial, rfl⟩, ?_⟩
          change Meets _ (if existing = migrationChecksum script then pure () else
            throw checksumMismatch : Sqlite Unit) _ _ _
          split
          · rename_i same
            refine Meets.pure ⟨⟨fun _ => id, fun row member => List.mem_cons_of_mem _ member⟩, ?_⟩
            unfold Knows
            rw [← same]
            exact List.mem_cons_self
          · exact Meets.throw trivial

theorem applySchema_meets (known : Knowledge) :
    Meets (monitor migrationChecksum).protocol (applySchema migrationChecksum) known
      (fun _ after => ∀ script ∈ scripts, Knows migrationChecksum script after) anyhow := by
  unfold applySchema
  refine Meets.bind ((forEach_meets schemaSql.creates known).mono ?_ fun _ _ _ => trivial)
  intro _ built ⟨_, made⟩
  have first : schemaSql ∈ scripts := List.mem_cons_self
  have second : schemaV2Sql ∈ scripts := List.mem_cons_of_mem _ List.mem_cons_self
  refine Meets.bind ((verify_meets (insertMigration_meets first made)).mono ?_
    fun _ _ _ => trivial)
  intro _ verified ⟨_, one⟩
  have fills : Meets (monitor migrationChecksum).protocol (do
      executeBatch schemaV2Sql
      insertMigration schemaV2Sql.version (migrationChecksum schemaV2Sql)) verified
      (fun _ after => Extends verified after ∧ Knows migrationChecksum schemaV2Sql after)
      anyhow := by
    refine Meets.bind ((forEach_meets schemaV2Sql.creates verified).mono ?_ fun _ _ _ => trivial)
    intro _ upgraded ⟨grown, made⟩
    refine (insertMigration_meets second made).mono ?_ fun _ _ _ => trivial
    exact fun _ after ⟨grown', knows⟩ => ⟨grown.trans grown', knows⟩
  refine (verify_meets fills).mono ?_ fun _ _ _ => trivial
  intro _ final ⟨grown, two⟩ script member
  obtain rfl | rfl : script = schemaSql ∨ script = schemaV2Sql := by
    simpa [scripts] using member
  · exact grown.recorded _ one
  · exact two

/-- A start that returns without an error knows both records. -/
def ends (migrationChecksum : Script → String) (result : Result Unit) (known : Knowledge) : Prop :=
  result = .ok () → ∀ script ∈ scripts, Knows migrationChecksum script known

theorem conforms (job : Unit) :
    Conforms (monitor migrationChecksum).protocol ((system migrationChecksum).program job)
      (monitor migrationChecksum).start (ends migrationChecksum) := by
  refine Conforms.mono (applySchema_meets _) fun outcome after reached => ?_
  cases outcome with
  | error error => exact nofun
  | ok => exact fun _ => reached

end Knowledge

namespace Tables

variable (migrationChecksum : Script → String)

def Records (tables : Tables) (version : Int) (checksum : String) : Prop :=
  ∃ row ∈ tables.migrations, row.version = version ∧ row.checksum = checksum

def Builds (tables : Tables) (script : Script) : Prop :=
  ∀ name ∈ script.creates, name ∈ tables.objects

/-- Whatever is recorded with the checksum of a script was built completely. -/
structure Sound (tables : Tables) : Prop where
  built : ∀ script ∈ scripts, tables.Records script.version (migrationChecksum script) →
    tables.Builds script
  versions : (tables.migrations.map MigrationRow.version).Nodup

/-- No version of ours is recorded with another checksum. -/
def Agrees (tables : Tables) : Prop :=
  ∀ row ∈ tables.migrations, ∀ script ∈ scripts, row.version = script.version →
    row.checksum = migrationChecksum script

/-- Nothing is dropped or changed. -/
structure Grows (before after : Tables) : Prop where
  objects : before.objects <+: after.objects
  migrations : before.migrations <+: after.migrations

variable {migrationChecksum} {before after : Tables}

theorem Grows.refl (tables : Tables) : Grows tables tables :=
  ⟨List.prefix_refl _, List.prefix_refl _⟩

theorem Grows.trans {last : Tables} (left : Grows before after) (right : Grows after last) :
    Grows before last :=
  ⟨left.objects.trans right.objects, left.migrations.trans right.migrations⟩

theorem Grows.builds (grows : Grows before after) {script : Script}
    (built : before.Builds script) : after.Builds script :=
  fun name member => grows.objects.subset (built name member)

theorem Grows.records (grows : Grows before after) {version : Int} {checksum : String}
    (recorded : before.Records version checksum) : after.Records version checksum := by
  obtain ⟨row, member, same⟩ := recorded
  exact ⟨row, grows.migrations.subset member, same⟩

theorem findChecksum_records {version : Int} {checksum : String}
    (found : before.findChecksum version = some checksum) : before.Records version checksum := by
  obtain ⟨row, first, rfl⟩ := Option.map_eq_some_iff.mp found
  exact ⟨row, Table.lookup_mem first, Table.lookup_key first, rfl⟩

theorem findChecksum_absent {version : Int} (absent : before.findChecksum version = none) :
    version ∉ before.migrations.map MigrationRow.version := by
  simpa [findChecksum, Table.lookup] using absent

/-- What a statement did that was answered without an error. -/
inductive Did : (op : Op) → op.Answer → Tables → Tables → Prop where
  | created {name tables after} (grows : Grows tables after) (made : name ∈ after.objects)
      (same : after.migrations = tables.migrations) : Did (.create name) (.ok ()) tables after
  | queried {version checksum tables}
      (recorded : ∀ found, checksum = some found → tables.Records version found) :
      Did (.queryChecksum version) (.ok checksum) tables tables
  | inserted {version checksum clock} {tables : Tables}
      (absent : version ∉ tables.migrations.map MigrationRow.version) :
      Did (.insert version checksum) (.ok ()) tables { tables with
        migrations := tables.migrations ++ [⟨version, checksum, clock⟩] }
  | failedCreate {name error tables} : Did (.create name) (.error error) tables tables
  | failedQuery {version error tables} : Did (.queryChecksum version) (.error error) tables tables
  | failedInsert {version checksum error tables} :
      Did (.insert version checksum) (.error error) tables tables

theorem did_of_perform {op : Op} {choice : Choice} {answer : op.Answer}
    (performed : perform op choice before = some (answer, after)) : Did op answer before after := by
  cases choice with
  | fault error => cases op <;> cases performed <;> constructor
  | settle clock =>
      cases op with
      | create name =>
          cases performed
          by_cases existing : name ∈ before.objects
          · rw [if_pos existing]
            exact .created (.refl before) existing rfl
          · rw [if_neg existing]
            exact .created ⟨List.prefix_append _ _, List.prefix_refl _⟩
              (List.mem_append_right _ List.mem_cons_self) rfl
      | queryChecksum version =>
          simp only [perform, settle, Option.some.injEq] at performed
          split at performed <;> cases performed
          · exact .queried fun found same => findChecksum_records same
          · exact .failedQuery
      | insert version checksum =>
          simp only [perform, settle, Option.some.injEq] at performed
          split at performed
          · split at performed <;> cases performed
            · exact .failedInsert
            · exact .inserted (findChecksum_absent ‹_›)
          · cases performed
            exact .failedInsert

theorem Did.grows {op : Op} {answer : op.Answer} (did : Did op answer before after) :
    Grows before after := by
  cases did with
  | created grows => exact grows
  | inserted => exact ⟨List.prefix_refl _, List.prefix_append _ _⟩
  | _ => exact .refl _

theorem script_of_version {left right : Script} (first : left ∈ scripts)
    (second : right ∈ scripts) (same : left.version = right.version) : left = right := by
  simp only [scripts, List.mem_cons, List.not_mem_nil, or_false] at first second
  obtain rfl | rfl := first <;> obtain rfl | rfl := second
  · rfl
  · cases same
  · cases same
  · rfl

/-- An admitted statement records only what was built. -/
theorem Sound.step (sound : before.Sound migrationChecksum) {op : Op} {answer : op.Answer}
    (did : Did op answer before after) {known : Knowledge}
    (admitted : Knowledge.Admitted migrationChecksum known op)
    (made : ∀ name ∈ known.made, name ∈ before.objects) : after.Sound migrationChecksum := by
  cases did with
  | created grows _ same =>
      refine ⟨fun script member recorded => ?_, by rw [same]; exact sound.versions⟩
      unfold Records at recorded
      rw [same] at recorded
      exact grows.builds (sound.built script member recorded)
  | @inserted version checksum clock _ absent =>
      obtain ⟨ours, listed, versions, rfl, built⟩ := admitted
      refine ⟨fun script member recorded => ?_, ?_⟩
      · obtain ⟨row, inside, versioned, checked⟩ := recorded
        obtain old | new := List.mem_append.mp inside
        · exact sound.built script member ⟨row, old, versioned, checked⟩
        · obtain rfl := List.mem_singleton.mp new
          obtain rfl := script_of_version listed member (versions.symm.trans versioned)
          exact fun name part => made name (built name part)
      · simp only [List.map_append, List.map_cons, List.map_nil]
        have single : [version].Nodup := List.nodup_cons.mpr ⟨List.not_mem_nil, List.nodup_nil⟩
        refine List.nodup_append.mpr ⟨sound.versions, single, fun old member new fresh => ?_⟩
        rw [List.mem_singleton.mp fresh]
        rintro rfl
        exact absent member
  | _ => exact sound

theorem Agrees.step (agrees : before.Agrees migrationChecksum) {op : Op} {answer : op.Answer}
    (did : Did op answer before after) {known : Knowledge}
    (admitted : Knowledge.Admitted migrationChecksum known op) :
    after.Agrees migrationChecksum := by
  cases did with
  | created _ _ same =>
      unfold Agrees
      rw [same]
      exact agrees
  | inserted _ =>
      obtain ⟨ours, listed, versions, rfl, _⟩ := admitted
      intro row member script inside versioned
      obtain old | new := List.mem_append.mp member
      · exact agrees row old script inside versioned
      · obtain rfl := List.mem_singleton.mp new
        rw [script_of_version listed inside (versions.symm.trans versioned)]
  | _ => exact agrees

end Tables

section Runs

variable {migrationChecksum : Script → String}

/-- What the starts over a file know of it is so. -/
structure Truth (tables : Tables) (pool : Pool (system migrationChecksum)) : Prop where
  grows : Tables.Grows tables pool.state
  sound : Tables.Sound migrationChecksum pool.state
  agrees : tables.Agrees migrationChecksum → Tables.Agrees migrationChecksum pool.state
  made : ∀ caller, ∀ name ∈
    ((Knowledge.monitor migrationChecksum).standing pool.trace caller).made,
    name ∈ Tables.objects pool.state
  recorded : ∀ caller version checksum, (version, checksum) ∈
    ((Knowledge.monitor migrationChecksum).standing pool.trace caller).recorded →
    Tables.Records pool.state version checksum

/-- A statement tells the truth about the file it leaves behind. -/
theorem move_true {before after : Tables} {op : Op} {answer : op.Answer} {known : Knowledge}
    (did : Tables.Did op answer before after)
    (made : ∀ name ∈ known.made, name ∈ before.objects)
    (recorded : ∀ version checksum, (version, checksum) ∈ known.recorded →
      before.Records version checksum) :
    (∀ name ∈ (known.move op answer).made, name ∈ after.objects) ∧
      ∀ version checksum, (version, checksum) ∈ (known.move op answer).recorded →
        after.Records version checksum := by
  have kept (name : String) (member : name ∈ known.made) : name ∈ after.objects :=
    did.grows.objects.subset (made name member)
  have held (version : Int) (checksum : String) (member : (version, checksum) ∈ known.recorded) :
      after.Records version checksum := did.grows.records (recorded version checksum member)
  cases did with
  | created _ present _ =>
      refine ⟨fun name member => ?_, held⟩
      obtain rfl | old := List.mem_cons.mp member
      · exact present
      · exact kept name old
  | @queried _ checksum _ found =>
      cases checksum with
      | none => exact ⟨kept, held⟩
      | some checksum =>
          refine ⟨kept, fun other seen member => ?_⟩
          obtain same | old := List.mem_cons.mp member
          · cases same
            exact found checksum rfl
          · exact held other seen old
  | @inserted version checksum clock tables _ =>
      refine ⟨kept, fun other seen member => ?_⟩
      obtain same | old := List.mem_cons.mp member
      · cases same
        exact ⟨⟨version, checksum, clock⟩, List.mem_append_right _ List.mem_cons_self, rfl, rfl⟩
      · exact held other seen old
  | _ => exact ⟨kept, held⟩

theorem truth_keeps (tables : Tables) :
    @Monitor.Keeps _ (system migrationChecksum) (Knowledge.monitor migrationChecksum)
      (fun _ => Knowledge.ends migrationChecksum) (Truth tables) where
  spawn := fun _ _ truth =>
    ⟨truth.grows, truth.sound, truth.agrees, truth.made, truth.recorded⟩
  perform := by
    intro pool caller job op next choice answer state watched found performed truth
    have did := Tables.did_of_perform performed
    have told := move_true did (truth.made caller) (truth.recorded caller)
    have admitted := watched.admits found answer
    refine ⟨truth.grows.trans did.grows, truth.sound.step did admitted (truth.made caller),
      fun agrees => (truth.agrees agrees).step did admitted, fun other => ?_, fun other => ?_⟩
    · by_cases same : other = caller
      · subst same
        rw [Monitor.standing_record_same]
        exact told.1
      · rw [Monitor.standing_record_other same]
        exact fun name member => did.grows.objects.subset (truth.made other name member)
    · by_cases same : other = caller
      · subst same
        rw [Monitor.standing_record_same]
        exact told.2
      · rw [Monitor.standing_record_other same]
        exact fun version checksum member =>
          did.grows.records (truth.recorded other version checksum member)
  crash := fun _ _ truth =>
    ⟨truth.grows, truth.sound, truth.agrees, truth.made, truth.recorded⟩

theorem truth_reachable {tables : Tables} (sound : tables.Sound migrationChecksum)
    {pool : Pool (system migrationChecksum)}
    (reached : Pool.Reachable (fun _ _ => True) (fun pool => pool = Pool.boot tables) pool) :
    (Knowledge.monitor migrationChecksum).Watched (fun _ => Knowledge.ends migrationChecksum)
      pool ∧ Truth tables pool := by
  have begins : Truth tables (Pool.boot tables : Pool (system migrationChecksum)) :=
    ⟨.refl tables, sound, id, fun _ _ member => absurd member List.not_mem_nil,
      fun _ _ _ member => absurd member List.not_mem_nil⟩
  exact (truth_keeps tables).reachable Knowledge.conforms
    (fun pool started => ⟨⟨tables, started⟩, by rw [started]; exact begins⟩) reached

end Runs

/-- A start that nothing fails or disturbs. -/
def undisturbed (clock : DateTime) {Value : Type} :
    Program interface Value → Tables → Value × Tables
  | .pure value, tables => (value, tables)
  | .request op next, tables =>
      undisturbed clock (next (tables.settle clock op).1) (tables.settle clock op).2

namespace Tables

def add (tables : Tables) (name : String) : Tables :=
  if name ∈ tables.objects then tables else { tables with objects := tables.objects ++ [name] }

def build (tables : Tables) (names : List String) : Tables := names.foldl add tables

variable {clock : DateTime} {tables : Tables}

theorem add_grows (tables : Tables) (name : String) : Grows tables (tables.add name) := by
  unfold add
  split
  · exact .refl tables
  · exact ⟨List.prefix_append _ _, List.prefix_refl _⟩

theorem add_migrations (tables : Tables) (name : String) :
    (tables.add name).migrations = tables.migrations := by
  unfold add
  split <;> rfl

theorem mem_add (tables : Tables) (name : String) : name ∈ (tables.add name).objects := by
  unfold add
  split
  · assumption
  · exact List.mem_append_right _ List.mem_cons_self

theorem build_migrations (tables : Tables) (names : List String) :
    (tables.build names).migrations = tables.migrations := by
  induction names generalizing tables with
  | nil => rfl
  | cons name names ih => exact (ih (tables.add name)).trans (add_migrations tables name)

theorem build_grows (tables : Tables) (names : List String) :
    Grows tables (tables.build names) := by
  induction names generalizing tables with
  | nil => exact .refl tables
  | cons name names ih => exact (add_grows tables name).trans (ih (tables.add name))

theorem build_builds (tables : Tables) (names : List String) :
    ∀ name ∈ names, name ∈ (tables.build names).objects := by
  induction names generalizing tables with
  | nil => exact fun _ member => absurd member List.not_mem_nil
  | cons first names ih =>
      intro name member
      obtain rfl | later := List.mem_cons.mp member
      · exact (build_grows (tables.add name) names).objects.subset (mem_add tables name)
      · exact ih (tables.add first) name later

/-- What is there is not built again. -/
theorem build_built {names : List String} (built : ∀ name ∈ names, name ∈ tables.objects) :
    tables.build names = tables := by
  induction names with
  | nil => rfl
  | cons name names ih =>
      have present : tables.add name = tables := if_pos (built name List.mem_cons_self)
      change (tables.add name).build names = tables
      rw [present]
      exact ih fun other member => built other (List.mem_cons_of_mem name member)

end Tables

section Undisturbed

variable {clock : DateTime} {tables after : Tables} {Value Returned : Type}

theorem undisturbed_bind (program : Program interface Value)
    (rest : Value → Program interface Returned) (tables : Tables) :
    undisturbed clock (program >>= rest) tables =
      undisturbed clock (rest (undisturbed clock program tables).1)
        (undisturbed clock program tables).2 := by
  induction program generalizing tables with
  | pure value => rfl
  | request op next ih => exact ih _ _

theorem undisturbed_ok {program : Sqlite Value} {rest : Value → Sqlite Returned} {value : Value}
    (ran : undisturbed clock program.run tables = (.ok value, after)) :
    undisturbed clock (program >>= rest).run tables = undisturbed clock (rest value).run after := by
  refine (undisturbed_bind program.run _ tables).trans ?_
  rw [ran]
  rfl

theorem undisturbed_error {program : Sqlite Value} {rest : Value → Sqlite Returned}
    {error : OpsCodexError} (ran : undisturbed clock program.run tables = (.error error, after)) :
    undisturbed clock (program >>= rest).run tables = (.error error, after) := by
  refine (undisturbed_bind program.run _ tables).trans ?_
  rw [ran]
  rfl

theorem undisturbed_executeBatch (clock : DateTime) (script : Script) (tables : Tables) :
    undisturbed clock (executeBatch script).run tables =
      (.ok (), tables.build script.creates) := by
  unfold executeBatch
  induction script.creates generalizing tables with
  | nil => rfl
  | cons name names ih =>
      have made : undisturbed clock (create name).run tables = (.ok (), tables.add name) := rfl
      exact (undisturbed_ok made).trans (ih (tables.add name))

variable {migrationChecksum : Script → String} {script : Script}

theorem undisturbed_applied (ready : "schema_migrations" ∈ tables.objects) (version : Int) :
    undisturbed clock (migrationChecksumApplied version).run tables =
      (.ok (tables.findChecksum version), tables) := by
  have settled : tables.settle clock (.queryChecksum version) =
      (.ok (tables.findChecksum version), tables) := if_pos ready
  change undisturbed clock (.pure ((tables.settle clock (.queryChecksum version)).1.mapError _))
    (tables.settle clock (.queryChecksum version)).2 = _
  rw [settled]
  rfl

theorem undisturbed_insert (ready : "schema_migrations" ∈ tables.objects) {version : Int}
    (absent : tables.findChecksum version = none) (checksum : String) :
    undisturbed clock (insertMigration version checksum).run tables =
      (.ok (), { tables with
        migrations := tables.migrations ++ [⟨version, checksum, clock⟩] }) := by
  have settled : tables.settle clock (.insert version checksum) = (.ok (), { tables with
      migrations := tables.migrations ++ [⟨version, checksum, clock⟩] }) := by
    simp only [Tables.settle, if_pos ready, absent]
  change undisturbed clock (.pure ((tables.settle clock (.insert version checksum)).1.mapError _))
    (tables.settle clock (.insert version checksum)).2 = _
  rw [settled]
  rfl

theorem verify_missing (ready : "schema_migrations" ∈ tables.objects)
    (absent : tables.findChecksum script.version = none) (missing : Sqlite Unit) :
    undisturbed clock (verify migrationChecksum script missing).run tables =
      undisturbed clock missing.run tables := by
  refine (undisturbed_ok (undisturbed_applied ready script.version)).trans ?_
  rw [absent]

theorem verify_recorded (ready : "schema_migrations" ∈ tables.objects)
    (found : tables.findChecksum script.version = some (migrationChecksum script))
    (missing : Sqlite Unit) :
    undisturbed clock (verify migrationChecksum script missing).run tables = (.ok (), tables) := by
  refine (undisturbed_ok (undisturbed_applied ready script.version)).trans ?_
  rw [found]
  dsimp only
  rw [if_pos rfl]
  rfl

/-- Another checksum of a script is refused. -/
theorem verify_refuses {checksum : String} (ready : "schema_migrations" ∈ tables.objects)
    (found : tables.findChecksum script.version = some checksum)
    (differs : checksum ≠ migrationChecksum script) (missing : Sqlite Unit) :
    undisturbed clock (verify migrationChecksum script missing).run tables =
      (.error checksumMismatch, tables) := by
  refine (undisturbed_ok (undisturbed_applied ready script.version)).trans ?_
  rw [found]
  dsimp only
  rw [if_neg differs]
  rfl

end Undisturbed

/-- Whatever starts run over a file, at once or one after the other, and wherever they fail or
are cut off: nothing of the schema is dropped, a version is recorded only when all of its script
has been carried out, and a start that returns without an error leaves the whole schema. -/
theorem starts_sound (migrationChecksum : Script → String) (tables : Tables)
    (sound : tables.Sound migrationChecksum) (pool : Pool (system migrationChecksum))
    (reached : Pool.Reachable (fun _ _ => True) (fun pool => pool = Pool.boot tables) pool) :
    Tables.Grows tables pool.state ∧ Tables.Sound migrationChecksum pool.state ∧
      ∀ caller job, pool.calls caller = some (job, .pure (.ok ())) → ∀ script ∈ scripts,
        Tables.Records pool.state script.version (migrationChecksum script) ∧
          Tables.Builds pool.state script := by
  obtain ⟨watched, truth⟩ := truth_reachable sound reached
  refine ⟨truth.grows, truth.sound, fun caller job returned script member => ?_⟩
  have knows := watched.returned returned rfl script member
  have recorded := truth.recorded caller script.version (migrationChecksum script) knows
  exact ⟨recorded, truth.sound.built script member recorded⟩

namespace Tables

variable {migrationChecksum : Script → String} {tables : Tables} {script : Script}

def record (tables : Tables) (version : Int) (checksum : String) (clock : DateTime) : Tables :=
  { tables with migrations := tables.migrations ++ [⟨version, checksum, clock⟩] }

theorem record_grows (tables : Tables) (version : Int) (checksum : String) (clock : DateTime) :
    Grows tables (tables.record version checksum clock) :=
  ⟨List.prefix_refl _, List.prefix_append _ _⟩

/-- The recorded checksum is found. -/
theorem findChecksum_of_mem (versions : (tables.migrations.map MigrationRow.version).Nodup)
    {row : MigrationRow} (member : row ∈ tables.migrations) :
    tables.findChecksum row.version = some row.checksum :=
  congrArg (Option.map MigrationRow.checksum) (Table.lookup_of_mem versions member)

theorem Grows.findChecksum {before after : Tables} (grows : Grows before after) {version : Int}
    {checksum : String} (found : before.findChecksum version = some checksum) :
    after.findChecksum version = some checksum := by
  obtain ⟨added, split⟩ := grows.migrations
  obtain ⟨row, first, rfl⟩ := Option.map_eq_some_iff.mp found
  refine congrArg (Option.map MigrationRow.checksum) (?_ : _ = some row)
  unfold Table.lookup at first ⊢
  rw [← split, List.find?_append, first]
  rfl

theorem findChecksum_build (names : List String) (version : Int) :
    (tables.build names).findChecksum version = tables.findChecksum version := by
  rw [findChecksum, findChecksum, build_migrations]

theorem Sound.build (sound : tables.Sound migrationChecksum) (names : List String) :
    (tables.build names).Sound migrationChecksum where
  built := by
    intro other listed recorded
    unfold Records at recorded
    rw [build_migrations] at recorded
    exact (build_grows tables names).builds (sound.built other listed recorded)
  versions := by
    rw [build_migrations]
    exact sound.versions

theorem Agrees.build (agrees : tables.Agrees migrationChecksum) (names : List String) :
    (tables.build names).Agrees migrationChecksum := by
  unfold Agrees
  rw [build_migrations]
  exact agrees

/-- A file that a start has settled for one script. -/
structure Settled (migrationChecksum : Script → String) (before : Tables) (script : Script)
    (after : Tables) : Prop where
  grows : Grows before after
  recorded : after.Records script.version (migrationChecksum script)
  built : after.Builds script
  sound : after.Sound migrationChecksum
  agrees : after.Agrees migrationChecksum

theorem settle_recorded (listed : script ∈ scripts) (sound : tables.Sound migrationChecksum)
    (agrees : tables.Agrees migrationChecksum)
    (absent : tables.findChecksum script.version = none)
    (built : tables.Builds script) (clock : DateTime) :
    Settled migrationChecksum tables script
      (tables.record script.version (migrationChecksum script) clock) := by
  have did : Did (.insert script.version (migrationChecksum script)) (.ok ()) tables
      (tables.record script.version (migrationChecksum script) clock) :=
    .inserted (findChecksum_absent absent)
  have admitted : Knowledge.Admitted migrationChecksum ⟨script.creates, []⟩
      (.insert script.version (migrationChecksum script)) :=
    ⟨script, listed, rfl, rfl, fun _ => id⟩
  refine ⟨did.grows, ?_, built, sound.step did admitted built, agrees.step did admitted⟩
  exact ⟨_, List.mem_append_right _ List.mem_cons_self, rfl, rfl⟩

/-- What a start makes of one script, whether it fills in the record or finds it. -/
theorem settle_script (listed : script ∈ scripts) (sound : tables.Sound migrationChecksum)
    (agrees : tables.Agrees migrationChecksum) (ready : "schema_migrations" ∈ tables.objects)
    (clock : DateTime) (missing : Sqlite Unit)
    (fills : tables.findChecksum script.version = none →
      undisturbed clock missing.run tables = (.ok (), (tables.build script.creates).record
        script.version (migrationChecksum script) clock)) :
    ∃ after,
      undisturbed clock (verify migrationChecksum script missing).run tables = (.ok (), after) ∧
        Settled migrationChecksum tables script after := by
  cases found : tables.findChecksum script.version with
  | none =>
      have absent : (tables.build script.creates).findChecksum script.version = none := by
        rw [findChecksum_build, found]
      have settled := settle_recorded listed (sound.build script.creates)
        (agrees.build script.creates) absent (build_builds tables script.creates) clock
      refine ⟨_, (verify_missing ready found missing).trans (fills found), ?_⟩
      exact ⟨(build_grows tables script.creates).trans settled.grows,
        settled.recorded, settled.built, settled.sound, settled.agrees⟩
  | some existing =>
      have recorded := findChecksum_records found
      obtain ⟨row, member, versioned, rfl⟩ := id recorded
      have same := agrees row member script listed versioned
      rw [same] at recorded found
      refine ⟨tables, verify_recorded ready found missing, ?_⟩
      exact ⟨.refl tables, recorded, sound.built script listed recorded, sound, agrees⟩

end Tables

section Converge

variable {migrationChecksum : Script → String} {tables : Tables}

theorem ready_of_build (tables : Tables) :
    "schema_migrations" ∈ (tables.build schemaSql.creates).objects :=
  Tables.build_builds tables schemaSql.creates _ List.mem_cons_self

/-- The first steps of a start. -/
theorem undisturbed_start (migrationChecksum : Script → String) (clock : DateTime)
    (tables : Tables) :
    undisturbed clock (applySchema migrationChecksum).run tables =
      undisturbed clock (do
        recordOrVerifyMigration migrationChecksum schemaSql
        applyIfMissing migrationChecksum schemaV2Sql : Sqlite Unit).run
        (tables.build schemaSql.creates) :=
  undisturbed_ok (undisturbed_executeBatch clock schemaSql tables)

/-- A start over a file of ours settles both scripts. -/
theorem start_settles (sound : tables.Sound migrationChecksum)
    (agrees : tables.Agrees migrationChecksum) (clock : DateTime) :
    ∃ final, undisturbed clock (applySchema migrationChecksum).run tables = (.ok (), final) ∧
      Tables.Grows tables final ∧ final.Sound migrationChecksum ∧
      final.Agrees migrationChecksum ∧ ∀ script ∈ scripts,
        final.Records script.version (migrationChecksum script) ∧ final.Builds script := by
  have first : schemaSql ∈ scripts := List.mem_cons_self
  have second : schemaV2Sql ∈ scripts := List.mem_cons_of_mem _ List.mem_cons_self
  have ready := ready_of_build tables
  have fills (absent : (tables.build schemaSql.creates).findChecksum schemaSql.version = none) :
      undisturbed clock (insertMigration schemaSql.version (migrationChecksum schemaSql)).run
        (tables.build schemaSql.creates) =
      (.ok (), ((tables.build schemaSql.creates).build schemaSql.creates).record
        schemaSql.version (migrationChecksum schemaSql) clock) := by
    rw [undisturbed_insert ready absent,
      Tables.build_built (Tables.build_builds tables schemaSql.creates)]
    rfl
  obtain ⟨one, ran, settled⟩ := Tables.settle_script first (sound.build schemaSql.creates)
    (agrees.build schemaSql.creates) ready clock _ fills
  have ready' := settled.grows.objects.subset ready
  have fills' (absent : one.findChecksum schemaV2Sql.version = none) :
      undisturbed clock (do
        executeBatch schemaV2Sql
        insertMigration schemaV2Sql.version (migrationChecksum schemaV2Sql) : Sqlite Unit).run
        one = (.ok (), (one.build schemaV2Sql.creates).record schemaV2Sql.version
          (migrationChecksum schemaV2Sql) clock) := by
    refine (undisturbed_ok (undisturbed_executeBatch clock schemaV2Sql one)).trans ?_
    exact undisturbed_insert ((Tables.build_grows one _).objects.subset ready')
      (by rw [Tables.findChecksum_build, absent]) _
  obtain ⟨two, ran', settled'⟩ := Tables.settle_script second settled.sound settled.agrees ready'
    clock _ fills'
  refine ⟨two, ?_, ?_, settled'.sound, settled'.agrees, fun script member => ?_⟩
  · rw [undisturbed_start]
    exact (undisturbed_ok ran).trans ran'
  · exact (Tables.build_grows tables _).trans (settled.grows.trans settled'.grows)
  · obtain rfl | rfl : script = schemaSql ∨ script = schemaV2Sql := by
      simpa [scripts] using member
    · exact ⟨settled'.grows.records settled.recorded, settled'.grows.builds settled.built⟩
    · exact ⟨settled'.recorded, settled'.built⟩

/-- A file with both records and the whole schema stays as it is. -/
theorem start_idle (agrees : tables.Agrees migrationChecksum)
    (complete : ∀ script ∈ scripts,
      tables.Records script.version (migrationChecksum script) ∧ tables.Builds script)
    (clock : DateTime) :
    undisturbed clock (applySchema migrationChecksum).run tables = (.ok (), tables) := by
  have first : schemaSql ∈ scripts := List.mem_cons_self
  have second : schemaV2Sql ∈ scripts := List.mem_cons_of_mem _ List.mem_cons_self
  have built : tables.build schemaSql.creates = tables :=
    Tables.build_built (complete schemaSql first).2
  have ready : "schema_migrations" ∈ tables.objects := by
    rw [← built]
    exact ready_of_build tables
  have verified {script : Script} (listed : script ∈ scripts) (missing : Sqlite Unit) :
      undisturbed clock (verify migrationChecksum script missing).run tables =
        (.ok (), tables) := by
    refine verify_recorded ready ?_ missing
    cases found : tables.findChecksum script.version with
    | none =>
        obtain ⟨row, member, versioned, _⟩ := (complete script listed).1
        refine absurd ?_ (Tables.findChecksum_absent found)
        rw [← versioned]
        exact List.mem_map_of_mem member
    | some existing =>
        obtain ⟨row, member, versioned, rfl⟩ := Tables.findChecksum_records found
        rw [agrees row member script listed versioned]
  rw [undisturbed_start, built]
  exact (undisturbed_ok (verified first _)).trans (verified second _)

/-- A start over a file with another checksum stops, after the first script at the latest. -/
theorem start_refuses (sound : tables.Sound migrationChecksum)
    (differs : ¬ tables.Agrees migrationChecksum) (clock : DateTime) :
    ∃ final, undisturbed clock (applySchema migrationChecksum).run tables =
        (.error checksumMismatch, final) ∧ Tables.Grows tables final := by
  have stale : ∃ row ∈ tables.migrations, ∃ script ∈ scripts,
      row.version = script.version ∧ row.checksum ≠ migrationChecksum script := by
    refine Classical.byContradiction fun none => differs fun row member script listed same => ?_
    exact Classical.byContradiction fun other => none ⟨row, member, script, listed, same, other⟩
  obtain ⟨row, member, script, listed, versioned, other⟩ := stale
  have grown := Tables.build_grows tables schemaSql.creates
  have ready := ready_of_build tables
  rw [undisturbed_start]
  generalize tables.build schemaSql.creates = built at grown ready
  have found : built.findChecksum script.version = some row.checksum := by
    rw [← versioned]
    exact grown.findChecksum (Tables.findChecksum_of_mem sound.versions member)
  obtain rfl | rfl : script = schemaSql ∨ script = schemaV2Sql := by simpa [scripts] using listed
  · exact ⟨_, undisturbed_error (verify_refuses ready found other _), grown⟩
  · have refused {after : Tables} (grows : Tables.Grows built after) :
        undisturbed clock (applyIfMissing migrationChecksum schemaV2Sql).run after =
          (.error checksumMismatch, after) :=
      verify_refuses (grows.objects.subset ready) (grows.findChecksum found) other _
    cases first : built.findChecksum schemaSql.version with
    | none =>
        have recorded : undisturbed clock
            (recordOrVerifyMigration migrationChecksum schemaSql).run built =
              (.ok (), built.record schemaSql.version (migrationChecksum schemaSql) clock) :=
          (verify_missing ready first _).trans (undisturbed_insert ready first _)
        have grows := Tables.record_grows built schemaSql.version (migrationChecksum schemaSql)
          clock
        exact ⟨_, (undisturbed_ok recorded).trans (refused grows), grown.trans grows⟩
    | some existing =>
        by_cases same : existing = migrationChecksum schemaSql
        · subst same
          have kept : undisturbed clock
              (recordOrVerifyMigration migrationChecksum schemaSql).run built =
                (.ok (), built) := verify_recorded ready first _
          exact ⟨_, (undisturbed_ok kept).trans (refused (.refl built)), grown⟩
        · exact ⟨_, undisturbed_error (verify_refuses ready first same _), grown⟩

end Converge

def fresh : Tables where
  objects := []
  migrations := []

/-- A start that is cut off after five statements, and one that returns. -/
def restarted : List (Label (system fun _ => "checksum")) :=
  [.spawn ()] ++ List.replicate 5 (.perform 0 (.settle 0)) ++ [.crash (), .spawn ()] ++
    List.replicate 22 (.perform 1 (.settle 1))

def returns (pool : Pool (system fun _ => "checksum")) (caller : Nat) : Bool :=
  match pool.calls caller with
  | some (_, .pure (.ok ())) => true
  | _ => false

theorem sound_fresh : Tables.Sound (fun _ => "checksum") fresh :=
  ⟨fun _ _ ⟨_, member, _⟩ => absurd member List.not_mem_nil, List.nodup_nil⟩

theorem starts_sound_restarted :
    ∃ pool : Pool (system fun _ => "checksum"), returns pool 1 = true ∧
      Tables.Builds pool.state schemaV2Sql := by
  have ran : (Pool.runChecked (fun _ _ => true) restarted (Pool.boot fresh)).map
      (fun pool => returns pool 1) = some true := by rfl
  obtain ⟨pool, final, returned⟩ := Option.map_eq_some_iff.mp ran
  have reached : Pool.Reachable (fun _ _ => True) (fun pool => pool = Pool.boot fresh) pool :=
    .of_runChecked (fun _ _ _ => trivial) (.start rfl) final
  refine ⟨pool, returned, ?_⟩
  unfold returns at returned
  split at returned
  · rename_i job called
    exact ((starts_sound _ _ sound_fresh pool reached).2.2 1 job called schemaV2Sql
      (List.mem_cons_of_mem _ List.mem_cons_self)).2
  · cases returned

/-- After any number of starts, wherever they failed or were cut off, one more start that nothing
disturbs returns without an error exactly when no recorded checksum is another one, leaves the
whole schema, and after it a start changes nothing; else it is refused. -/
theorem starts_converge (migrationChecksum : Script → String) (tables : Tables)
    (sound : tables.Sound migrationChecksum) (pool : Pool (system migrationChecksum))
    (reached : Pool.Reachable (fun _ _ => True) (fun pool => pool = Pool.boot tables) pool)
    (clock : DateTime) :
    (tables.Agrees migrationChecksum → Tables.Agrees migrationChecksum pool.state) ∧
    (Tables.Agrees migrationChecksum pool.state → ∃ final,
      undisturbed clock (applySchema migrationChecksum).run pool.state = (.ok (), final) ∧
      Tables.Grows pool.state final ∧
      (∀ script ∈ scripts,
        final.Records script.version (migrationChecksum script) ∧ final.Builds script) ∧
      ∀ later, undisturbed later (applySchema migrationChecksum).run final = (.ok (), final)) ∧
    (¬ Tables.Agrees migrationChecksum pool.state → ∃ final,
      undisturbed clock (applySchema migrationChecksum).run pool.state =
        (.error checksumMismatch, final) ∧ Tables.Grows pool.state final) := by
  have truth := (truth_reachable sound reached).2
  refine ⟨truth.agrees, fun agrees => ?_, fun differs => start_refuses truth.sound differs clock⟩
  obtain ⟨final, ran, grown, _, agrees, complete⟩ := start_settles truth.sound agrees clock
  exact ⟨final, ran, grown, complete, start_idle agrees complete⟩

theorem starts_converge_cut :
    ∃ (pool : Pool (system fun _ => "checksum")) (final : Tables), pool.state.objects.length = 5 ∧
      undisturbed 1 (applySchema fun _ => "checksum").run pool.state = (.ok (), final) ∧
      final.Builds schemaV2Sql := by
  have ran : (Pool.runChecked (fun _ _ => true) (restarted.take 6) (Pool.boot fresh)).map
      (fun pool => pool.state.objects.length) = some 5 := by rfl
  obtain ⟨pool, cut, five⟩ := Option.map_eq_some_iff.mp ran
  have reached : Pool.Reachable (fun _ _ => True) (fun pool => pool = Pool.boot fresh) pool :=
    .of_runChecked (fun _ _ _ => trivial) (.start rfl) cut
  obtain ⟨kept, settles, _⟩ := starts_converge _ _ sound_fresh pool reached 1
  obtain ⟨final, settled, _, complete, _⟩ := settles (kept nofun)
  exact ⟨pool, final, five, settled,
    (complete schemaV2Sql (List.mem_cons_of_mem _ List.mem_cons_self)).2⟩

end OpsCodex.Store.Schema
