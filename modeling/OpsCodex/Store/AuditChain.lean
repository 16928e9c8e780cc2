import OpsCodex.Action.HashPreimages
import OpsCodex.Encoding.HashChain
import OpsCodex.Json.Text
import OpsCodex.Sequence.Traversal
import OpsCodex.Store.History

/-! The audit log: the rows it is stored in, the chain of their hashes, and what the
hash of the last record says about the records before it. -/

set_option autoImplicit false

namespace OpsCodex.Store

open OpsCodex.Json OpsCodex.Runtime OpsCodex.Action Encoding

/-- How payloads, with the numbers in them, and timestamps are read back from their texts. -/
structure AuditReader where
  fromStr : List UInt8 → Except String Value
  number : Number → Number
  integer : ∀ value, number (.posInt value) = .posInt value
  parseFromRfc3339 : String → Except String DateTime

/-- The text of payloads, as it is written and read. -/
def AuditReader.text (reader : AuditReader) (codec : Codec) : JsonText where
  print := codec.toVec
  parse := reader.fromStr
  number := reader.number
  integer := reader.integer

/-- A row of the audit log, with the texts of its payload and of its timestamp. -/
structure AuditRow where
  seq : Nat
  recordHash : String
  previousHash : String
  actor : String
  workspaceId : Option String
  operation : String
  payload : List UInt8
  createdAt : String

structure AuditCall where
  actor : String
  workspaceId : Option String
  operation : String
  summary : Value
  clock : DateTime

def appendAudit (codec : Codec) (rows : List AuditRow) (call : AuditCall) : List AuditRow :=
  let previous := match rows.getLast? with
    | some row => row.recordHash
    | none => "genesis"
  rows ++ [{
    seq := rows.length + 1
    recordHash := auditRecordHash codec previous call.actor call.workspaceId call.operation
      call.summary call.clock
    previousHash := previous
    actor := call.actor
    workspaceId := call.workspaceId
    operation := call.operation
    payload := codec.toVec call.summary
    createdAt := codec.toRfc3339 call.clock }]

def readAudit (reader : AuditReader) (row : AuditRow) : Result AuditRecord := do
  let summary ← (reader.fromStr row.payload).mapError fun error =>
    .storage s!"invalid audit payload: {error}"
  let createdAt ← (reader.parseFromRfc3339 row.createdAt).mapError fun error =>
    .storage s!"invalid audit timestamp: {error}"
  return {
    seq := row.seq
    recordHash := row.recordHash
    previousHash := row.previousHash
    actor := row.actor
    workspaceId := row.workspaceId
    operation := row.operation
    summary := summary
    createdAt := createdAt }

def listAudit (reader : AuditReader) (rows : List AuditRow) : Result (List AuditRecord) :=
  rows.mapM (readAudit reader)

/-- The loop of `verify_audit_chain`, with the hash that the next record has to name. -/
def verifyAuditFrom (codec : Codec) : String → List AuditRecord → Result Unit
  | _, [] => .ok ()
  | previous, record :: records =>
      if record.previousHash ≠ previous then
        .error (.storage "audit hash chain previous hash mismatch")
      else if auditRecordHash codec record.previousHash record.actor record.workspaceId
          record.operation record.summary record.createdAt ≠ record.recordHash then
        .error (.storage "audit hash chain record hash mismatch")
      else verifyAuditFrom codec record.recordHash records

def verifyAuditChain (codec : Codec) (records : List AuditRecord) : Result Unit :=
  verifyAuditFrom codec "genesis" records

namespace AuditRecord

/-- What the hash of a record is computed from. -/
def entry (record : AuditRecord) : AuditEntry where
  previousHash := record.previousHash
  actor := record.actor
  workspaceId := record.workspaceId
  operation := record.operation
  summary := record.summary
  createdAt := record.createdAt

/-- Equal in every field other than the sequence number. -/
structure SameFields (first second : AuditRecord) : Prop where
  recordHash : first.recordHash = second.recordHash
  entry : first.entry = second.entry

end AuditRecord

/-- The audit log as a hash chain. -/
def auditChain (codec : Codec) : HashChain AuditRecord String where
  digest record := codec.sha256Hex (auditRecordPreimage codec record.entry)
  previous := AuditRecord.previousHash
  hash := AuditRecord.recordHash

section

variable {codec : Codec} {reader : AuditReader}

theorem verifyAuditFrom_iff {previous : String} {records : List AuditRecord} :
    verifyAuditFrom codec previous records = .ok () ↔
      (auditChain codec).Linked previous records := by
  induction records generalizing previous with
  | nil => exact iff_of_true rfl trivial
  | cons record records ih =>
      unfold verifyAuditFrom HashChain.Linked
      by_cases named : record.previousHash = previous
      · by_cases stored : auditRecordHash codec record.previousHash record.actor
            record.workspaceId record.operation record.summary record.createdAt =
              record.recordHash
        · rw [if_neg (not_not_intro named), if_neg (not_not_intro stored), ih]
          exact ⟨fun linked => ⟨named, stored, linked⟩, fun linked => linked.2.2⟩
        · rw [if_neg (not_not_intro named), if_pos stored]
          exact iff_of_false (fun passed => by cases passed) fun linked => stored linked.2.1
      · rw [if_pos named]
        exact iff_of_false (fun passed => by cases passed) fun linked => named linked.1

theorem verifyAuditChain_iff {records : List AuditRecord} :
    verifyAuditChain codec records = .ok () ↔ (auditChain codec).Linked "genesis" records :=
  verifyAuditFrom_iff

/-- What the libraries give back of the texts of a call. The maps of its payload are sorted. -/
structure ReadsBack (codec : Codec) (reader : AuditReader) (call : AuditCall) : Prop where
  summary : (reader.text codec).Restores call.summary
  sorted : call.summary.canonical = call.summary
  clock : reader.parseFromRfc3339 (codec.toRfc3339 call.clock) = .ok call.clock

/-- The payload of a call is read back as it was: it is not nested too deep, and its numbers
are kept. -/
structure AuditCall.Kept (reader : AuditReader) (call : AuditCall) : Prop where
  shallow : call.summary.depth < recursionLimit
  numbers : call.summary.mapNumbers reader.number = call.summary

theorem fromStr_of_kept {call : AuditCall} (readsBack : ReadsBack codec reader call)
    (kept : call.Kept reader) : reader.fromStr (codec.toVec call.summary) = .ok call.summary := by
  have parsed : reader.fromStr (codec.toVec call.summary) =
      .ok (call.summary.mapNumbers reader.number).canonical :=
    readsBack.summary.within kept.shallow
  rw [parsed, kept.numbers, readsBack.sorted]

theorem listAudit_snoc {rows : List AuditRow} {row : AuditRow} {records : List AuditRecord}
    {record : AuditRecord} (listed : listAudit reader rows = .ok records)
    (read : readAudit reader row = .ok record) :
    listAudit reader (rows ++ [row]) = .ok (records ++ [record]) := by
  simp only [listAudit] at listed ⊢
  rw [List.mapM_append, listed]
  simp only [List.mapM_cons, read, List.mapM_nil]
  rfl

theorem readAudit_recordHash {row : AuditRow} {record : AuditRecord}
    (read : readAudit reader row = .ok record) : record.recordHash = row.recordHash := by
  unfold readAudit at read
  cases payload : reader.fromStr row.payload with
  | error error =>
      rw [payload] at read
      cases read
  | ok summary =>
      cases time : reader.parseFromRfc3339 row.createdAt with
      | error error =>
          rw [payload, time] at read
          cases read
      | ok createdAt =>
          rw [payload, time] at read
          cases read
          rfl

/-- The rows and the records they are read as hold the same hashes. -/
theorem recordHashes_eq {rows : List AuditRow} {records : List AuditRecord}
    (listed : listAudit reader rows = .ok records) :
    rows.map AuditRow.recordHash = records.map AuditRecord.recordHash :=
  Traversal.map_eq_of_forall₂ AuditRow.recordHash AuditRecord.recordHash
    (Traversal.forall₂_of_mapM listed) fun read => (readAudit_recordHash read).symm

/-- The hash that the next record names. -/
theorem previousHash_eq {rows : List AuditRow} {records : List AuditRecord}
    (same : rows.map AuditRow.recordHash = records.map AuditRecord.recordHash) :
    (match rows.getLast? with
      | some row => row.recordHash
      | none => "genesis") =
    (match records.getLast? with
      | some record => record.recordHash
      | none => "genesis") := by
  have lasts := congrArg List.getLast? same
  rw [List.getLast?_map, List.getLast?_map] at lasts
  cases row : rows.getLast? <;> cases record : records.getLast? <;> simp_all

/-- What is appended to the rows is what is appended to the records they stand for. -/
theorem listAudit_appendAudit {rows : List AuditRow} {db : Database} {call : AuditCall}
    (readsBack : ReadsBack codec reader call) (kept : call.Kept reader)
    (listed : listAudit reader rows = .ok db.auditLog) :
    listAudit reader (appendAudit codec rows call) =
      .ok (db.appendAudit codec call.actor call.workspaceId call.operation call.summary
        call.clock).auditLog := by
  have hashes := recordHashes_eq listed
  have lengths : rows.length = db.auditLog.length := by
    simpa using congrArg List.length hashes
  refine listAudit_snoc listed ?_
  simp only [readAudit, fromStr_of_kept readsBack kept, readsBack.clock, previousHash_eq hashes,
    lengths]
  rfl

theorem linked_appendAudit {db : Database} {call : AuditCall}
    (linked : (auditChain codec).Linked "genesis" db.auditLog) :
    (auditChain codec).Linked "genesis" (db.appendAudit codec call.actor call.workspaceId
      call.operation call.summary call.clock).auditLog := by
  refine HashChain.linked_snoc.mpr ⟨linked, ?_, rfl⟩
  simp only [auditChain, HashChain.head]
  cases db.auditLog.getLast? <;> rfl

/-- The records after a sequence of calls are listed, and their chain is linked. -/
theorem linked_appends {calls : List AuditCall} {rows : List AuditRow} {db : Database}
    (readsBack : ∀ call ∈ calls, ReadsBack codec reader call)
    (kept : ∀ call ∈ calls, call.Kept reader)
    (listed : listAudit reader rows = .ok db.auditLog)
    (linked : (auditChain codec).Linked "genesis" db.auditLog) :
    ∃ records, listAudit reader (calls.foldl (appendAudit codec) rows) = .ok records ∧
      (auditChain codec).Linked "genesis" records := by
  induction calls generalizing rows db with
  | nil => exact ⟨db.auditLog, listed, linked⟩
  | cons call calls ih =>
      exact ih (fun other member => readsBack other (List.mem_cons_of_mem _ member))
        (fun other member => kept other (List.mem_cons_of_mem _ member))
        (listAudit_appendAudit (readsBack call List.mem_cons_self) (kept call List.mem_cons_self)
          listed)
        (linked_appendAudit linked)

/-- The digests of the records are collision-free and none is the start of a chain. -/
structure Digests (codec : Codec) (records : List AuditRecord) : Prop where
  injective : ∀ record ∈ records, ∀ other ∈ records,
    codec.sha256Hex (auditRecordPreimage codec record.entry) =
      codec.sha256Hex (auditRecordPreimage codec other.entry) →
    auditRecordPreimage codec record.entry = auditRecordPreimage codec other.entry
  started : ∀ record ∈ records,
    codec.sha256Hex (auditRecordPreimage codec record.entry) ≠ "genesis"

/-- Accepted lists of records with one head hash differ in sequence numbers at most. -/
theorem sameFields_of_head {values : Set Value} {times : Set DateTime}
    (distinguishes : codec.Distinguishes values times) {first second : List AuditRecord}
    (fields : ∀ record ∈ first ++ second, AuditFields codec values times record.entry)
    (digests : Digests codec (first ++ second))
    (accepted : verifyAuditChain codec first = .ok ())
    (accepted' : verifyAuditChain codec second = .ok ())
    (heads : (auditChain codec).head "genesis" first =
      (auditChain codec).head "genesis" second) :
    List.Forall₂ AuditRecord.SameFields first second := by
  have linked := verifyAuditChain_iff.mp accepted
  have linked' := verifyAuditChain_iff.mp accepted'
  refine linked.forall₂ (fun record member other member' same => ?_)
    (fun same => congrArg AuditEntry.previousHash same.entry) digests.started linked' heads
  have inFirst := List.mem_append_left second member
  have inSecond := List.mem_append_right first member'
  have stored : record.recordHash = other.recordHash :=
    (linked.stored member).symm.trans (same.trans (linked'.stored member'))
  have entries : record.entry = other.entry := by
    apply entry_of_preimage distinguishes (fields record inFirst) (fields other inSecond)
    exact digests.injective record inFirst other inSecond same
  exact ⟨stored, entries⟩

/-- The audit chain of a store whose payloads are kept is accepted, and an accepted list of
records is known from the hash of its last record. -/
theorem auditChain_evident {calls : List AuditCall}
    (readsBack : ∀ call ∈ calls, ReadsBack codec reader call)
    (kept : ∀ call ∈ calls, call.Kept reader)
    {values : Set Value} {times : Set DateTime} (distinguishes : codec.Distinguishes values times) :
    (∃ records, listAudit reader (calls.foldl (appendAudit codec) []) = .ok records ∧
      verifyAuditChain codec records = .ok ()) ∧
    ∀ first second : List AuditRecord, first ≠ [] → second ≠ [] →
      (∀ record ∈ first ++ second, AuditFields codec values times record.entry) →
      Digests codec (first ++ second) →
      verifyAuditChain codec first = .ok () → verifyAuditChain codec second = .ok () →
      first.getLast?.map AuditRecord.recordHash = second.getLast?.map AuditRecord.recordHash →
      List.Forall₂ AuditRecord.SameFields first second := by
  constructor
  · obtain ⟨records, listed, linked⟩ :=
      linked_appends readsBack kept
        (show listAudit reader [] = .ok Database.empty.auditLog from rfl)
        trivial
    exact ⟨records, listed, verifyAuditChain_iff.mpr linked⟩
  · intro first second _ _ fields digests accepted accepted' lasts
    apply sameFields_of_head distinguishes fields digests accepted accepted'
    exact congrArg (Option.getD · "genesis") lasts

end

namespace AuditDemo

def digest : String := "f9dc0ef5c2f9cda30cb85c16448fc132d50f463a461885bb61be15cb59905747"

def codec : Codec :=
  { twoTexts with
    sha256Hex := fun bytes =>
      if bytes = auditRecordPreimage twoTexts unscopedEntry then digest else "" }

def reader : AuditReader where
  fromStr bytes := if bytes = utf8 "\x7b\x7d" then .ok (.object []) else .error "expected value"
  number := id
  integer := JsonText.integer_id
  parseFromRfc3339 text :=
    if text = "1970-01-01T00:00:00+00:00" then .ok 0
    else .error "input contains invalid characters"

def call : AuditCall where
  actor := "operator"
  workspaceId := none
  operation := "action.authorized"
  summary := .object []
  clock := 0

def record (seq : Nat) : AuditRecord where
  seq := seq
  recordHash := digest
  previousHash := "genesis"
  actor := "operator"
  workspaceId := none
  operation := "action.authorized"
  summary := .object []
  createdAt := 0

theorem sha256Hex_record (seq : Nat) :
    codec.sha256Hex (auditRecordPreimage codec (record seq).entry) = digest := if_pos rfl

theorem accepted (seq : Nat) : verifyAuditChain codec [record seq] = .ok () :=
  verifyAuditChain_iff.mpr ⟨rfl, sha256Hex_record seq, trivial⟩

end AuditDemo

theorem auditChain_evident_renumbered :
    (∃ records, listAudit AuditDemo.reader (appendAudit AuditDemo.codec [] AuditDemo.call) =
      .ok records ∧ verifyAuditChain AuditDemo.codec records = .ok ()) ∧
    List.Forall₂ AuditRecord.SameFields [AuditDemo.record 1] [AuditDemo.record 7] := by
  have readsBack : ∀ call ∈ [AuditDemo.call],
      ReadsBack AuditDemo.codec AuditDemo.reader call := by
    intro call member
    obtain rfl := List.mem_singleton.mp member
    exact ⟨⟨fun _ => if_pos rfl, fun deep => absurd deep (by decide)⟩, rfl, rfl⟩
  have kept : ∀ call ∈ [AuditDemo.call], call.Kept AuditDemo.reader := by
    intro call member
    obtain rfl := List.mem_singleton.mp member
    exact ⟨by decide, rfl⟩
  have fields : ∀ record ∈ [AuditDemo.record 1] ++ [AuditDemo.record 7],
      AuditFields AuditDemo.codec {.null, .object []} {0, 1} record.entry := by
    intro record member
    have same : record.entry = unscopedEntry := by
      simp only [List.cons_append, List.nil_append, List.mem_cons, List.not_mem_nil,
        or_false] at member
      rcases member with rfl | rfl <;> rfl
    rw [same]
    exact auditFields_unscoped _ none nofun
  have digests : Digests AuditDemo.codec ([AuditDemo.record 1] ++ [AuditDemo.record 7]) := by
    have one : ∀ record ∈ [AuditDemo.record 1] ++ [AuditDemo.record 7],
        ∃ seq, record = AuditDemo.record seq := by
      intro record member
      simp only [List.cons_append, List.nil_append, List.mem_cons, List.not_mem_nil,
        or_false] at member
      rcases member with rfl | rfl <;> exact ⟨_, rfl⟩
    constructor
    · intro record member other member' _
      obtain ⟨_, rfl⟩ := one record member
      obtain ⟨_, rfl⟩ := one other member'
      rfl
    · intro record member
      obtain ⟨seq, rfl⟩ := one record member
      rw [AuditDemo.sha256Hex_record]
      decide
  obtain ⟨sound, evident⟩ := auditChain_evident readsBack kept
    (twoTexts_distinguishes _)
  exact ⟨sound, evident _ _ nofun nofun fields digests (AuditDemo.accepted 1)
    (AuditDemo.accepted 7) rfl⟩

namespace AuditDemo

/-- A fraction, and its neighbour that is read back from its text. -/
def fraction : Number := .float "51.248178375505404"

def neighbour : Number := .float "51.24817837550541"

def fractionTexts : Codec where
  sha256Hex := fun _ => ""
  toVec
    | .number (.float text) => utf8 text
    | _ => utf8 "\x7b\x7d"
  toRfc3339 := twoTexts.toRfc3339

def fractionEntry : AuditEntry := { unscopedEntry with summary := .number fraction }

/-- The digest of the record of the fraction, and no other. -/
def fractionCodec : Codec :=
  { fractionTexts with
    sha256Hex := fun bytes =>
      if bytes = auditRecordPreimage fractionTexts fractionEntry then digest else "" }

def fractionReader : AuditReader where
  fromStr bytes :=
    if bytes = utf8 "51.248178375505404" then .ok (.number neighbour) else .error "expected value"
  number number := if number = fraction then neighbour else number
  integer _ := rfl
  parseFromRfc3339 := reader.parseFromRfc3339

def fractionCall : AuditCall := { call with summary := .number fraction }

theorem preimage_ne : auditRecordPreimage fractionTexts fractionEntry ≠
    auditRecordPreimage fractionTexts { unscopedEntry with summary := .number neighbour } := by
  decide +kernel

end AuditDemo

open AuditDemo in
/-- A fraction that is read back as its neighbour: the log that the store itself has written
is refused. -/
theorem not_auditChain_evident :
    ReadsBack fractionCodec fractionReader fractionCall ∧
    ∃ records error, listAudit fractionReader (appendAudit fractionCodec [] fractionCall) =
      .ok records ∧ verifyAuditChain fractionCodec records = .error error := by
  constructor
  · exact ⟨⟨fun _ => if_pos rfl, fun deep => absurd deep (by decide)⟩, rfl, rfl⟩
  · have computed : auditRecordHash fractionCodec "genesis" "operator" none "action.authorized"
        (.number neighbour) 0 = "" := if_neg preimage_ne.symm
    refine ⟨[{ AuditDemo.record 1 with summary := .number neighbour }],
      .storage "audit hash chain record hash mismatch", ?_, ?_⟩
    · have stored : auditRecordHash fractionCodec "genesis" fractionCall.actor
          fractionCall.workspaceId fractionCall.operation fractionCall.summary
          fractionCall.clock = digest := if_pos rfl
      have payload : fractionReader.fromStr (fractionCodec.toVec fractionCall.summary) =
        .ok (.number neighbour) := if_pos rfl
      have time : fractionReader.parseFromRfc3339 (fractionCodec.toRfc3339 fractionCall.clock) =
        .ok 0 := rfl
      simp only [appendAudit, List.getLast?_nil, stored, List.nil_append, listAudit,
        List.mapM_cons, List.mapM_nil, readAudit, payload, time]
      rfl
    · have other : ¬ "" = digest := by decide
      simp only [verifyAuditChain, verifyAuditFrom, AuditDemo.record, computed, ne_eq, other,
        not_true, not_false_eq_true, if_true, if_false]

end OpsCodex.Store
