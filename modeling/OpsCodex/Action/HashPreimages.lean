import Mathlib.Data.Set.Function
import OpsCodex.Action.Preimage

/-! The preimages of request hashes and of audit hashes can be decoded: each
determines the fields it is written from, and none is of both kinds. -/

set_option autoImplicit false

namespace OpsCodex.Action

open OpsCodex.Json OpsCodex.Runtime Encoding

/-- What an audit hash is computed from. -/
structure AuditEntry where
  previousHash : String
  actor : String
  workspaceId : Option String
  operation : String
  summary : Value
  createdAt : DateTime

def auditRecordPreimage (codec : Codec) (entry : AuditEntry) : List UInt8 :=
  canonicalPreimage "audit-record" ++
  hashField (utf8 "previous_hash") (utf8 entry.previousHash) ++
  hashField (utf8 "actor") (utf8 entry.actor) ++
  hashOptionalField (utf8 "workspace_id") (entry.workspaceId.map utf8) ++
  hashField (utf8 "operation") (utf8 entry.operation) ++
  hashField (utf8 "summary") (codec.toVec entry.summary) ++
  hashField (utf8 "created_at") (utf8 (codec.toRfc3339 entry.createdAt))

/-- The JSON texts and the timestamps of stored values are told apart. -/
structure Codec.Distinguishes (codec : Codec) (values : Set Value) (times : Set DateTime) :
    Prop where
  values : Set.InjOn codec.toVec values
  times : Set.InjOn codec.toRfc3339 times

/-- The fields of an action that its request hash covers can be written: their
lengths are 64-bit numbers, and the stored value and time are told apart. -/
structure RequestFields (codec : Codec) (values : Set Value) (times : Set DateTime)
    (action : ActionRecord) : Prop where
  workspaceId : Fits (utf8 action.workspaceId.asStr)
  toolId : Fits (utf8 action.toolId)
  toolVersion : Fits (utf8 action.toolVersion)
  schemaHash : Fits (utf8 action.schemaHash)
  normalizedTarget : Fits (utf8 action.normalizedTarget)
  parametersText : Fits (codec.toVec action.normalizedParameters)
  parameters : action.normalizedParameters ∈ values
  preconditions : action.preconditions.length < 2 ^ 64 ∧
    ∀ precondition ∈ action.preconditions, Fits (utf8 precondition)
  verificationSpec : Fits (utf8 action.verificationSpec)
  effect : Fits (utf8 action.effect)
  operationId : Fits (utf8 action.operationId)
  expiresAtText : Fits (utf8 (codec.toRfc3339 action.expiresAt))
  expiresAt : action.expiresAt ∈ times

/-- The same for an audit record. -/
structure AuditFields (codec : Codec) (values : Set Value) (times : Set DateTime)
    (entry : AuditEntry) : Prop where
  previousHash : Fits (utf8 entry.previousHash)
  actor : Fits (utf8 entry.actor)
  workspaceId : ∀ workspaceId, entry.workspaceId = some workspaceId → Fits (utf8 workspaceId)
  operation : Fits (utf8 entry.operation)
  summaryText : Fits (codec.toVec entry.summary)
  summary : entry.summary ∈ values
  createdAtText : Fits (utf8 (codec.toRfc3339 entry.createdAt))
  createdAt : entry.createdAt ∈ times

/-- The fields that the request hash covers are equal. -/
structure SameCovered (first second : ActionRecord) : Prop where
  workspaceId : first.workspaceId = second.workspaceId
  toolId : first.toolId = second.toolId
  toolVersion : first.toolVersion = second.toolVersion
  schemaHash : first.schemaHash = second.schemaHash
  normalizedTarget : first.normalizedTarget = second.normalizedTarget
  normalizedParameters : first.normalizedParameters = second.normalizedParameters
  preconditions : first.preconditions = second.preconditions
  verificationSpec : first.verificationSpec = second.verificationSpec
  effect : first.effect = second.effect
  operationId : first.operationId = second.operationId
  expiresAt : first.expiresAt = second.expiresAt

section

variable {codec : Codec} {values : Set Value} {times : Set DateTime}

theorem hashText_inj {name rest rest' : List UInt8} {first second : String}
    (firstFits : Fits (utf8 first)) (secondFits : Fits (utf8 second))
    (same : hashField name (utf8 first) ++ rest = hashField name (utf8 second) ++ rest') :
    first = second ∧ rest = rest' := by
  obtain ⟨texts, rests⟩ := hashField_inj firstFits secondFits same
  exact ⟨utf8_injective texts, rests⟩

/-- The tag of an optional field tells whether a value follows. -/
theorem hashOptionalText_inj {name rest rest' : List UInt8} {first second : Option String}
    (firstFits : ∀ text, first = some text → Fits (utf8 text))
    (secondFits : ∀ text, second = some text → Fits (utf8 text))
    (same : hashOptionalField name (first.map utf8) ++ rest =
      hashOptionalField name (second.map utf8) ++ rest') : first = second ∧ rest = rest' := by
  cases first with
  | none =>
      cases second with
      | none =>
          simp only [Option.map_none, hashOptionalField, List.append_cancel_left_eq] at same
          exact ⟨rfl, same⟩
      | some other =>
          simp only [Option.map_none, Option.map_some, hashOptionalField, List.append_assoc,
            List.append_cancel_left_eq, List.cons_append, List.cons.injEq] at same
          exact absurd same.1 (by decide)
  | some text =>
      cases second with
      | none =>
          simp only [Option.map_none, Option.map_some, hashOptionalField, List.append_assoc,
            List.append_cancel_left_eq, List.cons_append, List.cons.injEq] at same
          exact absurd same.1 (by decide)
      | some other =>
          simp only [Option.map_some, hashOptionalField, List.append_assoc,
            List.append_cancel_left_eq] at same
          obtain ⟨texts, rests⟩ := text_delimits (firstFits text rfl) (secondFits other rfl) same
          exact ⟨congrArg some texts, rests⟩

/-- Equal preimages of requests cover equal fields. -/
theorem sameCovered_of_preimage (distinguishes : codec.Distinguishes values times)
    {first second : ActionRecord} (fields : RequestFields codec values times first)
    (others : RequestFields codec values times second)
    (same : actionRequestPreimage codec first = actionRequestPreimage codec second) :
    SameCovered first second := by
  simp only [actionRequestPreimage, List.append_assoc, List.append_cancel_left_eq] at same
  obtain ⟨workspaces, same⟩ := hashText_inj fields.workspaceId others.workspaceId same
  obtain ⟨tools, same⟩ := hashText_inj fields.toolId others.toolId same
  obtain ⟨versions, same⟩ := hashText_inj fields.toolVersion others.toolVersion same
  obtain ⟨schemas, same⟩ := hashText_inj fields.schemaHash others.schemaHash same
  obtain ⟨targets, same⟩ := hashText_inj fields.normalizedTarget others.normalizedTarget same
  obtain ⟨parameters, same⟩ := hashField_inj fields.parametersText others.parametersText same
  obtain ⟨preconditions, same⟩ :=
    hashStringList_inj fields.preconditions others.preconditions same
  obtain ⟨verifications, same⟩ :=
    hashText_inj fields.verificationSpec others.verificationSpec same
  obtain ⟨effects, same⟩ := hashText_inj fields.effect others.effect same
  obtain ⟨operations, same⟩ := hashText_inj fields.operationId others.operationId same
  rw [← List.append_nil (hashField _ (utf8 (codec.toRfc3339 first.expiresAt))),
    ← List.append_nil (hashField _ (utf8 (codec.toRfc3339 second.expiresAt)))] at same
  obtain ⟨deadlines, -⟩ := hashText_inj fields.expiresAtText others.expiresAtText same
  exact {
    workspaceId := congrArg WorkspaceId.mk workspaces
    toolId := tools
    toolVersion := versions
    schemaHash := schemas
    normalizedTarget := targets
    normalizedParameters := distinguishes.values fields.parameters others.parameters parameters
    preconditions := preconditions
    verificationSpec := verifications
    effect := effects
    operationId := operations
    expiresAt := distinguishes.times fields.expiresAt others.expiresAt deadlines }

theorem entry_of_preimage (distinguishes : codec.Distinguishes values times)
    {first second : AuditEntry} (fields : AuditFields codec values times first)
    (others : AuditFields codec values times second)
    (same : auditRecordPreimage codec first = auditRecordPreimage codec second) :
    first = second := by
  simp only [auditRecordPreimage, List.append_assoc, List.append_cancel_left_eq] at same
  obtain ⟨previous, same⟩ := hashText_inj fields.previousHash others.previousHash same
  obtain ⟨actors, same⟩ := hashText_inj fields.actor others.actor same
  obtain ⟨workspaces, same⟩ := hashOptionalText_inj fields.workspaceId others.workspaceId same
  obtain ⟨operations, same⟩ := hashText_inj fields.operation others.operation same
  obtain ⟨summaries, same⟩ := hashField_inj fields.summaryText others.summaryText same
  rw [← List.append_nil (hashField _ (utf8 (codec.toRfc3339 first.createdAt))),
    ← List.append_nil (hashField _ (utf8 (codec.toRfc3339 second.createdAt)))] at same
  obtain ⟨times, -⟩ := hashText_inj fields.createdAtText others.createdAtText same
  have summary := distinguishes.values fields.summary others.summary summaries
  have created := distinguishes.times fields.createdAt others.createdAt times
  cases first
  cases second
  simp only at previous actors workspaces operations summary created
  subst previous actors workspaces operations summary created
  rfl

/-- Domains are written in front of the fields. -/
theorem domain_of_preimage {first second : String} (firstFits : Fits (utf8 first))
    (secondFits : Fits (utf8 second)) {rest rest' : List UInt8}
    (same : canonicalPreimage first ++ rest = canonicalPreimage second ++ rest') :
    first = second := by
  simp only [canonicalPreimage, List.append_assoc, List.append_cancel_left_eq] at same
  exact (text_delimits firstFits secondFits same).1

theorem preimages_disjoint (action : ActionRecord) (entry : AuditEntry) :
    actionRequestPreimage codec action ≠ auditRecordPreimage codec entry := by
  intro same
  simp only [actionRequestPreimage, auditRecordPreimage, List.append_assoc] at same
  have domains := domain_of_preimage (fits_of_utf8ByteSize (by decide))
    (fits_of_utf8ByteSize (by decide)) same
  exact absurd domains (by decide)

/-- A hash preimage is of one kind and determines every field it is written from. -/
theorem hashPreimages_injective (distinguishes : codec.Distinguishes values times) :
    (∀ first second, RequestFields codec values times first →
      RequestFields codec values times second →
      actionRequestPreimage codec first = actionRequestPreimage codec second →
      SameCovered first second) ∧
    (∀ first second, AuditFields codec values times first →
      AuditFields codec values times second →
      auditRecordPreimage codec first = auditRecordPreimage codec second → first = second) ∧
    ∀ action entry, actionRequestPreimage codec action ≠ auditRecordPreimage codec entry :=
  ⟨fun _ _ => sameCovered_of_preimage distinguishes,
    fun _ _ => entry_of_preimage distinguishes, preimages_disjoint⟩

end

/-- The texts of two values and of two times. -/
def twoTexts : Codec where
  sha256Hex := fun _ => ""
  toVec
    | .object _ => utf8 "\x7b\x7d"
    | _ => utf8 "null"
  toRfc3339 := fun time =>
    if time = 0 then "1970-01-01T00:00:00+00:00" else "1970-01-01T00:00:00.000000001+00:00"

def unscopedEntry : AuditEntry where
  previousHash := "genesis"
  actor := "operator"
  workspaceId := none
  operation := "action.authorized"
  summary := .object []
  createdAt := 0

theorem auditFields_unscoped (sha256Hex : List UInt8 → String) (workspaceId : Option String)
    (fits : ∀ text, workspaceId = some text → Fits (utf8 text)) :
    AuditFields { twoTexts with sha256Hex := sha256Hex } {.null, .object []} {0, 1}
      { unscopedEntry with workspaceId := workspaceId } where
  previousHash := show Fits (utf8 "genesis") from fits_of_utf8ByteSize (by decide)
  actor := show Fits (utf8 "operator") from fits_of_utf8ByteSize (by decide)
  workspaceId := fits
  operation := show Fits (utf8 "action.authorized") from fits_of_utf8ByteSize (by decide)
  summaryText := fits_of_utf8ByteSize (by decide)
  summary := .inr rfl
  createdAtText := show Fits (utf8 "1970-01-01T00:00:00+00:00") from
    fits_of_utf8ByteSize (by decide)
  createdAt := .inl rfl

theorem twoTexts_distinguishes (sha256Hex : List UInt8 → String) :
    Codec.Distinguishes { twoTexts with sha256Hex := sha256Hex } {.null, .object []} {0, 1} where
  values := by
    intro first firstOne second secondOne same
    obtain rfl | rfl := firstOne <;> obtain rfl | rfl := secondOne
    · rfl
    · exact absurd (utf8_injective same) (by decide)
    · exact absurd (utf8_injective same) (by decide)
    · rfl
  times := by
    have different : twoTexts.toRfc3339 0 ≠ twoTexts.toRfc3339 1 := by decide
    intro first firstOne second secondOne same
    obtain rfl | rfl := firstOne <;> obtain rfl | rfl := secondOne
    · rfl
    · exact absurd same different
    · exact absurd same.symm different
    · rfl

theorem hashPreimages_injective_twoTexts :
    auditRecordPreimage twoTexts unscopedEntry ≠
      auditRecordPreimage twoTexts { unscopedEntry with workspaceId := some "" } := by
  intro same
  have fits : ∀ text, some "" = some text → Fits (utf8 text) := by
    intro text equal
    cases equal
    exact fits_of_utf8ByteSize (by decide)
  have equal := (hashPreimages_injective (twoTexts_distinguishes fun _ => "")).2.1 _ _
    (auditFields_unscoped _ none nofun) (auditFields_unscoped _ (some "") fits) same
  exact absurd (congrArg AuditEntry.workspaceId equal) (by decide)

end OpsCodex.Action
