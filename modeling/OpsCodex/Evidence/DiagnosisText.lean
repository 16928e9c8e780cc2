import OpsCodex.Evidence.Diagnosis
import OpsCodex.Extensions.Skill
import OpsCodex.Sequence.Delimited
import OpsCodex.Store.Jsonl

/-! The diagnosis in the text of a model's answer: where its JSON object is looked for, and
what is recorded of an answer with and without one. -/

set_option autoImplicit false

namespace OpsCodex.Evidence

open Delimited OpsCodex.Runtime
open OpsCodex.Strings (isWhitespace toAsciiLowercase trim)

/-- The confidence of a claim as a model may write it. A double is the rational it is. -/
inductive LooseConfidence where
  | level (level : Confidence)
  | number (value : Rat)
  | text (text : String)

structure LooseClaim where
  claimId : Option ClaimId
  kind : ClaimKind
  statement : String
  evidenceIds : List EvidenceId
  confidence : Option LooseConfidence

structure LooseDiagnosis where
  summary : Option String
  claims : List LooseClaim
  recommendedActions : List String
  limitations : List String

/-- The double that is written 0.4. -/
def twoFifths : Rat := 3602879701896397 / 9007199254740992

def Confidence.ofLoose : LooseConfidence → Confidence
  | .level level => level
  | .number value => if 3 / 4 ≤ value then .high else if twoFifths ≤ value then .medium else .low
  | .text text =>
      let text := String.ofList (toAsciiLowercase text.toList)
      if text = "high" then .high
      else if text = "medium" ∨ text = "med" then .medium
      else .low

/-- A claim without an identifier gets a fresh one. -/
def Claim.ofLoose (fresh : ClaimId) (claim : LooseClaim) : Claim where
  claimId := claim.claimId.getD fresh
  kind := claim.kind
  statement := claim.statement
  evidenceIds := claim.evidenceIds
  confidence := (claim.confidence.map Confidence.ofLoose).getD .low

def leading (content : String) : String := String.ofList (content.toList.take 280)

def jsonFence : List Char := "```json".toList

def plainFence : List Char := "```".toList

/-- Positions are counted in characters: each lies beside a character that was found. -/
def extractJsonObject (content : List Char) : Option (List Char) :=
  let trimmed := trim content
  if ['{'] <+: trimmed then some trimmed
  else do
    let fence ← (Offsets.find (fun _ => 1) jsonFence trimmed).or
      (Offsets.find (fun _ => 1) plainFence trimmed)
    let after := trimmed.drop fence
    let start ← Offsets.find (fun _ => 1) ['{'] after
    let stop ← rfind '}' after
    if stop ≤ start then none else some ((after.take (stop + 1)).drop start)

def LooseDiagnosis.settle (fresh : Nat → ClaimId) (content : String) (loose : LooseDiagnosis) :
    Diagnosis where
  summary := loose.summary.getD (leading content)
  claims := loose.claims.mapIdx fun position claim => Claim.ofLoose (fresh position) claim
  recommendedActions := loose.recommendedActions
  limitations := loose.limitations

/-- What stands for an answer that no diagnosis was read from. -/
def unverified (content : String) : Diagnosis where
  summary := leading content
  claims := []
  recommendedActions := []
  limitations := ["Model output was not a structured diagnosis; content is unverified."]

section

-- the decoding of a JSON text, and the identifiers that are made up for the claims
variable (fromStr : String → Option LooseDiagnosis) (fresh : Nat → ClaimId)

def parseJsonDiagnosis (content : String) : Option Diagnosis := do
  let candidate ← extractJsonObject content.toList
  let loose ← fromStr (String.ofList candidate)
  return loose.settle fresh content

def parseDiagnosis (content : String) : Diagnosis :=
  (parseJsonDiagnosis fromStr fresh content).getD (unverified content)

end

/-- Where a text holds the object of an answer: it begins with it, or it has it behind the
first fence, from the next opening brace to the last closing one. -/
inductive Holds (text : List Char) : List Char → Prop where
  | bare (begins : ['{'] <+: text) : Holds text text
  | fenced {fence before opening inner closing : List Char} (prose : ¬ ['{'] <+: text)
      (marked : fence = jsonFence ∨ fence = plainFence ∧ ¬ jsonFence <:+: text)
      (first : FirstAfter fence before) (behind : fence <+: opening)
      (unopened : '{' ∉ opening) (closed : '}' ∉ closing)
      (written : text = before ++ (opening ++ '{' :: (inner ++ '}' :: closing))) :
      Holds text ('{' :: (inner ++ ['}']))

theorem fence_nonempty : jsonFence ≠ [] ∧ plainFence ≠ [] := by decide

/-- The span from the first opening to the last closing symbol behind it. -/
theorem span_eq {opening inner closing : List Char} :
    ((opening ++ '{' :: (inner ++ '}' :: closing)).take
      (opening.length + 1 + inner.length + 1)).drop opening.length =
      '{' :: (inner ++ ['}']) := by
  have shape : opening ++ '{' :: (inner ++ '}' :: closing) =
      opening ++ ('{' :: (inner ++ ['}'])) ++ closing := by simp
  have long : opening.length + 1 + inner.length + 1 =
      (opening ++ ('{' :: (inner ++ ['}']))).length := by
    simp only [List.length_append, List.length_cons, List.length_nil]
    omega
  rw [shape, long, List.take_left, List.drop_left]

theorem extractJsonObject_of_holds {content object : List Char}
    (holds : Holds (trim content) object) : extractJsonObject content = some object := by
  unfold extractJsonObject
  cases holds with
  | bare begins => exact if_pos begins
  | @fenced fence before opening inner closing prose marked first behind unopened closed written =>
      have marks : (Offsets.find (fun _ => 1) jsonFence (trim content)).or
          (Offsets.find (fun _ => 1) plainFence (trim content)) = some before.length := by
        obtain ⟨rest, rfl⟩ := behind
        have place : trim content =
            before ++ fence ++ (rest ++ '{' :: (inner ++ '}' :: closing)) := by
          rw [written]
          simp only [List.append_assoc]
        obtain rfl | ⟨rfl, unmarked⟩ := marked
        · rw [place, find_of_firstAfter fence_nonempty.1 first, Option.some_or]
        · have missing := find_of_not_infix unmarked
          rw [missing, Option.none_or, place, find_of_firstAfter fence_nonempty.2 first]
      have start : Offsets.find (fun _ => 1) ['{'] (opening ++ '{' :: (inner ++ '}' :: closing)) =
          some opening.length :=
        (find_eq_some_iff (List.cons_ne_nil _ _)).mpr ⟨opening, inner ++ '}' :: closing,
          firstAfter_singleton.mpr unopened, by simp, rfl⟩
      have stop : rfind '}' (opening ++ '{' :: (inner ++ '}' :: closing)) =
          some (opening.length + 1 + inner.length) :=
        rfind_eq_some_iff.mpr ⟨opening ++ '{' :: inner, closing, closed, by simp, by simp; omega⟩
      have ordered : ¬ opening.length + 1 + inner.length ≤ opening.length := by omega
      simp only [if_neg prose, marks, Option.bind_eq_bind, Option.bind_some]
      rw [written, List.drop_left]
      simp only [start, stop, Option.bind_some, if_neg ordered, span_eq]

/-- The fence that is found: the one for JSON, if the text has any. -/
theorem marked_of_find {text : List Char} {offset : Nat}
    (found : (Offsets.find (fun _ => 1) jsonFence text).or
      (Offsets.find (fun _ => 1) plainFence text) = some offset) :
    ∃ fence before rest, (fence = jsonFence ∨ fence = plainFence ∧ ¬ jsonFence <:+: text) ∧
      FirstAfter fence before ∧ text = before ++ fence ++ rest ∧ offset = before.length := by
  cases json : Offsets.find (fun _ => 1) jsonFence text with
  | some position =>
      rw [json, Option.some_or] at found
      cases found
      obtain ⟨before, rest, first, written, place⟩ := (find_eq_some_iff fence_nonempty.1).mp json
      exact ⟨jsonFence, before, rest, .inl rfl, first, written, place⟩
  | none =>
      rw [json, Option.none_or] at found
      have unmarked : ¬ jsonFence <:+: text := by
        intro inside
        obtain ⟨before, after, first, rfl⟩ := exists_firstAfter fence_nonempty.1 inside
        rw [find_of_firstAfter fence_nonempty.1 first] at json
        cases json
      obtain ⟨before, rest, first, written, place⟩ := (find_eq_some_iff fence_nonempty.2).mp found
      exact ⟨plainFence, before, rest, .inr ⟨rfl, unmarked⟩, first, written, place⟩

/-- A fence has no brace, so it ends before the first one behind it. -/
theorem fence_ends_before {fence opening text : List Char}
    (plain : '{' ∉ fence) (begins : fence <+: text) (opens : opening ++ ['{'] <+: text) :
    fence <+: opening := by
  by_cases short : fence.length ≤ opening.length
  · exact List.prefix_of_prefix_length_le begins ((List.prefix_append _ _).trans opens) short
  · have inside : opening ++ ['{'] <+: fence := by
      refine List.prefix_of_prefix_length_le opens begins ?_
      rw [List.length_append, List.length_singleton]
      omega
    exact absurd (inside.subset (List.mem_append_right _ List.mem_cons_self)) plain

theorem holds_of_extractJsonObject {content object : List Char}
    (extracted : extractJsonObject content = some object) : Holds (trim content) object := by
  unfold extractJsonObject at extracted
  dsimp only at extracted
  split at extracted
  · case isTrue begins =>
      cases extracted
      exact .bare begins
  · case isFalse prose =>
      simp only [Option.bind_eq_bind, Option.bind_eq_some_iff] at extracted
      obtain ⟨offset, marks, start, begins, stop, ends, spanned⟩ := extracted
      obtain ⟨fence, before, rest, marked, first, text, rfl⟩ := marked_of_find marks
      rw [text, List.append_assoc, List.drop_left] at begins ends spanned
      obtain ⟨opening, behind, unopened, opens, rfl⟩ :=
        (find_eq_some_iff (List.cons_ne_nil _ _)).mp begins
      obtain ⟨front, closing, closed, closes, rfl⟩ := rfind_eq_some_iff.mp ends
      split at spanned
      · cases spanned
      · case isFalse ordered =>
          -- the closing brace lies behind the opening one
          have begun : opening ++ ['{'] <+: fence ++ rest := ⟨behind, opens.symm⟩
          have ended : front <+: fence ++ rest := ⟨'}' :: closing, closes.symm⟩
          have within : (opening ++ ['{']).length ≤ front.length := by
            rw [List.length_append, List.length_singleton]
            omega
          obtain ⟨inner, rfl⟩ := List.prefix_of_prefix_length_le begun ended within
          have shape : fence ++ rest = opening ++ '{' :: (inner ++ '}' :: closing) := by
            rw [closes]
            simp only [List.append_assoc, List.cons_append, List.nil_append]
          have plain : '{' ∉ fence := by
            obtain rfl | ⟨rfl, -⟩ := marked <;> decide
          have spans : object = '{' :: (inner ++ ['}']) := by
            rw [shape] at spanned
            have long : (opening ++ ['{'] ++ inner).length + 1 =
                opening.length + 1 + inner.length + 1 := by
              simp only [List.length_append, List.length_singleton]
            rw [long, span_eq] at spanned
            exact (Option.some.inj spanned).symm
          subst spans
          refine .fenced prose marked first
            (fence_ends_before plain (List.prefix_append fence rest) begun)
            (firstAfter_singleton.mp unopened) closed ?_
          rw [text, List.append_assoc, shape]

theorem extractJsonObject_eq_some_iff {content object : List Char} :
    extractJsonObject content = some object ↔ Holds (trim content) object :=
  ⟨holds_of_extractJsonObject, extractJsonObject_of_holds⟩

/-- Trimming the front of a text stops at what is no white space. -/
theorem dropWhile_before {first : Char} (dark : isWhitespace first = false)
    (before rest : List Char) : (before ++ first :: rest).dropWhile isWhitespace =
      before.dropWhile isWhitespace ++ first :: rest := by
  induction before with
  | nil => rw [List.nil_append, List.dropWhile_cons_of_neg (by rw [dark]; decide)]; rfl
  | cons char before ih =>
      rw [List.cons_append, List.dropWhile_cons, List.dropWhile_cons, ih]
      split <;> rfl

theorem trim_around {first last : Char} (dark : isWhitespace first = false)
    (dim : isWhitespace last = false) (before middle after : List Char) :
    trim (before ++ first :: (middle ++ last :: after)) =
      before.dropWhile isWhitespace ++
        first :: (middle ++ last :: (after.reverse.dropWhile isWhitespace).reverse) := by
  unfold trim
  rw [dropWhile_before dark]
  have backwards : (before.dropWhile isWhitespace ++ first :: (middle ++ last :: after)).reverse =
      after.reverse ++
        last :: (middle.reverse ++ first :: (before.dropWhile isWhitespace).reverse) := by
    simp
  rw [backwards, dropWhile_before dim]
  simp

/-- An object in a fence for JSON is found, whatever stands before the fence and between it
and the object, and whatever follows without a closing brace. -/
theorem holds_of_fenced {before opening inner closing : List Char}
    (first : FirstAfter jsonFence before)
    (prose : ¬ ['{'] <+: before.dropWhile isWhitespace) (unopened : '{' ∉ opening)
    (closed : '}' ∉ closing) :
    Holds (trim (before ++ (jsonFence ++ opening ++ '{' :: (inner ++ '}' :: closing))))
      ('{' :: (inner ++ ['}'])) := by
  obtain ⟨tick, fence, marked, dark, plain⟩ : ∃ tick fence, jsonFence = tick :: fence ∧
      isWhitespace tick = false ∧ tick ≠ '{' := ⟨_, _, rfl, by decide⟩
  have trimmed : trim (before ++ (jsonFence ++ opening ++ '{' :: (inner ++ '}' :: closing))) =
      before.dropWhile isWhitespace ++ (jsonFence ++ opening ++ '{' :: (inner ++
        '}' :: (closing.reverse.dropWhile isWhitespace).reverse)) := by
    have around := trim_around dark (show isWhitespace '}' = false by decide) before
      (fence ++ opening ++ '{' :: inner) closing
    simpa [marked] using around
  rw [trimmed]
  refine .fenced ?_ (.inl rfl) ?_ (List.prefix_append jsonFence opening) ?_ ?_ rfl
  · cases front : before.dropWhile isWhitespace with
    | nil =>
        rw [marked, List.nil_append, List.cons_append, List.cons_append, List.cons_prefix_cons]
        exact fun begins => plain begins.1.symm
    | cons char rest =>
        rw [front] at prose
        rw [List.cons_append, List.cons_prefix_cons]
        exact fun begins => prose (List.cons_prefix_cons.mpr ⟨begins.1, List.nil_prefix⟩)
  · obtain ⟨blank, whole⟩ := List.dropWhile_suffix isWhitespace (l := before)
    rw [← whole] at first
    exact first.of_append
  · rw [List.mem_append, not_or]
    exact ⟨by decide, unopened⟩
  · rw [List.mem_reverse]
    intro member
    exact closed (List.mem_reverse.mp ((List.dropWhile_sublist _).subset member))

section

variable {fromStr : String → Option LooseDiagnosis} {fresh : Nat → ClaimId} {content : String}

theorem parseDiagnosis_of_holds {object : List Char} {loose : LooseDiagnosis}
    (holds : Holds (trim content.toList) object)
    (decoded : fromStr (String.ofList object) = some loose) :
    parseDiagnosis fromStr fresh content = loose.settle fresh content := by
  simp only [parseDiagnosis, parseJsonDiagnosis, extractJsonObject_of_holds holds, decoded,
    Option.bind_eq_bind, Option.bind_some, Option.pure_def, Option.getD_some]

theorem parseDiagnosis_of_unread
    (unread : ∀ object, Holds (trim content.toList) object →
      fromStr (String.ofList object) = none) :
    parseDiagnosis fromStr fresh content = unverified content := by
  unfold parseDiagnosis parseJsonDiagnosis
  cases extracted : extractJsonObject content.toList with
  | none => rfl
  | some object =>
      have undecoded := unread object (holds_of_extractJsonObject extracted)
      simp only [Option.bind_eq_bind, Option.bind_some, undecoded, Option.bind_none,
        Option.getD_none]

/-- What is recorded of an object that was read: all that it says but the claims whose
evidence is not there. -/
structure RecordedFrom (fresh : Nat → ClaimId) (content : String) (loose : LooseDiagnosis)
    (evidence : List EvidenceMeta) (recorded : Diagnosis) : Prop where
  summary : recorded.summary = loose.summary.getD (leading content)
  recommendedActions : recorded.recommendedActions = loose.recommendedActions
  limitations : loose.limitations <+: recorded.limitations
  claims : recorded.claims =
    (loose.claims.mapIdx fun position claim => Claim.ofLoose (fresh position) claim).filter
      fun claim => decide (claim.kind = .recommended ∨ claim.Grounded evidence)

theorem recordedFrom_settle (fresh : Nat → ClaimId) (content : String) (loose : LooseDiagnosis)
    (evidence : List EvidenceMeta) : RecordedFrom fresh content loose evidence
      (applyCitationLimitations (loose.settle fresh content) evidence) := by
  refine ⟨?_, ?_, ?_, claims_applyCitationLimitations_eq⟩
  all_goals
    unfold applyCitationLimitations
    dsimp only
    split
  · rfl
  · rfl
  · rfl
  · rfl
  · exact List.prefix_rfl
  · exact List.prefix_append _ _

/-- An answer without claims has nothing to abstain from. -/
theorem applyCitationLimitations_unverified (evidence : List EvidenceMeta) :
    applyCitationLimitations (unverified content) evidence = unverified content := rfl

end

/-- The object that is read out of an answer, and what is recorded with and without one. -/
theorem answers_read (fromStr : String → Option LooseDiagnosis) (fresh : Nat → ClaimId)
    (content : String) (evidence : List EvidenceMeta) :
    (∀ object, extractJsonObject content.toList = some object ↔
      Holds (trim content.toList) object) ∧
    (∀ before opening inner closing, FirstAfter jsonFence before →
      ¬ ['{'] <+: before.dropWhile isWhitespace → '{' ∉ opening → '}' ∉ closing →
      content.toList = before ++ (jsonFence ++ opening ++ '{' :: (inner ++ '}' :: closing)) →
      extractJsonObject content.toList = some ('{' :: (inner ++ ['}']))) ∧
    (∀ object loose, Holds (trim content.toList) object →
      fromStr (String.ofList object) = some loose →
      RecordedFrom fresh content loose evidence
        (applyCitationLimitations (parseDiagnosis fromStr fresh content) evidence)) ∧
    ((∀ object, Holds (trim content.toList) object → fromStr (String.ofList object) = none) →
      applyCitationLimitations (parseDiagnosis fromStr fresh content) evidence =
        unverified content) := by
  refine ⟨fun _ => extractJsonObject_eq_some_iff, ?fenced, ?read, ?unread⟩
  case fenced =>
    intro before opening inner closing first prose unopened closed written
    rw [extractJsonObject_eq_some_iff, written]
    exact holds_of_fenced first prose unopened closed
  case read =>
    intro object loose holds decoded
    rw [parseDiagnosis_of_holds holds decoded]
    exact recordedFrom_settle fresh content loose evidence
  case unread =>
    intro unread
    rw [parseDiagnosis_of_unread unread]
    exact applyCitationLimitations_unverified evidence

theorem answers_read_fenced :
    let inner := "\"summary\":\"up\"".toList
    let object := '{' :: (inner ++ ['}'])
    let content := String.ofList
      ("Checked:\n".toList ++ ("```json\n".toList ++ object ++ "\n```".toList))
    let decode (text : String) : Option LooseDiagnosis :=
      if text = String.ofList object then
        some { summary := some "up", claims := [], recommendedActions := [], limitations := [] }
      else none
    extractJsonObject content.toList = some object ∧
      (applyCitationLimitations (parseDiagnosis decode (fun _ => ⟨0⟩) content) []).summary =
        "up" := by
  intro inner object content decode
  have read := answers_read decode (fun _ => ⟨0⟩) content []
  have extracted := read.2.1 "Checked:\n".toList "\n".toList inner "\n```".toList
    (by unfold FirstAfter; decide) (by decide) (by decide) (by decide) (by decide)
  have recorded := read.2.2.1 object _ ((read.1 object).mp extracted) (if_pos rfl)
  exact ⟨extracted, recorded.summary⟩

end OpsCodex.Evidence
