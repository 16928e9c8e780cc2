import OpsCodex.Json
import OpsCodex.Runtime.Identifiers

/-! Evidence metadata and diagnoses carried by the event log. -/

set_option autoImplicit false

namespace OpsCodex.Evidence

open OpsCodex.Runtime

inductive Sensitivity where
  | publicLevel
  | internal
  | confidential
  | secret
  deriving DecidableEq, Repr

structure TimeRange where
  start : DateTime
  stop : DateTime
  deriving DecidableEq, Repr

structure EvidenceMeta where
  source : String
  query : Option String
  timestamp : DateTime
  durationMs : UInt64
  truncated : Bool
  evidenceId : Option EvidenceId
  sourceKind : Option String
  sourceRef : Option String
  queryOrOperation : Option String
  observedAt : Option DateTime
  timeRange : Option TimeRange
  summary : String
  artifactRef : Option String
  contentType : String
  byteSize : UInt64
  sensitivity : Sensitivity
  sha256 : String
  deriving DecidableEq, Repr

namespace EvidenceMeta

/-- Fresh metadata of a source. The clock is read once for each time field. -/
def new (source : String) (observed stamped : DateTime) : EvidenceMeta where
  source := source
  query := none
  timestamp := stamped
  durationMs := 0
  truncated := false
  evidenceId := none
  sourceKind := some source
  sourceRef := some source
  queryOrOperation := none
  observedAt := some observed
  timeRange := none
  summary := ""
  artifactRef := none
  contentType := "application/json"
  byteSize := 0
  sensitivity := .internal
  sha256 := ""

def withQuery (evidence : EvidenceMeta) (query : String) : EvidenceMeta :=
  { evidence with query := some query, queryOrOperation := some query }

def withDurationMs (evidence : EvidenceMeta) (durationMs : UInt64) : EvidenceMeta :=
  { evidence with durationMs := durationMs }

def defaultContentType : String := "application/json"

/-- Metadata as the log gives it back: the default content type is not written, and what
is not written is read as the empty text. -/
def reread (evidence : EvidenceMeta) : EvidenceMeta :=
  if evidence.contentType = defaultContentType then { evidence with contentType := "" }
  else evidence

end EvidenceMeta

inductive ClaimKind where
  | observed
  | inferred
  | recommended
  deriving DecidableEq, Repr

inductive Confidence where
  | low
  | medium
  | high
  deriving DecidableEq, Repr

structure Claim where
  claimId : ClaimId
  kind : ClaimKind
  statement : String
  evidenceIds : List EvidenceId
  confidence : Confidence
  deriving DecidableEq, Repr

structure Diagnosis where
  summary : String
  claims : List Claim
  recommendedActions : List String
  limitations : List String
  deriving DecidableEq, Repr

end OpsCodex.Evidence
