import OpsCodex.Evidence

/-! The citations of a diagnosis: what the claims have to cite, and what is left of a
diagnosis whose claims do not. -/

set_option autoImplicit false

namespace OpsCodex.Evidence

open OpsCodex.Runtime

structure CitationError where
  claimId : ClaimId
  message : String

/-- The derived debug text. -/
def ClaimKind.debug : ClaimKind → String
  | .observed => "Observed"
  | .inferred => "Inferred"
  | .recommended => "Recommended"

def knownIds (evidence : List EvidenceMeta) : List EvidenceId :=
  evidence.filterMap EvidenceMeta.evidenceId

def claimErrors (known : List EvidenceId) (claim : Claim) : List CitationError :=
  match claim.kind with
  | .recommended => []
  | .observed | .inferred =>
      if claim.evidenceIds.isEmpty then
        [{ claimId := claim.claimId, message := claim.kind.debug ++ " claim has no evidence ids" }]
      else
        (claim.evidenceIds.filter fun evidenceId =>
          !known.any fun knownId => decide (knownId = evidenceId)).map fun evidenceId =>
            { claimId := claim.claimId, message := s!"unknown evidence id {evidenceId}" }

def validateDiagnosis (diagnosis : Diagnosis) (evidence : List EvidenceMeta) :
    List CitationError :=
  diagnosis.claims.flatMap (claimErrors (knownIds evidence))

/-- Is the claim kept when some claim of the diagnosis is not sourced? -/
def retained (known : List EvidenceId) (claim : Claim) : Bool :=
  match claim.kind with
  | .recommended => true
  | .observed | .inferred =>
      !claim.evidenceIds.isEmpty && claim.evidenceIds.all fun evidenceId =>
        known.any fun knownId => decide (knownId = evidenceId)

def applyCitationLimitations (diagnosis : Diagnosis) (evidence : List EvidenceMeta) :
    Diagnosis :=
  let errors := validateDiagnosis diagnosis evidence
  if errors.isEmpty then diagnosis
  else
    { diagnosis with
      claims := diagnosis.claims.filter (retained (knownIds evidence))
      limitations := diagnosis.limitations ++
        [s!"Evidence is insufficient; abstained from {errors.length} unsourced claim(s)."] }

/-- The claim cites evidence, and only evidence that is there. -/
def Claim.Grounded (evidence : List EvidenceMeta) (claim : Claim) : Prop :=
  claim.evidenceIds ≠ [] ∧
    ∀ evidenceId ∈ claim.evidenceIds, ∃ item ∈ evidence, item.evidenceId = some evidenceId

instance (evidence : List EvidenceMeta) (claim : Claim) : Decidable (claim.Grounded evidence) :=
  inferInstanceAs (Decidable (_ ∧ _))

section

variable {diagnosis : Diagnosis} {evidence : List EvidenceMeta} {claim : Claim}

theorem mem_knownIds {evidenceId : EvidenceId} :
    evidenceId ∈ knownIds evidence ↔ ∃ item ∈ evidence, item.evidenceId = some evidenceId :=
  List.mem_filterMap

theorem retained_iff : retained (knownIds evidence) claim = true ↔
    claim.kind = .recommended ∨ claim.Grounded evidence := by
  unfold retained Claim.Grounded
  cases kind : claim.kind with
  | recommended => simp
  | observed => simp [← mem_knownIds]
  | inferred => simp [← mem_knownIds]

/-- A claim is retained exactly when validation has nothing against it. -/
theorem claimErrors_eq_nil_iff {known : List EvidenceId} :
    claimErrors known claim = [] ↔ retained known claim = true := by
  unfold claimErrors retained
  cases kind : claim.kind with
  | recommended => simp
  | observed => cases cited : claim.evidenceIds <;> simp
  | inferred => cases cited : claim.evidenceIds <;> simp

theorem validateDiagnosis_eq_nil_iff : validateDiagnosis diagnosis evidence = [] ↔
    ∀ claim ∈ diagnosis.claims, retained (knownIds evidence) claim = true := by
  simp only [validateDiagnosis, List.flatMap_eq_nil_iff, claimErrors_eq_nil_iff]

theorem claims_applyCitationLimitations : (applyCitationLimitations diagnosis evidence).claims =
    diagnosis.claims.filter (retained (knownIds evidence)) := by
  unfold applyCitationLimitations
  dsimp only
  split
  · rename_i accepted
    exact (List.filter_eq_self.mpr
      (validateDiagnosis_eq_nil_iff.mp (List.isEmpty_iff.mp accepted))).symm
  · rfl

theorem applyCitationLimitations_eq_self
    (sourced : ∀ claim ∈ diagnosis.claims, retained (knownIds evidence) claim = true) :
    applyCitationLimitations diagnosis evidence = diagnosis := by
  unfold applyCitationLimitations
  exact if_pos (List.isEmpty_iff.mpr (validateDiagnosis_eq_nil_iff.mpr sourced))

/-- What is left of a diagnosis is left alone. -/
theorem applyCitationLimitations_idem :
    applyCitationLimitations (applyCitationLimitations diagnosis evidence) evidence =
      applyCitationLimitations diagnosis evidence := by
  apply applyCitationLimitations_eq_self
  rw [claims_applyCitationLimitations]
  exact fun claim member => (List.mem_filter.mp member).2

/-- The recommendations and the grounded claims are kept, in their order. -/
theorem claims_applyCitationLimitations_eq :
    (applyCitationLimitations diagnosis evidence).claims = diagnosis.claims.filter fun claim =>
      decide (claim.kind = .recommended ∨ claim.Grounded evidence) := by
  rw [claims_applyCitationLimitations]
  refine List.filter_congr fun claim _ => ?_
  rw [Bool.eq_iff_iff, decide_eq_true_eq]
  exact retained_iff

end

end OpsCodex.Evidence
