import OpsCodex.App.Tools
import OpsCodex.Ops.ListenAddr
import OpsCodex.Runtime.Service
import OpsCodex.Sequence.Traversal
import OpsCodex.Store.Jsonl

/-! The configuration: what is checked when it is read, and the workspaces that the
application builds from it. -/

set_option autoImplicit false

namespace OpsCodex.App.Configuration

open OpsCodex.Extensions OpsCodex.Runtime Traversal
open OpsCodex.Strings (trim)

structure ModelConfig where
  model : String
  reasoningEffort : Option String

structure RuntimeSettings where
  maxSteps : Nat
  maxConcurrentTurns : Nat
  toolTimeoutSeconds : Nat
  modelTimeoutSeconds : Nat
  maxOutputBytes : Nat
  contextItems : Nat
  contextMaxTokens : Nat
  contextMaxBytes : Nat
  contextMaxEvidence : Nat
  contextMaxToolCalls : Nat
  inlineArtifactBytes : Nat

structure LokiConfig where
  url : String
  tenantHeader : String
  tenantEnv : String
  maxRangeSeconds : Nat
  maxLines : Nat

structure TempoConfig where
  url : String
  maxRangeSeconds : Nat

structure TargetConfig where
  allowedHosts : List String
  allowedContainers : List String

structure WorkspaceConfigEntry where
  id : String
  displayName : Option String
  environment : Option String
  prometheusUrl : Option String
  lokiUrl : Option String
  lokiTenantEnv : Option String
  tempoUrl : Option String
  allowedHosts : Option (List String)
  allowedContainers : Option (List String)
  kubeconfigEnv : Option String
  kubeContext : Option String
  clusterAlias : Option String
  allowedNamespaces : Option (List String)
  allowedKinds : Option (List String)
  runbookDir : Option String
  maxConcurrentTurns : Option Nat
  maxEffect : Option String
  allowRemediation : Bool

structure StoreConfig where
  backend : String
  approvalTtlSeconds : Nat
  leaseTtlSeconds : Nat

structure RemediationConfig where
  demoFaultUrl : String
  approvalTtlSeconds : Nat

structure Config where
  model : ModelConfig
  runtime : RuntimeSettings
  prometheusUrl : String
  loki : LokiConfig
  tempo : TempoConfig
  targets : TargetConfig
  exec : Bool
  host : String
  workspaces : List WorkspaceConfigEntry
  extensions : ExtensionsConfig
  maxSkillContextBytes : Nat
  extension : List ExtensionConfigEntry
  store : StoreConfig
  remediation : RemediationConfig

def require (holds : Bool) (message : String) : Result Unit :=
  if holds then .ok () else .error (.protocol message)

def trimmed (text : String) : String := String.ofList (trim text.toList)

def isBlank (text : String) : Bool := (trim text.toList).isEmpty

def WorkspaceConfigEntry.workspaceId (entry : WorkspaceConfigEntry) : WorkspaceId :=
  ⟨trimmed entry.id⟩

/-- The limits of the runtime that are checked, by their names. -/
def RuntimeSettings.limits (settings : RuntimeSettings) : List (String × Nat) := [
  ("max_steps", settings.maxSteps),
  ("max_concurrent_turns", settings.maxConcurrentTurns),
  ("tool_timeout_seconds", settings.toolTimeoutSeconds),
  ("model_timeout_seconds", settings.modelTimeoutSeconds),
  ("max_output_bytes", settings.maxOutputBytes),
  ("context_items", settings.contextItems),
  ("context_max_tokens", settings.contextMaxTokens),
  ("context_max_bytes", settings.contextMaxBytes),
  ("context_max_evidence", settings.contextMaxEvidence),
  ("context_max_tool_calls", settings.contextMaxToolCalls),
  ("inline_artifact_bytes", settings.inlineArtifactBytes)]

def validateLimits : List (String × Nat) → Result Unit
  | [] => .ok ()
  | (name, value) :: limits => do
      require (decide (value ≠ 0)) s!"runtime.{name} must be greater than zero"
      validateLimits limits

/-- The ceiling of a workspace, if it has one. -/
def parseMaxEffect : Option String → Result (Option CapabilityEffect)
  | none => .ok none
  | some text => (CapabilityEffect.parse text).map some

/-- The loop over the workspaces, with the identifiers that it has seen. -/
def validateWorkspaces (seen : List WorkspaceId) : List WorkspaceConfigEntry → Result Unit
  | [] => .ok ()
  | entry :: entries => do
      entry.workspaceId.validate
      require (decide (entry.workspaceId ∉ seen)) s!"duplicate workspace id `{entry.id}`"
      require (decide (entry.maxConcurrentTurns ≠ some 0))
        "workspace.max_concurrent_turns must be greater than zero"
      let _ ← parseMaxEffect entry.maxEffect
      validateWorkspaces (entry.workspaceId :: seen) entries

/-- The loop over the extensions, with the identifiers that it has seen. -/
def validateExtensions (seen : List String) : List ExtensionConfigEntry → Result Unit
  | [] => .ok ()
  | entry :: entries => do
      require (!isBlank entry.id) "extension.id must not be empty"
      require (!seen.contains (trimmed entry.id)) s!"duplicate extension id `{entry.id}`"
      require (["custom", "mcp", "mcp_http"].contains entry.kind)
        s!"unsupported extension kind `{entry.kind}`"
      validateExtensions (trimmed entry.id :: seen) entries

/-- The checks of a configuration, over the host that a URL is parsed to. -/
def Config.validate (config : Config) (urlHost : String → Except String (Option String)) :
    Result Unit := do
  validateLimits config.runtime.limits
  require (!isBlank config.model.model) "model.model must not be empty"
  require (config.model.reasoningEffort.all fun effort =>
      ["none", "minimal", "low", "medium", "high", "xhigh"].contains effort)
    "model.reasoning_effort must be one of none, minimal, low, medium, high, or xhigh"
  require (decide (config.loki.maxRangeSeconds ≠ 0 ∧ config.tempo.maxRangeSeconds ≠ 0))
    "loki.max_range_seconds and tempo.max_range_seconds must be greater than zero"
  require (decide (config.loki.maxLines ≠ 0)) "loki.max_lines must be greater than zero"
  require (decide (config.maxSkillContextBytes ≠ 0))
    "extensions.max_skill_context_bytes must be greater than zero"
  require (decide (config.store.approvalTtlSeconds ≠ 0 ∧ config.store.leaseTtlSeconds ≠ 0))
    "store.approval_ttl_seconds and store.lease_ttl_seconds must be greater than zero"
  require (decide (config.remediation.approvalTtlSeconds ≠ 0))
    "remediation.approval_ttl_seconds must be greater than zero"
  let host ← (urlHost config.remediation.demoFaultUrl).mapError fun error =>
    .protocol s!"invalid remediation.demo_fault_url: {error}"
  require (host.any fun host => ["127.0.0.1", "localhost", "::1"].contains host)
    "remediation.demo_fault_url must be a loopback host"
  Ops.validateServerHost config.host
  require (["sqlite", "jsonl"].contains config.store.backend)
    s!"store.backend must be sqlite or jsonl, not `{config.store.backend}`"
  validateWorkspaces [] config.workspaces
  validateExtensions [] config.extension
  require (!(config.extensions.productionSafe && config.exec))
    "extensions.production_safe cannot be combined with tools.exec"

/-! ## The catalog of workspaces -/

structure Workspace where
  id : WorkspaceId
  displayName : String
  environment : String
  prometheusUrl : String
  lokiUrl : String
  lokiTenantHeader : String
  lokiTenantEnv : String
  tempoUrl : String
  allowedHosts : List String
  allowedContainers : List String
  kubernetes : Option KubernetesScope
  runbookDir : Option String
  maxConcurrentTurns : Nat
  maxEffect : Option CapabilityEffect
  allowRemediation : Bool

/-- What the runtime reads of a workspace. -/
def Workspace.settings (workspace : Workspace) : WorkspaceSettings where
  allowRemediation := workspace.allowRemediation
  maxEffect := workspace.maxEffect

def defaultKinds : List String := ["Namespace", "Deployment", "StatefulSet", "DaemonSet", "Pod",
  "Service", "EndpointSlice", "Job", "Node", "Event"]

def kubernetesScope (entry : WorkspaceConfigEntry) : Option KubernetesScope :=
  match entry.kubeconfigEnv with
  | none => none
  | some kubeconfigEnv =>
      if isBlank kubeconfigEnv then none
      else some {
        clusterAlias := entry.clusterAlias.getD entry.id
        kubeconfigEnv := kubeconfigEnv
        context := entry.kubeContext
        allowedNamespaces := entry.allowedNamespaces.getD []
        allowedKinds := entry.allowedKinds.getD defaultKinds }

def workspaceFromEntry (config : Config) (entry : WorkspaceConfigEntry) : Result Workspace := do
  entry.workspaceId.validate
  let maxEffect ← parseMaxEffect entry.maxEffect
  .ok {
    id := entry.workspaceId
    displayName := entry.displayName.getD (trimmed entry.id)
    environment := entry.environment.getD "local"
    prometheusUrl := entry.prometheusUrl.getD config.prometheusUrl
    lokiUrl := entry.lokiUrl.getD config.loki.url
    lokiTenantHeader := config.loki.tenantHeader
    lokiTenantEnv := entry.lokiTenantEnv.getD config.loki.tenantEnv
    tempoUrl := entry.tempoUrl.getD config.tempo.url
    allowedHosts := entry.allowedHosts.getD config.targets.allowedHosts
    allowedContainers := entry.allowedContainers.getD config.targets.allowedContainers
    kubernetes := kubernetesScope entry
    runbookDir := entry.runbookDir
    maxConcurrentTurns :=
      max (entry.maxConcurrentTurns.getD config.runtime.maxConcurrentTurns) 1
    maxEffect := maxEffect
    allowRemediation := entry.allowRemediation }

def legacyEntry : WorkspaceConfigEntry where
  id := "default"
  displayName := some "Local demo"
  environment := some "local"
  prometheusUrl := none
  lokiUrl := none
  lokiTenantEnv := none
  tempoUrl := none
  allowedHosts := none
  allowedContainers := none
  kubeconfigEnv := none
  kubeContext := none
  clusterAlias := none
  allowedNamespaces := none
  allowedKinds := none
  runbookDir := none
  maxConcurrentTurns := none
  maxEffect := none
  allowRemediation := false

def legacyDefault (config : Config) : Result Workspace := workspaceFromEntry config legacyEntry

/-- The workspaces by their identifiers. -/
structure WorkspaceCatalog where
  workspaces : List Workspace
  unique : (workspaces.map Workspace.id).Nodup

namespace WorkspaceCatalog

def empty : WorkspaceCatalog where
  workspaces := []
  unique := List.nodup_nil

def ids (catalog : WorkspaceCatalog) : List WorkspaceId := catalog.workspaces.map Workspace.id

def contains (catalog : WorkspaceCatalog) (id : WorkspaceId) : Bool := decide (id ∈ catalog.ids)

def get (catalog : WorkspaceCatalog) (id : WorkspaceId) : Result Workspace :=
  match catalog.workspaces.find? fun workspace => workspace.id = id with
  | some workspace => .ok workspace
  | none => .error (.notFound s!"workspace {id.asStr}")

theorem nodup_concat {catalog : WorkspaceCatalog} {workspace : Workspace}
    (fresh : workspace.id ∉ catalog.ids) :
    ((catalog.workspaces ++ [workspace]).map Workspace.id).Nodup := by
  rw [List.map_append, List.map_singleton, ← List.concat_eq_append]
  exact catalog.unique.concat fresh

def insert (catalog : WorkspaceCatalog) (workspace : Workspace) : Result WorkspaceCatalog := do
  workspace.id.validate
  if known : workspace.id ∈ catalog.ids then
    .error (.protocol s!"duplicate workspace id `{workspace.id.asStr}`")
  else .ok ⟨catalog.workspaces ++ [workspace], nodup_concat known⟩

def insertAll (config : Config) (catalog : WorkspaceCatalog) :
    List WorkspaceConfigEntry → Result WorkspaceCatalog
  | [] => .ok catalog
  | entry :: entries => do
      let workspace ← workspaceFromEntry config entry
      let larger ← catalog.insert workspace
      insertAll config larger entries

def fromConfig (config : Config) : Result WorkspaceCatalog := do
  if config.workspaces.isEmpty then
    empty.insert (← legacyDefault config)
  else
    let catalog ← insertAll config empty config.workspaces
    if catalog.contains .default then .ok catalog
    else catalog.insert (← legacyDefault config)

end WorkspaceCatalog

/-! ## What a checked configuration builds -/

section Checked

variable {config : Config} {entry : WorkspaceConfigEntry}
  {entries : List WorkspaceConfigEntry} {seen : List WorkspaceId}

theorem require_ok {holds : Bool} {message : String} {done : Unit}
    (passed : require holds message = .ok done) : holds = true := by
  rw [require] at passed
  split at passed
  · assumption
  · cases passed

/-- An entry that gives a workspace. -/
structure WorkspaceConfigEntry.Sound (entry : WorkspaceConfigEntry) : Prop where
  named : entry.workspaceId.validate = .ok ()
  ceiling : ∃ effect, parseMaxEffect entry.maxEffect = .ok effect

theorem validateWorkspaces_ok {done : Unit}
    (valid : validateWorkspaces seen entries = .ok done) :
    (∀ entry ∈ entries, entry.Sound) ∧
      (entries.map WorkspaceConfigEntry.workspaceId).Nodup ∧
      ∀ entry ∈ entries, entry.workspaceId ∉ seen := by
  induction entries generalizing seen with
  | nil =>
      exact ⟨fun _ inside => absurd inside List.not_mem_nil, List.nodup_nil,
        fun _ inside => absurd inside List.not_mem_nil⟩
  | cons entry entries ih =>
      obtain ⟨_, named, unseen⟩ := bind_ok valid
      obtain ⟨_, fresh, counted⟩ := bind_ok unseen
      obtain ⟨_, _, limited⟩ := bind_ok counted
      obtain ⟨effect, ceiling, later⟩ := bind_ok limited
      obtain ⟨sound, distinct, apart⟩ := ih later
      have unknown : entry.workspaceId ∉ seen := of_decide_eq_true (require_ok fresh)
      refine ⟨List.forall_mem_cons.mpr ⟨⟨named, effect, ceiling⟩, sound⟩, ?_,
        List.forall_mem_cons.mpr ⟨unknown, fun other inside known =>
          apart other inside (List.mem_cons_of_mem _ known)⟩⟩
      rw [List.map_cons, List.nodup_cons]
      refine ⟨fun listed => ?_, distinct⟩
      obtain ⟨other, inside, same⟩ := List.mem_map.mp listed
      exact apart other inside (same ▸ List.mem_cons_self)

theorem validate_workspaces {urlHost : String → Except String (Option String)} {done : Unit}
    (valid : config.validate urlHost = .ok done) :
    validateWorkspaces [] config.workspaces = .ok () := by
  unfold Config.validate at valid
  -- the checks before those of the workspaces
  iterate 12 obtain ⟨_, _, valid⟩ := bind_ok valid
  obtain ⟨_, checked, _⟩ := bind_ok valid
  exact checked

end Checked

namespace WorkspaceCatalog

section Built

variable {config : Config} {entry : WorkspaceConfigEntry}
  {entries : List WorkspaceConfigEntry} {catalog next : WorkspaceCatalog}
  {workspace : Workspace}

theorem workspaceFromEntry_ok (built : workspaceFromEntry config entry = .ok workspace) :
    entry.Sound ∧ workspace.id = entry.workspaceId ∧ 1 ≤ workspace.maxConcurrentTurns := by
  obtain ⟨_, named, limited⟩ := bind_ok built
  obtain ⟨effect, ceiling, same⟩ := bind_ok limited
  cases same
  exact ⟨⟨named, effect, ceiling⟩, rfl, Nat.le_max_right _ _⟩

theorem workspaceFromEntry_succeeds (sound : entry.Sound) :
    ∃ workspace, workspaceFromEntry config entry = .ok workspace := by
  obtain ⟨named, effect, ceiling⟩ := sound
  cases made : workspaceFromEntry config entry with
  | ok workspace => exact ⟨workspace, rfl⟩
  | error error =>
      rw [workspaceFromEntry, named, ceiling] at made
      cases made

theorem insert_ok (inserted : catalog.insert workspace = .ok next) :
    next.workspaces = catalog.workspaces ++ [workspace] := by
  obtain ⟨_, _, added⟩ := bind_ok inserted
  split at added
  · cases added
  · cases added
    rfl

theorem insert_succeeds (named : workspace.id.validate = .ok ())
    (fresh : workspace.id ∉ catalog.ids) : ∃ next, catalog.insert workspace = .ok next := by
  refine ⟨⟨_, nodup_concat fresh⟩, ?_⟩
  rw [insert, named]
  exact dif_neg fresh

theorem insertAll_ok (done : insertAll config catalog entries = .ok next) :
    ∃ built, next.workspaces = catalog.workspaces ++ built ∧
      List.Forall₂ (fun entry workspace => workspaceFromEntry config entry = .ok workspace)
        entries built := by
  induction entries generalizing catalog with
  | nil =>
      cases done
      exact ⟨[], (List.append_nil _).symm, .nil⟩
  | cons entry entries ih =>
      obtain ⟨workspace, made, inserts⟩ := bind_ok done
      obtain ⟨larger, inserted, later⟩ := bind_ok inserts
      obtain ⟨built, grown, each⟩ := ih later
      refine ⟨workspace :: built, ?_, .cons made each⟩
      rw [grown, insert_ok inserted, List.append_assoc, List.singleton_append]

theorem insertAll_succeeds (sound : ∀ entry ∈ entries, entry.Sound)
    (distinct : (entries.map WorkspaceConfigEntry.workspaceId).Nodup)
    (apart : ∀ entry ∈ entries, entry.workspaceId ∉ catalog.ids) :
    ∃ next, insertAll config catalog entries = .ok next := by
  induction entries generalizing catalog with
  | nil => exact ⟨catalog, rfl⟩
  | cons entry entries ih =>
      obtain ⟨first, sound⟩ := List.forall_mem_cons.mp sound
      obtain ⟨fresh, apart⟩ := List.forall_mem_cons.mp apart
      obtain ⟨unlisted, distinct⟩ := List.nodup_cons.mp distinct
      obtain ⟨workspace, made⟩ := @workspaceFromEntry_succeeds config entry first
      obtain ⟨_, own, _⟩ := workspaceFromEntry_ok made
      obtain ⟨larger, inserted⟩ := insert_succeeds (own ▸ first.named) (own ▸ fresh)
      have aparts : ∀ other ∈ entries, other.workspaceId ∉ larger.ids := by
        intro other inside known
        rw [ids, insert_ok inserted, List.map_append, List.mem_append] at known
        rcases known with old | new
        · exact apart other inside old
        · rw [List.map_singleton, List.mem_singleton, own] at new
          exact unlisted (new ▸ List.mem_map_of_mem inside)
      obtain ⟨next, done⟩ := ih sound distinct aparts
      refine ⟨next, ?_⟩
      rw [insertAll, made]
      change (catalog.insert workspace >>= fun larger => insertAll config larger entries) = _
      rw [inserted]
      exact done

theorem legacyEntry_sound : legacyEntry.Sound := ⟨by decide +kernel, none, rfl⟩

theorem legacyEntry_workspaceId : legacyEntry.workspaceId = .default := by decide +kernel

theorem legacyDefault_id (made : legacyDefault config = .ok workspace) :
    workspace.id = .default :=
  (workspaceFromEntry_ok made).2.1.trans legacyEntry_workspaceId

/-- What a catalog is built of: the workspaces of the entries, and the default one unless an
entry names it. -/
structure Built (config : Config) (catalog : WorkspaceCatalog) (built rest : List Workspace) :
    Prop where
  whole : catalog.workspaces = built ++ rest
  each : List.Forall₂ (fun entry workspace => workspaceFromEntry config entry = .ok workspace)
    config.workspaces built
  legacy : ∀ workspace ∈ rest, legacyDefault config = .ok workspace
  default : .default ∈ catalog.ids

theorem built_of_insert {built : List Workspace} (whole : catalog.workspaces = built)
    (each : List.Forall₂ (fun entry workspace => workspaceFromEntry config entry = .ok workspace)
      config.workspaces built)
    (made : legacyDefault config = .ok workspace)
    (inserted : catalog.insert workspace = .ok next) : Built config next built [workspace] where
  whole := by rw [insert_ok inserted, whole]
  each := each
  legacy := fun other inside => by rw [List.mem_singleton.mp inside, made]
  default := by
    rw [ids, insert_ok inserted, List.map_append, List.map_singleton, legacyDefault_id made]
    exact List.mem_append_right _ (List.mem_singleton_self _)

/-- The default workspace is added only where no entry names it. -/
theorem Built.unnamed {built rest : List Workspace} (parts : Built config catalog built rest)
    (added : workspace ∈ rest) : ∀ entry ∈ config.workspaces, entry.workspaceId ≠ .default := by
  intro entry inside same
  obtain ⟨other, listed, made⟩ := exists_value parts.each inside
  have unique := catalog.unique
  rw [parts.whole, List.map_append, List.nodup_append] at unique
  have shared : other.id = workspace.id := by
    rw [(workspaceFromEntry_ok made).2.1, same, legacyDefault_id (parts.legacy workspace added)]
  exact unique.2.2 other.id (List.mem_map_of_mem listed) workspace.id
    (List.mem_map_of_mem added) shared

theorem fromConfig_built (done : fromConfig config = .ok catalog) :
    ∃ built rest, Built config catalog built rest := by
  unfold fromConfig at done
  split at done
  · rename_i none
    obtain ⟨workspace, made, inserted⟩ := bind_ok done
    refine ⟨[], [workspace], built_of_insert rfl ?_ made inserted⟩
    rw [List.isEmpty_iff.mp none]
    exact .nil
  · obtain ⟨all, inserts, rest⟩ := bind_ok done
    obtain ⟨built, grown, each⟩ := insertAll_ok inserts
    rw [empty, List.nil_append] at grown
    split at rest
    · rename_i known
      cases rest
      exact ⟨built, [], {
        whole := by rw [grown, List.append_nil]
        each := each
        legacy := nofun
        default := of_decide_eq_true known }⟩
    · obtain ⟨workspace, made, inserted⟩ := bind_ok rest
      exact ⟨built, [workspace], built_of_insert grown each made inserted⟩

theorem fromConfig_succeeds (sound : ∀ entry ∈ config.workspaces, entry.Sound)
    (distinct : (config.workspaces.map WorkspaceConfigEntry.workspaceId).Nodup) :
    ∃ catalog, fromConfig config = .ok catalog := by
  obtain ⟨legacy, made⟩ := @workspaceFromEntry_succeeds config legacyEntry legacyEntry_sound
  have named : legacy.id.validate = .ok () :=
    (workspaceFromEntry_ok made).2.1 ▸ legacyEntry_sound.named
  have inserts {catalog : WorkspaceCatalog} (fresh : .default ∉ catalog.ids) :
      ∃ next, (legacyDefault config >>= catalog.insert) = .ok next := by
    obtain ⟨next, inserted⟩ := insert_succeeds named (legacyDefault_id made ▸ fresh)
    refine ⟨next, ?_⟩
    rw [legacyDefault, made]
    exact inserted
  unfold fromConfig
  split
  · exact inserts List.not_mem_nil
  · obtain ⟨all, done⟩ := @insertAll_succeeds config config.workspaces empty sound distinct
      fun _ _ => List.not_mem_nil
    rw [done]
    change ∃ catalog, (if all.contains .default then _ else _) = _
    split
    · exact ⟨all, rfl⟩
    · rename_i unknown
      exact inserts fun known => unknown (decide_eq_true known)

theorem get_own (inside : workspace ∈ catalog.workspaces) :
    catalog.get workspace.id = .ok workspace := by
  rw [get]
  cases sought : catalog.workspaces.find? fun other => other.id = workspace.id with
  | none =>
      have missing := List.find?_eq_none.mp sought workspace inside
      exact absurd (decide_eq_true rfl) missing
  | some other =>
      have same : other.id = workspace.id := by simpa using List.find?_some sought
      rw [List.inj_on_of_nodup_map catalog.unique (List.mem_of_find?_eq_some sought) inside same]

end Built

/-- A catalog is built exactly when each entry names a workspace of its own whose ceiling can
be read, which the checks of a configuration see to. It has the default workspace, the
workspace of each entry under its identifier, and no more: the default one is added only where
no entry names it. -/
theorem fromConfig_sound (config : Config) :
    ((∃ catalog, fromConfig config = .ok catalog) ↔
      (∀ entry ∈ config.workspaces, entry.Sound) ∧
        (config.workspaces.map WorkspaceConfigEntry.workspaceId).Nodup) ∧
      (∀ urlHost, config.validate urlHost = .ok () →
        ∃ catalog, fromConfig config = .ok catalog) ∧
      ∀ catalog, fromConfig config = .ok catalog →
        .default ∈ catalog.ids ∧
          (∀ workspace ∈ catalog.workspaces,
            (∃ entry ∈ config.workspaces, workspaceFromEntry config entry = .ok workspace) ∨
              (legacyDefault config = .ok workspace ∧
                ∀ entry ∈ config.workspaces, entry.workspaceId ≠ .default)) ∧
          (∀ workspace ∈ catalog.workspaces, workspace.id.validate = .ok () ∧
            1 ≤ workspace.maxConcurrentTurns) ∧
          ∀ entry ∈ config.workspaces, ∃ workspace,
            workspaceFromEntry config entry = .ok workspace ∧
              catalog.get entry.workspaceId = .ok workspace := by
  refine ⟨⟨?_, fun sound => fromConfig_succeeds sound.1 sound.2⟩, ?_, ?_⟩
  · intro ⟨catalog, done⟩
    obtain ⟨built, rest, parts⟩ := fromConfig_built done
    have same : config.workspaces.map WorkspaceConfigEntry.workspaceId =
        built.map Workspace.id :=
      map_eq_of_forall₂ _ _ parts.each fun made => (workspaceFromEntry_ok made).2.1.symm
    constructor
    · intro entry inside
      obtain ⟨workspace, _, made⟩ := exists_value parts.each inside
      exact (workspaceFromEntry_ok made).1
    · have unique := catalog.unique
      rw [parts.whole, List.map_append, List.nodup_append] at unique
      rw [same]
      exact unique.1
  · intro urlHost valid
    obtain ⟨sound, distinct, _⟩ := validateWorkspaces_ok (validate_workspaces valid)
    exact fromConfig_succeeds sound distinct
  · intro catalog done
    obtain ⟨built, rest, parts⟩ := fromConfig_built done
    refine ⟨parts.default, ?_, ?_, ?_⟩
    · intro workspace inside
      rw [parts.whole, List.mem_append] at inside
      rcases inside with early | late
      · exact .inl (exists_item parts.each early)
      · exact .inr ⟨parts.legacy workspace late, parts.unnamed late⟩
    · intro workspace inside
      rw [parts.whole, List.mem_append] at inside
      rcases inside with early | late
      · obtain ⟨entry, _, made⟩ := exists_item parts.each early
        obtain ⟨sound, own, many⟩ := workspaceFromEntry_ok made
        exact ⟨own ▸ sound.named, many⟩
      · obtain ⟨sound, own, many⟩ := workspaceFromEntry_ok (parts.legacy workspace late)
        exact ⟨own ▸ sound.named, many⟩
    · intro entry inside
      obtain ⟨workspace, listed, made⟩ := exists_value parts.each inside
      refine ⟨workspace, made, ?_⟩
      rw [← (workspaceFromEntry_ok made).2.1]
      exact get_own (parts.whole ▸ List.mem_append_left rest listed)

/-- What the runtime looks up of a workspace is what the catalog has of it. -/
theorem require_settings (catalog : WorkspaceCatalog) (process : Catalog)
    (given : process.workspaces =
      catalog.workspaces.map fun workspace => (workspace.id, workspace.settings))
    (id : WorkspaceId) :
    process.require id = (catalog.get id).map Workspace.settings := by
  have found (workspaces : List Workspace) :
      (workspaces.map fun workspace => (workspace.id, workspace.settings)).lookup id =
        (workspaces.find? fun workspace => workspace.id = id).map Workspace.settings := by
    induction workspaces with
    | nil => rfl
    | cons workspace workspaces ih =>
        rw [List.map_cons, List.lookup_cons, List.find?_cons]
        by_cases same : workspace.id = id
        · rw [same, beq_self_eq_true, decide_eq_true rfl]
          rfl
        · rw [beq_false_of_ne (Ne.symm same), decide_eq_false same]
          exact ih
  rw [Catalog.require, given, found, get]
  cases catalog.workspaces.find? fun workspace => workspace.id = id <;> rfl

end WorkspaceCatalog

end OpsCodex.App.Configuration
