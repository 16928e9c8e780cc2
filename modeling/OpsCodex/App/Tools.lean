import OpsCodex.Extensions.Catalog

/-! The tool registry that an application builds for a workspace. -/

set_option autoImplicit false

namespace OpsCodex.App

open OpsCodex.Json OpsCodex.Action OpsCodex.Tools OpsCodex.Extensions

structure KubernetesScope where
  clusterAlias : String
  kubeconfigEnv : String
  context : Option String
  allowedNamespaces : List String
  allowedKinds : List String

structure Workspace where
  id : String
  prometheusUrl : String
  lokiUrl : String
  tempoUrl : String
  kubernetes : Option KubernetesScope
  runbookDir : Option String
  maxEffect : Option CapabilityEffect

structure Config where
  exec : Bool
  extensions : ExtensionsConfig

/-- What the built-in tools read from outside, and the argument schema of each of them. -/
structure Builtins where
  codec : Codec
  schema : String → Value
  parseUrl : String → Except String Url
  kubernetesClient : KubernetesScope → Result Unit
  loadRunbooks : Option String → Result Unit

def Workspace.scope (workspace : Workspace) : WorkspaceScope where
  id := workspace.id
  maxEffect := workspace.maxEffect

section

variable (builtins : Builtins)

def builtinTool (name description : String) (risk : ToolRisk) : Tool where
  name := name
  description := description
  schema := builtins.schema name
  risk := risk
  descriptor := .builtin builtins.codec name description (builtins.schema name) risk

def endpoint (service raw : String) : Result Url :=
  match builtins.parseUrl raw with
  | .error message => .error (.tool s!"invalid {service} URL: {message}")
  | .ok url =>
      if url.scheme ≠ "http" ∧ url.scheme ≠ "https" then
        .error (.tool s!"{service} URL must use http or https")
      else .ok url

def promqlTool (url : String) : Result Tool := do
  let parsed ← endpoint builtins "Prometheus" url
  if parsed.host.isNone then .error (.tool "Prometheus URL must include a host")
  else
    .ok (builtinTool builtins "promql_query"
      "Run an instant PromQL query against the configured Prometheus server" .safe)

def dockerLogsTool : Tool :=
  builtinTool builtins "docker_logs" "Read recent logs from an allowlisted Docker container" .safe

def httpGetTool : Tool :=
  builtinTool builtins "http_get" "Send a read-only GET request to an allowlisted service host"
    .safe

def lokiLogQueryTool (url : String) : Result Tool := do
  let _ ← endpoint builtins "Loki" url
  .ok (builtinTool builtins "log_query" ("Query Loki logs for a bounded time range. Returns " ++
    "stream labels and truncated lines as Evidence.") .safe)

def tempoTraceSearchTool (url : String) : Result Tool := do
  let _ ← endpoint builtins "Tempo" url
  .ok (builtinTool builtins "trace_search" ("Search Tempo traces by service and time range. " ++
    "Returns bounded trace summaries as Evidence.") .safe)

def tempoTraceGetTool (url : String) : Result Tool := do
  let _ ← endpoint builtins "Tempo" url
  .ok (builtinTool builtins "trace_get" ("Fetch a Tempo trace by ID and return a bounded span " ++
    "summary. Full payload is stored as an artifact.") .safe)

def k8sGetTool : Tool :=
  builtinTool builtins "k8s_get" ("Read an allowlisted Kubernetes object summary. Never returns " ++
    "Secret data or write verbs.") .safe

def k8sEventsTool : Tool :=
  builtinTool builtins "k8s_events" ("Read Kubernetes Events for an allowlisted namespace and " ++
    "involved object.") .safe

def k8sLogsTool : Tool :=
  builtinTool builtins "k8s_logs" ("Read bounded logs from an allowlisted Pod. Does not support " ++
    "exec, attach, or follow.") .safe

def runbookSearchTool : Tool :=
  builtinTool builtins "runbook_search" ("Search local Markdown runbooks by service, signal, or " ++
    "text. Results are references, not executable commands.") .safe

def runbookReadTool : Tool :=
  builtinTool builtins "runbook_read" ("Read a local runbook by stable id and version. Commands " ++
    "in the runbook are suggestions only.") .safe

def topologyQueryTool : Tool :=
  builtinTool builtins "topology_query" ("Return the current thread's service topology " ++
    "projection with evidence IDs and TTL. This is not a CMDB.") .safe

def execTool : Tool :=
  builtinTool builtins "exec" "Execute a shell command after explicit user approval" .ask

/-- The tools of a cluster, where its client can be made. -/
def kubernetesTools (workspace : Workspace) : List Tool :=
  match workspace.kubernetes with
  | some scope =>
      match builtins.kubernetesClient scope with
      | .ok () => [k8sGetTool builtins, k8sEventsTool builtins, k8sLogsTool builtins]
      | .error _ => []
  | none => []

def execTools (config : Config) : List Tool :=
  if config.exec && !config.extensions.productionSafe then [execTool builtins] else []

def buildWorkspaceTools (config : Config) (workspace : Workspace) : Result ToolRegistry := do
  let tools ← ToolRegistry.empty.register (← promqlTool builtins workspace.prometheusUrl)
  let tools ← tools.register (dockerLogsTool builtins)
  let tools ← tools.register (httpGetTool builtins)
  let tools ← tools.register (← lokiLogQueryTool builtins workspace.lokiUrl)
  let tools ← tools.register (← tempoTraceSearchTool builtins workspace.tempoUrl)
  let tools ← tools.register (← tempoTraceGetTool builtins workspace.tempoUrl)
  let tools ← (kubernetesTools builtins workspace).foldlM ToolRegistry.register tools
  builtins.loadRunbooks workspace.runbookDir
  let tools ← tools.register (runbookSearchTool builtins)
  let tools ← tools.register (runbookReadTool builtins)
  let tools ← tools.register (topologyQueryTool builtins)
  (execTools builtins config).foldlM ToolRegistry.register tools

/-- The registry of a workspace after the configured extensions are installed. -/
def workspaceTools (config : Config) (workspace : Workspace)
    (entries : List (Outside × ExtensionConfigEntry)) : Result ToolRegistry :=
  (buildWorkspaceTools builtins config workspace).map fun tools =>
    (installInto config.extensions workspace.scope entries tools).2

end

end OpsCodex.App
