import OpsCodex.Sequence.Traversal
import OpsCodex.Tools.Registry

/-! Installing the configured extensions of a workspace into its tool registry, one tool
at a time. -/

set_option autoImplicit false

namespace OpsCodex.Extensions

open OpsCodex.Json OpsCodex.Action OpsCodex.Tools

structure ExtensionConfigEntry where
  id : String
  kind : String
  enabled : Bool
  trustedLocal : Bool
  path : Option String
  command : Option String
  args : List String
  cwd : Option String
  url : Option String
  allowlistHosts : List String
  workspaces : List String
  effect : Option String
  recovery : Option String
  version : Option String
  maxRestarts : Option Nat

structure ExtensionsConfig where
  productionSafe : Bool
  allowCustomTools : Bool

structure CustomToolManifest where
  apiVersion : String
  kind : String
  name : String
  version : String
  command : String
  inputSchema : Value
  outputSchema : Option Value
  effect : String
  recovery : Option String
  timeoutSeconds : Option UInt64
  maxOutputBytes : Option Nat

/-- How the child process of a server is started. -/
structure ServerCommand where
  command : String
  args : List String
  cwd : Option String

structure Url where
  text : String
  scheme : String
  host : Option String
  username : String
  password : Option String

/-- What an install reads from outside: files, child processes and servers. -/
structure Outside where
  codec : Codec
  pathExists : String → Bool
  readBinary : String → Option (List UInt8)
  readManifest : String → Result CustomToolManifest
  parseUrl : String → Except String Url
  spawn : ServerCommand → Nat → Result Unit
  request : ServerCommand → Nat → String → Result Value
  notify : ServerCommand → Nat → String → Result Unit
  call : Url → String → Result Value

structure WorkspaceScope where
  id : String
  maxEffect : Option CapabilityEffect

structure McpListedTool where
  name : String
  description : String
  inputSchema : Value

structure McpInstallSpec where
  serverId : String
  trustedLocal : Bool
  effect : CapabilityEffect
  recovery : RecoveryMode
  version : String
  workspaceMax : Option CapabilityEffect
  origin : String

inductive ExtensionState where
  | healthy
  | disabled
  deriving DecidableEq, Repr

structure ExtensionHealth where
  state : ExtensionState
  detail : Option String
  restartCount : Nat
  deriving DecidableEq, Repr

structure ExtensionSummary where
  id : String
  kind : String
  version : String
  hash : String
  enabled : Bool
  health : ExtensionHealth
  workspaces : List String
  capabilities : List CapabilitySummary
  deriving DecidableEq, Repr

def validatePath (path : String) : Result Unit :=
  if Char.ofNat 0 ∈ path.toList ∨ ['.', '.'] ∈ path.toList.splitOn '/' then
    .error (.policy "extension path cannot contain parent directory segments")
  else .ok ()

section

variable (outside : Outside)

def validateCommand (command : String) : Result Unit := do
  validatePath command
  if command.toList.head? ≠ some '/' then
    .error (.policy "extension command must be an absolute path")
  else if outside.pathExists command then .ok ()
  else .error (.notFound s!"extension command {command}")

def loadCustomManifest (path : String) : Result CustomToolManifest := do
  validatePath path
  let manifest ← outside.readManifest path
  if manifest.apiVersion ≠ "opscodex.dev/v1" ∨ manifest.kind ≠ "Tool" then
    .error (.protocol "custom tool manifest must be apiVersion opscodex.dev/v1 kind Tool")
  else .ok manifest

def parseListedTools (result : Value) : Result (List McpListedTool) :=
  let tools :=
    match result.get? "tools" with
    | some (.array tools) => tools
    | _ => []
  tools.mapM fun tool =>
    match tool.get? "name" >>= Value.asStr? with
    | none => .error (.protocol "MCP tool is missing a name")
    | some name =>
        .ok
          { name := name
            description := (tool.get? "description" >>= Value.asStr?).getD "MCP tool"
            inputSchema := (tool.get? "inputSchema").getD (.object [("type", .string "object")]) }

def mcpDescriptor (spec : McpInstallSpec) (listed : McpListedTool) : CapabilityDescriptor where
  id := capabilityId "mcp" s!"{spec.serverId}/{listed.name}" spec.version
  source := .mcp
  name := s!"mcp/{spec.serverId}/{listed.name}"
  description := listed.description
  inputSchema := listed.inputSchema
  outputSchema := none
  effect := spec.effect
  targetRequirements := []
  timeoutSeconds := 30
  maxOutputBytes := 64 * 1024
  recovery := some spec.recovery
  provenance :=
    { source := .mcp
      version := spec.version
      schemaHash := hashSchema outside.codec listed.inputSchema
      binaryHash := none
      origin := some spec.origin }
  contentSensitivity := .internal
  enabled := true
  trustedLocal := spec.trustedLocal

/-- The tool that runs a capability outside the process. -/
def toolOf (capability : CapabilityDescriptor) : Tool where
  name := capability.name
  description := capability.description
  schema := capability.inputSchema
  risk := if capability.effect = .observe then .safe else .ask
  descriptor := capability

/-- The wrapper of a listed tool, for both kinds of server. -/
def mcpTool (spec : McpInstallSpec) (listed : McpListedTool) : Result Tool := do
  let descriptor := (mcpDescriptor outside spec listed).applyStrictest none none
  enforceWorkspaceCeiling descriptor spec.workspaceMax
  descriptor.validateForEnablement
  .ok (toolOf descriptor)

def customDescriptor (manifest : CustomToolManifest) (trustedLocal : Bool)
    (effect : CapabilityEffect) (recovery : Option RecoveryMode) : CapabilityDescriptor where
  id := capabilityId (CapabilitySource.asStr .custom) manifest.name manifest.version
  source := .custom
  name := s!"custom/{manifest.name}"
  description := s!"Custom tool {manifest.name}@{manifest.version}. Process-local JSON runner."
  inputSchema := manifest.inputSchema
  outputSchema := manifest.outputSchema
  effect := effect
  targetRequirements := []
  timeoutSeconds := max (manifest.timeoutSeconds.getD 10) 1
  maxOutputBytes := max (manifest.maxOutputBytes.getD (64 * 1024)) 1
  recovery := recovery
  provenance :=
    { source := .custom
      version := manifest.version
      schemaHash := hashSchema outside.codec manifest.inputSchema
      binaryHash := some (outside.codec.sha256Hex ((outside.readBinary manifest.command).getD []))
      origin := some manifest.command }
  contentSensitivity := .internal
  enabled := true
  trustedLocal := trustedLocal

def customJsonTool (manifest : CustomToolManifest) (trustedLocal : Bool)
    (effectOverride workspaceMax : Option CapabilityEffect) : Result Tool := do
  validateCommand outside manifest.command
  let effect ← CapabilityEffect.parse manifest.effect
  let recovery ← manifest.recovery.mapM RecoveryMode.parse
  let descriptor :=
    (customDescriptor outside manifest trustedLocal effect recovery).applyStrictest none
      effectOverride
  enforceWorkspaceCeiling descriptor workspaceMax
  descriptor.validateForEnablement
  if trustedLocal then .ok (toolOf descriptor)
  else .error (.policy s!"custom tool `{descriptor.id}` requires trusted_local")

def requiredEffect (entry : ExtensionConfigEntry) : Result CapabilityEffect :=
  match entry.effect with
  | some effect => CapabilityEffect.parse effect
  | none => .error (.policy s!"extension `{entry.id}` requires a local effect override")

def requiredRecovery (entry : ExtensionConfigEntry) : Result RecoveryMode :=
  match entry.recovery with
  | some recovery => RecoveryMode.parse recovery
  | none => .error (.policy s!"extension `{entry.id}` requires local recovery metadata")

def hashOrigin (origin : String) : String := outside.codec.sha256Hex (utf8 origin)

def extensionSummary (entry : ExtensionConfigEntry) (kind version hash workspaceId : String)
    (health : ExtensionHealth) (capabilities : List CapabilitySummary) : ExtensionSummary where
  id := entry.id
  kind := kind
  version := version
  hash := hash
  enabled := decide (health.state ≠ .disabled)
  health := health
  workspaces := if entry.workspaces.isEmpty then [workspaceId] else entry.workspaces
  capabilities := capabilities

def healthy : ExtensionHealth where
  state := .healthy
  detail := none
  restartCount := 0

def disabledSummary (entry : ExtensionConfigEntry) (workspaceId : String)
    (error : OpsCodexError) : ExtensionSummary :=
  extensionSummary entry entry.kind (entry.version.getD "unknown") "unpinned" workspaceId
    { state := .disabled, detail := some error.toString, restartCount := 0 } []

/-- The steps of an install of a custom tool before it is registered. -/
def prepareCustom (config : ExtensionsConfig) (workspace : WorkspaceScope)
    (entry : ExtensionConfigEntry) : Result Tool := do
  if config.productionSafe || !config.allowCustomTools then
    .error (.policy "custom tools are disabled by extensions policy")
  else if !entry.trustedLocal then .error (.policy "custom tools require trusted_local")
  else
    match entry.path with
    | none => .error (.protocol s!"extension `{entry.id}` is missing path")
    | some path =>
        let manifest ← loadCustomManifest outside path
        let effect ← entry.effect.mapM CapabilityEffect.parse
        customJsonTool outside manifest entry.trustedLocal effect workspace.maxEffect

def installCustom (config : ExtensionsConfig) (workspace : WorkspaceScope)
    (tools : ToolRegistry) (entry : ExtensionConfigEntry) :
    Result ExtensionSummary × ToolRegistry :=
  match prepareCustom outside config workspace entry with
  | .error error => (.error error, tools)
  | .ok tool =>
      match tools.register tool with
      | .error error => (.error error, tools)
      | .ok registered =>
          (.ok (extensionSummary entry "custom" tool.descriptor.provenance.version
            tool.descriptor.provenance.schemaHash workspace.id healthy
            [tool.descriptor.summary]), registered)

def protocolVersion (result : Value) (message : String) : Result Unit :=
  match result.get? "protocolVersion" >>= Value.asStr? with
  | some _ => .ok ()
  | none => .error (.protocol message)

/-- One attempt to start a server and to shake hands with it. -/
def spawnStdio (command : ServerCommand) (attempt : Nat) : Result Unit := do
  validateCommand outside command.command
  outside.spawn command attempt
  let init ← outside.request command attempt "initialize"
  protocolVersion init "MCP initialize did not return a protocolVersion"
  outside.notify command attempt "notifications/initialized"

/-- The first attempt that succeeds. -/
def spawnWithin (command : ServerCommand) : List Nat → OpsCodexError → Result Nat
  | [], lastError => .error lastError
  | attempt :: attempts, _ =>
      match spawnStdio outside command attempt with
      | .ok () => .ok attempt
      | .error error => spawnWithin command attempts error

/-- The specification of an install and the tools that its server lists. -/
abbrev Announcement := McpInstallSpec × List McpListedTool

def announceStdio (config : ExtensionsConfig) (workspace : WorkspaceScope)
    (entry : ExtensionConfigEntry) : Result Announcement := do
  if config.productionSafe then .error (.policy "stdio MCP is disabled by production_safe")
  else
    match entry.command with
    | none => .error (.protocol s!"extension `{entry.id}` is missing command")
    | some path =>
        entry.cwd.forM validatePath
        let command : ServerCommand := ⟨path, entry.args, entry.cwd⟩
        let maxRestarts := min (entry.maxRestarts.getD 2) 5
        let attempt ← spawnWithin outside command (List.range (maxRestarts + 1))
          (.tool "MCP stdio server failed")
        let listed ← parseListedTools (← outside.request command attempt "tools/list")
        let effect ← requiredEffect entry
        let recovery ← requiredRecovery entry
        .ok ({ serverId := entry.id
               trustedLocal := entry.trustedLocal
               effect := effect
               recovery := recovery
               version := entry.version.getD "1.0.0"
               workspaceMax := workspace.maxEffect
               origin := s!"mcp-stdio:{entry.id}" }, listed)

def validateMcpHttpUrl (raw : String) (allowlist : List String) : Result Url :=
  match outside.parseUrl raw with
  | .error message => .error (.protocol s!"invalid MCP URL: {message}")
  | .ok url =>
      let host := url.host.getD ""
      let loopback := host = "127.0.0.1" ∨ host = "localhost" ∨ host = "::1"
      if url.scheme ≠ "https" ∧ ¬ loopback then
        .error (.policy "MCP HTTP endpoints must use TLS unless they are loopback")
      else if url.username ≠ "" ∨ url.password.isSome then
        .error (.policy "MCP URL cannot contain credentials")
      else if allowlist.isEmpty then
        .error (.policy "MCP HTTP endpoints require an explicit host allowlist")
      else if allowlist.any fun item =>
          item.toList.map Char.toLower = host.toList.map Char.toLower then .ok url
      else .error (.policy s!"MCP host `{host}` is not in the Workspace allowlist")

def announceHttp (config : ExtensionsConfig) (workspace : WorkspaceScope)
    (entry : ExtensionConfigEntry) : Result (Url × Announcement) := do
  match entry.url with
  | none => .error (.protocol s!"extension `{entry.id}` is missing url")
  | some raw =>
      if config.productionSafe && entry.allowlistHosts.isEmpty then
        .error (.policy "production_safe MCP HTTP requires an allowlist")
      else
        let endpoint ← validateMcpHttpUrl outside raw entry.allowlistHosts
        let init ← outside.call endpoint "initialize"
        protocolVersion init "MCP HTTP initialize did not return a protocolVersion"
        let listed ← parseListedTools (← outside.call endpoint "tools/list")
        let effect ← requiredEffect entry
        let recovery ← requiredRecovery entry
        .ok (endpoint,
          { serverId := entry.id
            trustedLocal := entry.trustedLocal
            effect := effect
            recovery := recovery
            version := entry.version.getD "1.0.0"
            workspaceMax := workspace.maxEffect
            origin := endpoint.text }, listed)

/-- Registers the listed tools in turn; those before a failure stay registered. -/
def registerListed (spec : McpInstallSpec) (tools : ToolRegistry)
    (capabilities : List CapabilitySummary) :
    List McpListedTool → Result (List CapabilitySummary) × ToolRegistry
  | [] => (.ok capabilities, tools)
  | listed :: rest =>
      match mcpTool outside spec listed with
      | .error error => (.error error, tools)
      | .ok wrapped =>
          match tools.register wrapped with
          | .error error => (.error error, tools)
          | .ok registered =>
              registerListed spec registered (capabilities ++ [wrapped.descriptor.summary]) rest

def installMcpStdio (config : ExtensionsConfig) (workspace : WorkspaceScope)
    (tools : ToolRegistry) (entry : ExtensionConfigEntry) :
    Result ExtensionSummary × ToolRegistry :=
  match announceStdio outside config workspace entry with
  | .error error => (.error error, tools)
  | .ok (spec, listed) =>
      let (outcome, registered) := registerListed outside spec tools [] listed
      (outcome.map fun capabilities =>
        extensionSummary entry "mcp" spec.version
          (hashOrigin outside s!"mcp-stdio:{entry.id}") workspace.id healthy capabilities,
        registered)

def installMcpHttp (config : ExtensionsConfig) (workspace : WorkspaceScope)
    (tools : ToolRegistry) (entry : ExtensionConfigEntry) :
    Result ExtensionSummary × ToolRegistry :=
  match announceHttp outside config workspace entry with
  | .error error => (.error error, tools)
  | .ok (endpoint, spec, listed) =>
      let (outcome, registered) := registerListed outside spec tools [] listed
      (outcome.map fun capabilities =>
        extensionSummary entry "mcp_http" spec.version (hashOrigin outside endpoint.text)
          workspace.id healthy capabilities,
        registered)

def installExtension (config : ExtensionsConfig) (workspace : WorkspaceScope)
    (tools : ToolRegistry) (entry : ExtensionConfigEntry) :
    Result ExtensionSummary × ToolRegistry :=
  if entry.kind = "custom" then installCustom outside config workspace tools entry
  else if entry.kind = "mcp" then installMcpStdio outside config workspace tools entry
  else if entry.kind = "mcp_http" then installMcpHttp outside config workspace tools entry
  else (.error (.protocol s!"unsupported extension kind `{entry.kind}`"), tools)

end

def appliesTo (entry : ExtensionConfigEntry) (workspaceId : String) : Bool :=
  entry.workspaces.isEmpty || entry.workspaces.any fun item => item = workspaceId

/-- Installs one configured extension, or reports it as disabled. -/
def installEntry (outside : Outside) (config : ExtensionsConfig) (workspace : WorkspaceScope)
    (tools : ToolRegistry) (entry : ExtensionConfigEntry) :
    List ExtensionSummary × ToolRegistry :=
  if !entry.enabled || !appliesTo entry workspace.id then ([], tools)
  else
    match installExtension outside config workspace tools entry with
    | (.ok summary, installed) => ([summary], installed)
    | (.error error, installed) => ([disabledSummary entry workspace.id error], installed)

/-- Installs the configured extensions in turn, each in what is outside at its time. -/
def installInto (config : ExtensionsConfig) (workspace : WorkspaceScope) :
    List (Outside × ExtensionConfigEntry) → ToolRegistry → List ExtensionSummary × ToolRegistry
  | [], tools => ([], tools)
  | (outside, entry) :: entries, tools =>
      let (reported, installed) := installEntry outside config workspace tools entry
      let (summaries, last) := installInto config workspace entries installed
      (reported ++ summaries, last)

end OpsCodex.Extensions
