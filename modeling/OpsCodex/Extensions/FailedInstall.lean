import OpsCodex.Extensions.Catalog

/-! What a failed install of an extension leaves in the tool registry. -/

set_option autoImplicit false

namespace OpsCodex.Extensions

open OpsCodex.Json OpsCodex.Action OpsCodex.Tools

section

variable {outside : Outside} {config : ExtensionsConfig} {workspace : WorkspaceScope}
  {entry : ExtensionConfigEntry} {spec : McpInstallSpec} {tools registered : ToolRegistry}
  {capabilities : List CapabilitySummary} {listed : List McpListedTool} {error : OpsCodexError}

/-- The server of the entry is reached and lists the tools. -/
def Announces (outside : Outside) (config : ExtensionsConfig) (workspace : WorkspaceScope)
    (entry : ExtensionConfigEntry) (spec : McpInstallSpec) (listed : List McpListedTool) : Prop :=
  (entry.kind = "mcp" ∧ announceStdio outside config workspace entry = .ok (spec, listed)) ∨
    (entry.kind = "mcp_http" ∧
      ∃ endpoint, announceHttp outside config workspace entry = .ok (endpoint, spec, listed))

/-- The first of the listed tools passes every check of its own and of the registry. -/
def TakesFirst (outside : Outside) (spec : McpInstallSpec) (tools : ToolRegistry)
    (listed : List McpListedTool) : Prop :=
  ∃ first rest wrapped registered, listed = first :: rest ∧
    mcpTool outside spec first = .ok wrapped ∧ tools.register wrapped = .ok registered

theorem registerListed_extends :
    tools.Extends (registerListed outside spec tools capabilities listed).2 := by
  induction listed generalizing tools capabilities with
  | nil => exact List.suffix_rfl
  | cons first rest ih =>
      unfold registerListed
      split
      · exact List.suffix_rfl
      · split
        · exact List.suffix_rfl
        · rename_i grown taken
          exact (ToolRegistry.extends_of_register taken).trans ih

/-- A failed registration leaves the registry alone unless the first tool was taken. -/
theorem registerListed_unchanged_iff
    (failed : (registerListed outside spec tools capabilities listed).1 = .error error) :
    (registerListed outside spec tools capabilities listed).2 = tools ↔
      ¬ TakesFirst outside spec tools listed := by
  cases listed with
  | nil => cases failed
  | cons first rest =>
      cases made : mcpTool outside spec first with
      | error refused =>
          have unchanged :
              (registerListed outside spec tools capabilities (first :: rest)).2 = tools := by
            simp only [registerListed, made]
          refine iff_of_true unchanged ?_
          rintro ⟨_, _, wrapped, _, same, wraps, _⟩
          cases same
          rw [made] at wraps
          cases wraps
      | ok wrapped =>
          cases taken : tools.register wrapped with
          | error refused =>
              have unchanged :
                  (registerListed outside spec tools capabilities (first :: rest)).2 = tools := by
                simp only [registerListed, made, taken]
              refine iff_of_true unchanged ?_
              rintro ⟨_, _, other, _, same, wraps, takes⟩
              cases same
              rw [made] at wraps
              cases wraps
              rw [taken] at takes
              cases takes
          | ok grown =>
              have kept :
                  (registerListed outside spec tools capabilities (first :: rest)).2 ≠ tools := by
                simp only [registerListed, made, taken]
                exact ToolRegistry.ne_of_register taken registerListed_extends
              exact iff_of_false kept
                (not_not_intro ⟨first, rest, wrapped, grown, rfl, made, taken⟩)

/-- Nothing is announced, or one list is. -/
theorem announces_unique {spec' : McpInstallSpec} {listed' : List McpListedTool}
    (announces : Announces outside config workspace entry spec listed)
    (announces' : Announces outside config workspace entry spec' listed') :
    spec = spec' ∧ listed = listed' := by
  obtain ⟨kind, lists⟩ | ⟨kind, endpoint, lists⟩ := announces
  · obtain ⟨-, lists'⟩ | ⟨kind', -⟩ := announces'
    · rw [lists] at lists'
      cases lists'
      exact ⟨rfl, rfl⟩
    · rw [kind] at kind'
      exact absurd kind' (by decide)
  · obtain ⟨kind', -⟩ | ⟨-, endpoint', lists'⟩ := announces'
    · rw [kind] at kind'
      exact absurd kind' (by decide)
    · rw [lists] at lists'
      cases lists'
      exact ⟨rfl, rfl⟩

theorem installCustom_failed
    (failed : (installCustom outside config workspace tools entry).1 = .error error) :
    (installCustom outside config workspace tools entry).2 = tools := by
  unfold installCustom at failed ⊢
  cases prepared : prepareCustom outside config workspace entry with
  | error _ => rfl
  | ok tool =>
      simp only [prepared] at failed ⊢
      cases taken : tools.register tool with
      | error _ => rfl
      | ok registered =>
          simp only [taken] at failed
          cases failed

/-- An install that fails without a list of tools leaves the registry alone; one that has
a list registers its tools in turn. -/
theorem installExtension_cases (outside : Outside) (config : ExtensionsConfig)
    (workspace : WorkspaceScope) (entry : ExtensionConfigEntry) (tools : ToolRegistry) :
    ((∀ spec listed, ¬ Announces outside config workspace entry spec listed) ∧
        ∀ error, (installExtension outside config workspace tools entry).1 = .error error →
          (installExtension outside config workspace tools entry).2 = tools) ∨
      ∃ spec listed summary, Announces outside config workspace entry spec listed ∧
        installExtension outside config workspace tools entry =
          ((registerListed outside spec tools [] listed).1.map summary,
            (registerListed outside spec tools [] listed).2) := by
  unfold installExtension
  by_cases custom : entry.kind = "custom"
  · refine .inl ⟨?_, ?_⟩
    · rintro spec listed (⟨kind, -⟩ | ⟨kind, -⟩)
      · rw [custom] at kind
        exact absurd kind (by decide)
      · rw [custom] at kind
        exact absurd kind (by decide)
    · intro error failed
      rw [if_pos custom] at failed ⊢
      exact installCustom_failed failed
  rw [if_neg custom]
  by_cases stdio : entry.kind = "mcp"
  · rw [if_pos stdio]
    cases lists : announceStdio outside config workspace entry with
    | error refused =>
        refine .inl ⟨?_, fun _ _ => by simp only [installMcpStdio, lists]⟩
        rintro spec listed (⟨-, announces⟩ | ⟨kind, -⟩)
        · rw [lists] at announces
          cases announces
        · rw [stdio] at kind
          exact absurd kind (by decide)
    | ok announcement =>
        obtain ⟨spec, listed⟩ := announcement
        refine .inr ⟨spec, listed, extensionSummary entry "mcp" spec.version
          (hashOrigin outside s!"mcp-stdio:{entry.id}") workspace.id healthy,
          .inl ⟨stdio, lists⟩, ?_⟩
        simp only [installMcpStdio, lists]
  rw [if_neg stdio]
  by_cases http : entry.kind = "mcp_http"
  · rw [if_pos http]
    cases lists : announceHttp outside config workspace entry with
    | error refused =>
        refine .inl ⟨?_, fun _ _ => by simp only [installMcpHttp, lists]⟩
        rintro spec listed (⟨kind, -⟩ | ⟨-, endpoint, announces⟩)
        · exact absurd kind stdio
        · rw [lists] at announces
          cases announces
    | ok announcement =>
        obtain ⟨endpoint, spec, listed⟩ := announcement
        refine .inr ⟨spec, listed, extensionSummary entry "mcp_http" spec.version
          (hashOrigin outside endpoint.text) workspace.id healthy,
          .inr ⟨http, endpoint, lists⟩, ?_⟩
        simp only [installMcpHttp, lists]
  · rw [if_neg http]
    refine .inl ⟨?_, fun _ _ => rfl⟩
    rintro spec listed (⟨kind, -⟩ | ⟨kind, -⟩)
    · exact stdio kind
    · exact http kind

end

/-- An install that fails leaves the registry as it found it exactly when it has no list
of tools of which the first one is taken. -/
theorem installExtension_unchanged_iff (config : ExtensionsConfig) (workspace : WorkspaceScope)
    (before : List (Outside × ExtensionConfigEntry)) (tools : ToolRegistry) (outside : Outside)
    (entry : ExtensionConfigEntry) (error : OpsCodexError)
    (failed : (installExtension outside config workspace
      (installInto config workspace before tools).2 entry).1 = .error error) :
    (installExtension outside config workspace (installInto config workspace before tools).2
        entry).2 = (installInto config workspace before tools).2 ↔
      ∀ spec listed, Announces outside config workspace entry spec listed →
        ¬ TakesFirst outside spec (installInto config workspace before tools).2 listed := by
  obtain ⟨silent, unchanged⟩ | ⟨spec, listed, summary, announces, installs⟩ :=
    installExtension_cases outside config workspace entry
      (installInto config workspace before tools).2
  · exact iff_of_true (unchanged error failed)
      fun spec listed announces => absurd announces (silent spec listed)
  · rw [installs] at failed ⊢
    have stopped : ∃ stop, (registerListed outside spec
        (installInto config workspace before tools).2 [] listed).1 = .error stop := by
      cases outcome : (registerListed outside spec
          (installInto config workspace before tools).2 [] listed).1 with
      | error stop => exact ⟨stop, rfl⟩
      | ok capabilities =>
          simp only [outcome] at failed
          cases failed
    obtain ⟨stop, stopped⟩ := stopped
    rw [registerListed_unchanged_iff stopped]
    constructor
    · intro refused spec' listed' announces'
      obtain ⟨rfl, rfl⟩ := announces_unique announces announces'
      exact refused
    · intro refused
      exact refused spec listed announces

namespace Demo

/-- The text of the default schema, and its digest. -/
def codec : Codec where
  sha256Hex _ := "a2c799262a3ce3c19ef5cdd983bf3d12b43ab3c426227091b909dcb7054738c0"
  toVec _ := utf8 "\x7b\"type\":\"object\"\x7d"
  toRfc3339 _ := ""

/-- A server that lists one name twice. -/
def outside : Outside where
  codec := codec
  pathExists _ := true
  readBinary _ := none
  readManifest _ := .error (.storage "failed to read")
  parseUrl _ := .error "relative URL without a base"
  spawn _ _ := .ok ()
  request _ _ method :=
    if method = "tools/list" then
      .ok (.object [("tools",
        .array [.object [("name", .string "get")], .object [("name", .string "get")]])])
    else .ok (.object [("protocolVersion", .string "2024-11-05")])
  notify _ _ _ := .ok ()
  call _ _ := .error (.tool "MCP HTTP failed")

def config : ExtensionsConfig where
  productionSafe := false
  allowCustomTools := false

def workspace : WorkspaceScope where
  id := "default"
  maxEffect := none

def entry : ExtensionConfigEntry where
  id := "twice"
  kind := "mcp"
  enabled := true
  trustedLocal := true
  path := none
  command := some "/usr/bin/server"
  args := []
  cwd := none
  url := none
  allowlistHosts := []
  workspaces := []
  effect := some "observe"
  recovery := some "none_needed"
  version := none
  maxRestarts := none

end Demo

/-- An install whose first tool is registered already leaves the registry with that tool. -/
theorem installExtension_unchanged_iff_registered :
    let tools := (installInto Demo.config Demo.workspace [(Demo.outside, Demo.entry)] .empty).2
    tools.tools.map Prod.fst = ["mcp/twice/get"] ∧
      ((installExtension Demo.outside Demo.config Demo.workspace tools Demo.entry).2 = tools ↔
        ∀ spec listed, Announces Demo.outside Demo.config Demo.workspace Demo.entry spec listed →
          ¬ TakesFirst Demo.outside spec tools listed) :=
  ⟨by decide +kernel, installExtension_unchanged_iff Demo.config Demo.workspace
    [(Demo.outside, Demo.entry)] .empty Demo.outside Demo.entry
    (.tool "tool `mcp/twice/get` is already registered") (by decide +kernel)⟩

/-- The first of two tools of one name stays callable although the install fails. -/
theorem not_installExtension_unchanged :
    (installExtension Demo.outside Demo.config Demo.workspace .empty Demo.entry).1 =
        .error (.tool "tool `mcp/twice/get` is already registered") ∧
      ((installExtension Demo.outside Demo.config Demo.workspace .empty Demo.entry).2.tools.map
        fun entry => entry.1) = ["mcp/twice/get"] ∧
      ToolRegistry.empty.tools = [] := by
  refine ⟨?_, ?_, rfl⟩ <;> decide +kernel

end OpsCodex.Extensions
