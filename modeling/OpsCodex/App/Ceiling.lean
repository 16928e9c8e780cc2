import OpsCodex.App.Tools
import OpsCodex.Extensions.FailedInstall

/-! The effect ceiling of a workspace over every tool that its registry takes in. -/

set_option autoImplicit false

namespace OpsCodex.Extensions

open OpsCodex.Action OpsCodex.Tools

variable {outside : Outside} {config : ExtensionsConfig} {workspace : WorkspaceScope}
  {entry : ExtensionConfigEntry} {spec : McpInstallSpec} {tools registered : ToolRegistry}
  {capabilities : List CapabilitySummary} {listed : List McpListedTool}
  {ceiling : CapabilityEffect} {tool : Tool}

/-- The effect of a tool is at most the ceiling. -/
def Within (ceiling : CapabilityEffect) (tool : Tool) : Prop :=
  tool.descriptor.effect.rank ≤ ceiling.rank

theorem within_mcpTool {first : McpListedTool} (bound : spec.workspaceMax = some ceiling)
    (made : mcpTool outside spec first = .ok tool) : Within ceiling tool := by
  unfold mcpTool at made
  obtain ⟨⟨⟩, enforced, made⟩ := Traversal.bind_ok made
  obtain ⟨-, -, made⟩ := Traversal.bind_ok made
  cases made
  rw [bound] at enforced
  exact rank_le_of_enforced enforced

theorem within_customJsonTool {manifest : CustomToolManifest} {trustedLocal : Bool}
    {effectOverride : Option CapabilityEffect}
    (made : customJsonTool outside manifest trustedLocal effectOverride (some ceiling) =
      .ok tool) : Within ceiling tool := by
  unfold customJsonTool at made
  obtain ⟨-, -, made⟩ := Traversal.bind_ok made
  obtain ⟨effect, -, made⟩ := Traversal.bind_ok made
  obtain ⟨recovery, -, made⟩ := Traversal.bind_ok made
  obtain ⟨⟨⟩, enforced, made⟩ := Traversal.bind_ok made
  obtain ⟨-, -, made⟩ := Traversal.bind_ok made
  split at made
  · cases made
    exact rank_le_of_enforced enforced
  · cases made

theorem within_prepareCustom (bound : workspace.maxEffect = some ceiling)
    (made : prepareCustom outside config workspace entry = .ok tool) : Within ceiling tool := by
  unfold prepareCustom at made
  split at made
  · cases made
  · split at made
    · cases made
    · split at made
      · cases made
      · obtain ⟨manifest, -, made⟩ := Traversal.bind_ok made
        obtain ⟨effect, -, made⟩ := Traversal.bind_ok made
        rw [bound] at made
        exact within_customJsonTool made

theorem announceStdio_workspaceMax
    (announced : announceStdio outside config workspace entry = .ok (spec, listed)) :
    spec.workspaceMax = workspace.maxEffect := by
  unfold announceStdio at announced
  split at announced
  · cases announced
  · split at announced
    · cases announced
    · obtain ⟨-, -, announced⟩ := Traversal.bind_ok announced
      obtain ⟨attempt, -, announced⟩ := Traversal.bind_ok announced
      obtain ⟨answer, -, announced⟩ := Traversal.bind_ok announced
      obtain ⟨offered, -, announced⟩ := Traversal.bind_ok announced
      obtain ⟨effect, -, announced⟩ := Traversal.bind_ok announced
      obtain ⟨recovery, -, announced⟩ := Traversal.bind_ok announced
      cases announced
      rfl

theorem announceHttp_workspaceMax {endpoint : Url}
    (announced : announceHttp outside config workspace entry = .ok (endpoint, spec, listed)) :
    spec.workspaceMax = workspace.maxEffect := by
  unfold announceHttp at announced
  split at announced
  · cases announced
  · split at announced
    · cases announced
    · obtain ⟨url, -, announced⟩ := Traversal.bind_ok announced
      obtain ⟨init, -, announced⟩ := Traversal.bind_ok announced
      obtain ⟨-, -, announced⟩ := Traversal.bind_ok announced
      obtain ⟨answer, -, announced⟩ := Traversal.bind_ok announced
      obtain ⟨offered, -, announced⟩ := Traversal.bind_ok announced
      obtain ⟨effect, -, announced⟩ := Traversal.bind_ok announced
      obtain ⟨recovery, -, announced⟩ := Traversal.bind_ok announced
      cases announced
      rfl

theorem all_registerListed (bound : spec.workspaceMax = some ceiling)
    (all : tools.All (Within ceiling)) :
    (registerListed outside spec tools capabilities listed).2.All (Within ceiling) := by
  induction listed generalizing tools capabilities with
  | nil => exact all
  | cons first rest ih =>
      unfold registerListed
      split
      · exact all
      · rename_i wrapped made
        split
        · exact all
        · rename_i grown taken
          exact ih (all.register (within_mcpTool bound made) taken)

/-- Every kind of install keeps the registry within the ceiling. -/
theorem all_installExtension (bound : workspace.maxEffect = some ceiling)
    (all : tools.All (Within ceiling)) :
    (installExtension outside config workspace tools entry).2.All (Within ceiling) := by
  unfold installExtension
  split
  · unfold installCustom
    split
    · exact all
    · rename_i tool made
      split
      · exact all
      · rename_i grown taken
        exact all.register (within_prepareCustom bound made) taken
  · split
    · unfold installMcpStdio
      split
      · exact all
      · rename_i announced
        exact all_registerListed ((announceStdio_workspaceMax announced).trans bound) all
    · split
      · unfold installMcpHttp
        split
        · exact all
        · rename_i announced
          exact all_registerListed ((announceHttp_workspaceMax announced).trans bound) all
      · exact all

theorem installEntry_registry (outside : Outside) (config : ExtensionsConfig)
    (workspace : WorkspaceScope) (tools : ToolRegistry) (entry : ExtensionConfigEntry) :
    (installEntry outside config workspace tools entry).2 = tools ∨
      (installEntry outside config workspace tools entry).2 =
        (installExtension outside config workspace tools entry).2 := by
  unfold installEntry
  split
  · exact .inl rfl
  · cases installs : installExtension outside config workspace tools entry with
    | mk outcome installed =>
        cases outcome with
        | error _ => exact .inr rfl
        | ok _ => exact .inr rfl

theorem extends_installExtension :
    tools.Extends (installExtension outside config workspace tools entry).2 := by
  unfold installExtension
  split
  · unfold installCustom
    split
    · exact List.suffix_rfl
    · split
      · exact List.suffix_rfl
      · rename_i taken
        exact ToolRegistry.extends_of_register taken
  · split
    · unfold installMcpStdio
      split
      · exact List.suffix_rfl
      · exact registerListed_extends
    · split
      · unfold installMcpHttp
        split
        · exact List.suffix_rfl
        · exact registerListed_extends
      · exact List.suffix_rfl

/-- A property that every install keeps, and that holds before, holds after all of them. -/
theorem installInto_induction {motive : ToolRegistry → Prop} (config : ExtensionsConfig)
    (workspace : WorkspaceScope)
    (step : ∀ outside tools entry, motive tools →
      motive (installExtension outside config workspace tools entry).2)
    (entries : List (Outside × ExtensionConfigEntry)) (start : motive tools) :
    motive (installInto config workspace entries tools).2 := by
  induction entries generalizing tools with
  | nil => exact start
  | cons first entries ih =>
      obtain ⟨outside, entry⟩ := first
      have next : motive (installEntry outside config workspace tools entry).2 := by
        obtain same | installed := installEntry_registry outside config workspace tools entry
        · rw [same]
          exact start
        · rw [installed]
          exact step outside tools entry start
      exact ih next

end OpsCodex.Extensions

namespace OpsCodex.App

open OpsCodex.Action OpsCodex.Tools OpsCodex.Extensions

section

variable {builtins : Builtins} {config : Config} {workspace : Workspace}
  {ceiling : CapabilityEffect} {tools after : ToolRegistry}

theorem within_safe {name description : String} :
    Within ceiling (builtinTool builtins name description .safe) :=
  Nat.zero_le _

theorem within_promqlTool {url : String} {tool : Tool}
    (made : promqlTool builtins url = .ok tool) : Within ceiling tool := by
  unfold promqlTool at made
  obtain ⟨parsed, -, made⟩ := Traversal.bind_ok made
  split at made
  · cases made
  · cases made
    exact within_safe

/-- A tool that only needs its endpoint to be well formed. -/
theorem within_endpoint {service url name description : String} {tool : Tool}
    (made : (endpoint builtins service url >>= fun _ =>
      Except.ok (builtinTool builtins name description .safe)) = .ok tool) :
    Within ceiling tool := by
  obtain ⟨parsed, -, made⟩ := Traversal.bind_ok made
  cases made
  exact within_safe

theorem all_foldlM {news : List Tool} (all : tools.All (Within ceiling))
    (within : ∀ tool ∈ news, Within ceiling tool)
    (registered : news.foldlM ToolRegistry.register tools = .ok after) :
    after.All (Within ceiling) := by
  induction news generalizing tools with
  | nil =>
      cases registered
      exact all
  | cons first news ih =>
      obtain ⟨grown, taken, registered⟩ := Traversal.bind_ok registered
      exact ih (all.register (within first List.mem_cons_self) taken)
        (fun tool member => within tool (List.mem_cons_of_mem _ member)) registered

theorem within_kubernetesTools :
    ∀ tool ∈ kubernetesTools builtins workspace, Within ceiling tool := by
  unfold kubernetesTools
  split
  · split
    · intro tool member
      simp only [List.mem_cons, List.not_mem_nil, or_false] at member
      obtain rfl | rfl | rfl := member
      · exact within_safe
      · exact within_safe
      · exact within_safe
    · exact fun _ member => absurd member List.not_mem_nil
  · exact fun _ member => absurd member List.not_mem_nil

/-- The built-in tools but the last are within every ceiling. -/
theorem buildWorkspaceTools_cases (ceiling : CapabilityEffect)
    (built : buildWorkspaceTools builtins config workspace = .ok tools) :
    ∃ before : ToolRegistry, before.All (Within ceiling) ∧
      (execTools builtins config).foldlM ToolRegistry.register before = .ok tools := by
  have none : ToolRegistry.empty.All (Within ceiling) :=
    fun _ member => absurd member List.not_mem_nil
  unfold buildWorkspaceTools at built
  obtain ⟨promql, made, built⟩ := Traversal.bind_ok built
  obtain ⟨_, taken, built⟩ := Traversal.bind_ok built
  have all := none.register (within_promqlTool made) taken
  obtain ⟨_, taken, built⟩ := Traversal.bind_ok built
  replace all := all.register within_safe taken
  obtain ⟨_, taken, built⟩ := Traversal.bind_ok built
  replace all := all.register within_safe taken
  obtain ⟨loki, made, built⟩ := Traversal.bind_ok built
  obtain ⟨_, taken, built⟩ := Traversal.bind_ok built
  replace all := all.register (within_endpoint made) taken
  obtain ⟨search, made, built⟩ := Traversal.bind_ok built
  obtain ⟨_, taken, built⟩ := Traversal.bind_ok built
  replace all := all.register (within_endpoint made) taken
  obtain ⟨get, made, built⟩ := Traversal.bind_ok built
  obtain ⟨_, taken, built⟩ := Traversal.bind_ok built
  replace all := all.register (within_endpoint made) taken
  obtain ⟨_, taken, built⟩ := Traversal.bind_ok built
  replace all := all_foldlM all within_kubernetesTools taken
  obtain ⟨_, -, built⟩ := Traversal.bind_ok built
  obtain ⟨_, taken, built⟩ := Traversal.bind_ok built
  replace all := all.register within_safe taken
  obtain ⟨_, taken, built⟩ := Traversal.bind_ok built
  replace all := all.register within_safe taken
  obtain ⟨last, taken, built⟩ := Traversal.bind_ok built
  exact ⟨last, all.register within_safe taken, built⟩

theorem execTools_eq_nil
    (closed : config.exec = false ∨ config.extensions.productionSafe = true) :
    execTools builtins config = [] := by
  obtain off | productionSafe := closed
  · simp only [execTools, off, Bool.false_and, Bool.false_eq_true, if_false]
  · simp only [execTools, productionSafe, Bool.not_true, Bool.and_false, Bool.false_eq_true,
      if_false]

theorem all_externalSideEffect : tools.All (Within .externalSideEffect) :=
  fun entry _ => entry.2.descriptor.effect.rank_le_externalSideEffect

/-- Without the shell, every tool of the registry is within the ceiling. -/
theorem all_workspaceTools {entries : List (Outside × ExtensionConfigEntry)}
    (bound : workspace.maxEffect = some ceiling)
    (closed : config.exec = false ∨ config.extensions.productionSafe = true ∨
      ceiling = .externalSideEffect)
    (built : workspaceTools builtins config workspace entries = .ok tools) :
    tools.All (Within ceiling) := by
  unfold workspaceTools at built
  cases base : buildWorkspaceTools builtins config workspace with
  | error error =>
      rw [base] at built
      cases built
  | ok registry =>
      rw [base] at built
      cases built
      refine installInto_induction _ _ (fun _ _ _ all => all_installExtension bound all)
        entries ?_
      obtain ⟨before, all, last⟩ := buildWorkspaceTools_cases ceiling base
      rw [← or_assoc] at closed
      obtain closed | rfl := closed
      · rw [execTools_eq_nil closed] at last
        cases last
        exact all
      · exact all_externalSideEffect

/-- With the shell enabled, it is in the registry of every workspace. -/
theorem execTool_mem_workspaceTools {entries : List (Outside × ExtensionConfigEntry)}
    (exec : config.exec = true) (lax : config.extensions.productionSafe = false)
    (built : workspaceTools builtins config workspace entries = .ok tools) :
    ∃ name, (name, execTool builtins) ∈ tools.tools := by
  unfold workspaceTools at built
  cases base : buildWorkspaceTools builtins config workspace with
  | error error =>
      rw [base] at built
      cases built
  | ok registry =>
      rw [base] at built
      cases built
      obtain ⟨before, -, last⟩ := buildWorkspaceTools_cases .observe base
      have shell : execTools builtins config = [execTool builtins] := by
        simp only [execTools, exec, lax, Bool.not_false, Bool.and_self, if_true]
      rw [shell] at last
      obtain ⟨grown, taken, last⟩ := Traversal.bind_ok last
      cases last
      refine installInto_induction (motive := fun tools =>
        ∃ name, (name, execTool builtins) ∈ tools.tools) _ _ ?_ entries ?_
      · rintro outside tools entry ⟨name, member⟩
        exact ⟨name, extends_installExtension.subset member⟩
      · refine ⟨(execTool builtins).name, ?_⟩
        rw [ToolRegistry.register_tools taken]
        exact List.mem_cons_self

/-- An action that the policy does not deny is within the ceiling of its workspace. -/
theorem rank_le_of_evaluateAction {input : ActionPolicyInput}
    (bound : input.maxEffect = some ceiling) (accepted : evaluateAction input ≠ .deny) :
    input.effect.rank ≤ ceiling.rank := by
  unfold evaluateAction at accepted
  split at accepted
  · exact absurd rfl accepted
  · split at accepted
    · exact absurd rfl accepted
    · split at accepted
      · exact absurd rfl accepted
      · rename_i above
        rw [bound, Option.some.injEq, not_and_not_right] at above
        cases effect : input.effect with
        | observe => exact Nat.zero_le _
        | changeReversible =>
            cases ceiling with
            | observe => exact absurd (above rfl) (by rw [effect]; decide)
            | changeReversible => decide
            | changeIrreversible => decide
            | externalSideEffect => decide
        | changeIrreversible =>
            rw [effect] at accepted
            exact absurd rfl accepted
        | externalSideEffect =>
            rw [effect] at accepted
            exact absurd rfl accepted

end

/-- No tool of a workspace and no action that its policy accepts is above its ceiling,
exactly when the shell is not enabled or nothing is above the ceiling. -/
theorem workspace_within_ceiling_iff (builtins : Builtins) (config : Config)
    (workspace : Workspace) (entries : List (Outside × ExtensionConfigEntry))
    (ceiling : CapabilityEffect) (tools : ToolRegistry)
    (bound : workspace.maxEffect = some ceiling)
    (built : workspaceTools builtins config workspace entries = .ok tools) :
    ((∀ entry ∈ tools.tools, entry.2.descriptor.effect.rank ≤ ceiling.rank) ∧
        ∀ input : ActionPolicyInput, input.maxEffect = workspace.maxEffect →
          evaluateAction input ≠ .deny → input.effect.rank ≤ ceiling.rank) ↔
      config.exec = false ∨ config.extensions.productionSafe = true ∨
        ceiling = .externalSideEffect := by
  constructor
  · rintro ⟨within, -⟩
    cases exec : config.exec with
    | false => exact .inl rfl
    | true =>
        cases lax : config.extensions.productionSafe with
        | true => exact .inr (.inl rfl)
        | false =>
            obtain ⟨name, member⟩ := execTool_mem_workspaceTools exec lax built
            have strict : CapabilityEffect.externalSideEffect.rank ≤ ceiling.rank :=
              within _ member
            cases ceiling with
            | externalSideEffect => exact .inr (.inr rfl)
            | observe => exact absurd strict (by decide)
            | changeReversible => exact absurd strict (by decide)
            | changeIrreversible => exact absurd strict (by decide)
  · intro closed
    exact ⟨all_workspaceTools bound closed built,
      fun input same accepted => rank_le_of_evaluateAction (same.trans bound) accepted⟩

namespace Demo

def builtins : Builtins where
  codec := Extensions.Demo.codec
  schema _ := .object [("type", .string "object")]
  parseUrl raw := .ok
    { text := raw, scheme := "http", host := some "localhost", username := "", password := none }
  kubernetesClient _ := .error (.tool "environment variable KUBECONFIG is not set")
  loadRunbooks _ := .ok ()

def workspace : Workspace where
  id := "default"
  prometheusUrl := "http://localhost:9090"
  lokiUrl := "http://localhost:3100"
  tempoUrl := "http://localhost:3200"
  kubernetes := none
  runbookDir := none
  maxEffect := some .observe

def quiet : Config where
  exec := false
  extensions := Extensions.Demo.config

def shell : Config where
  exec := true
  extensions := Extensions.Demo.config

theorem builds (config : Config)
    (ok : (workspaceTools builtins config workspace []).isOk = true) :
    ∃ tools, workspaceTools builtins config workspace [] = .ok tools := by
  cases built : workspaceTools builtins config workspace [] with
  | ok tools => exact ⟨tools, rfl⟩
  | error error =>
      rw [built] at ok
      cases ok

end Demo

theorem workspace_within_ceiling_iff_quiet :
    ∃ tools, workspaceTools Demo.builtins Demo.quiet Demo.workspace [] = .ok tools ∧
      ∀ entry ∈ tools.tools, entry.2.descriptor.effect.rank ≤ CapabilityEffect.observe.rank := by
  obtain ⟨tools, built⟩ := Demo.builds Demo.quiet (by decide +kernel)
  exact ⟨tools, built, ((workspace_within_ceiling_iff Demo.builtins Demo.quiet Demo.workspace []
    .observe tools rfl built).mpr (.inl rfl)).1⟩

/-- A workspace that is limited to observing has the shell, when it is enabled. -/
theorem not_workspace_within_ceiling :
    Demo.workspace.maxEffect = some .observe ∧
      ∃ tools, workspaceTools Demo.builtins Demo.shell Demo.workspace [] = .ok tools ∧
        ∃ entry ∈ tools.tools, entry.2.name = "exec" ∧
          CapabilityEffect.observe.rank < entry.2.descriptor.effect.rank := by
  obtain ⟨tools, built⟩ := Demo.builds Demo.shell (by decide +kernel)
  obtain ⟨name, member⟩ := execTool_mem_workspaceTools rfl rfl built
  exact ⟨rfl, tools, built, _, member, rfl, show 0 < 3 by decide⟩

end OpsCodex.App
