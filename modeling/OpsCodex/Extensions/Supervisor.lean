import OpsCodex.Extensions.Catalog
import OpsCodex.Runtime.Recovery
import OpsCodex.Runtime.Service

/-! Custom tools, whose calls run a child process under a supervisor that restarts it. -/

set_option autoImplicit false

namespace OpsCodex.Extensions

open OpsCodex.Json OpsCodex.Evidence

structure SupervisorOutput where
  stdout : List UInt8
  stderr : List UInt8
  truncated : Bool
  deriving DecidableEq

/-- What comes of one invocation of a child process. The caller can drop it at any time. -/
inductive Invocation where
  | unstarted (message : String)
  | stdinBroken (message : String)
  | pipeMissing (stream : String)
  | cancelled
  | timedOut
  | waitFailed (message : String)
  | joinFailed (stream message : String)
  | readFailed (message : String)
  | exited (code : Option Int) (output : SupervisorOutput)
  | dropped (started : Bool)
  deriving DecidableEq

namespace Invocation

/-- A child process was started. -/
def started : Invocation → Bool
  | .unstarted _ => false
  | .dropped started => started
  | _ => true

/-- What the invocation returns, unless it is dropped. -/
def result : Invocation → Option (Result SupervisorOutput)
  | .unstarted message => some (.error (.tool s!"failed to start extension process: {message}"))
  | .stdinBroken message => some (.error (.tool s!"failed to write extension stdin: {message}"))
  | .pipeMissing stream => some (.error (.tool s!"extension process {stream} is unavailable"))
  | .cancelled => some (.error .cancelled)
  | .timedOut => some (.error (.timeout "extension process timed out"))
  | .waitFailed message => some (.error (.tool s!"extension process wait failed: {message}"))
  | .joinFailed stream message =>
      some (.error (.tool s!"extension {stream} join failed: {message}"))
  | .readFailed message =>
      some (.error (.tool s!"failed to read extension output: {message}"))
  | .exited code output =>
      if code = some 0 then some (.ok output)
      else
        let code := code.getD (-1)
        some (.error (.tool s!"extension process exited with {code}"))
  | .dropped _ => none

end Invocation

def isRetryableSupervisorFailure : OpsCodexError → Bool
  | .timeout _ | .tool _ => true
  | _ => false

/-- An invocation, and whether the call is cancelled when its failure is looked at. -/
structure Attempt where
  invocation : Invocation
  cancelled : Bool

/-- The failure of an attempt lets the supervisor try again. -/
def Attempt.retryable (attempt : Attempt) : Bool :=
  match attempt.invocation.result with
  | some (.error error) => isRetryableSupervisorFailure error && !attempt.cancelled
  | _ => false

/-- What a call of a supervised process returns, and how often the process was started. -/
structure Supervised (Value : Type) where
  result : Option (Result Value)
  starts : Nat

structure ChildSupervisor where
  maxRestarts : Nat
  deriving DecidableEq

namespace ChildSupervisor

def new (maxRestarts : Nat) : ChildSupervisor where
  maxRestarts := min maxRestarts 5

/-- The loop over attempts with a number of restarts left. -/
def runFrom : Nat → (Nat → Attempt) → Supervised SupervisorOutput
  | 0, attempts =>
      { result := (attempts 0).invocation.result
        starts := (attempts 0).invocation.started.toNat }
  | left + 1, attempts =>
      if (attempts 0).retryable then
        let rest := runFrom left fun number => attempts (number + 1)
        { rest with starts := (attempts 0).invocation.started.toNat + rest.starts }
      else
        { result := (attempts 0).invocation.result
          starts := (attempts 0).invocation.started.toNat }

def validate (outside : Outside) (command : String) (cwd : Option String) : Result Unit := do
  validateCommand outside command
  cwd.forM validatePath

def runOnce (supervisor : ChildSupervisor) (outside : Outside) (command : String)
    (cwd : Option String) (attempts : Nat → Attempt) : Supervised SupervisorOutput :=
  match validate outside command cwd with
  | .ok () => runFrom supervisor.maxRestarts attempts
  | .error error => { result := some (.error error), starts := 0 }

end ChildSupervisor

def validateAgainstSchema (value schema : Value) : Result Unit :=
  let mismatch : Result Unit :=
    .error (.protocol "custom tool output does not match outputSchema")
  match schema.get? "type" >>= Value.asStr?, value with
  | some "object", .object _ | some "array", .array _ | some "string", .string _
  | some "number", .number _ | some "integer", .number _ | some "boolean", .bool _
  | some "null", .null => .ok ()
  | some "object", _ | some "array", _ | some "string", _ | some "number", _
  | some "integer", _ | some "boolean", _ | some "null", _ => mismatch
  | _, _ => .ok ()

structure CustomJsonTool where
  capability : CapabilityDescriptor
  command : String
  args : List String
  cwd : Option String
  env : List (String × String)
  supervisor : ChildSupervisor

namespace CustomJsonTool

/-- The program that a call runs is the one that was installed. -/
def unchanged (tool : CustomJsonTool) (outside : Outside) : Bool :=
  decide (some (outside.codec.sha256Hex ((outside.readBinary tool.command).getD [])) =
    tool.capability.provenance.binaryHash)

/-- What a process that succeeded wrote, as the output of the tool. -/
def output (tool : CustomJsonTool) (fromSlice : List UInt8 → Except String Value)
    (observed stamped : Runtime.DateTime) (printed : SupervisorOutput) :
    Result Runtime.ToolOutput := do
  let parsed ← (fromSlice printed.stdout).mapError fun error =>
    .protocol s!"custom tool returned invalid JSON: {error}"
  tool.capability.outputSchema.forM (validateAgainstSchema parsed)
  let name := tool.capability.name
  .ok {
    content := .object [
      ("source", .string "custom"),
      ("tool", .string name),
      ("version", .string tool.capability.provenance.version),
      ("hash", .string tool.capability.provenance.schemaHash),
      ("result", parsed),
      ("truncated", .bool printed.truncated)]
    evidence := { (EvidenceMeta.new "custom" observed stamped).withQuery tool.capability.id with
      summary := s!"custom tool {name}", truncated := printed.truncated } }

/-- A call of the tool, over what comes of its attempts. -/
def execute (tool : CustomJsonTool) (outside : Outside)
    (fromSlice : List UInt8 → Except String Value) (observed stamped : Runtime.DateTime)
    (attempts : Nat → Attempt) : Supervised Runtime.ToolOutput :=
  if tool.unchanged outside then
    let ran := tool.supervisor.runOnce outside tool.command tool.cwd attempts
    { result := ran.result.map fun result => result >>= tool.output fromSlice observed stamped
      starts := ran.starts }
  else
    let id := tool.capability.id
    { result := some (.error (.policy s!"custom tool `{id}` binary hash changed"))
      starts := 0 }

/-- The call gets to the process of the tool. -/
def Launches (tool : CustomJsonTool) (outside : Outside) : Prop :=
  tool.unchanged outside = true ∧
    ChildSupervisor.validate outside tool.command tool.cwd = .ok ()

end CustomJsonTool

/-- An attempt is within the restarts, and every attempt before it failed in a way that
is tried again. -/
structure Reaches (restarts : Nat) (attempts : Nat → Attempt) (number : Nat) : Prop where
  within : number ≤ restarts
  retried : ∀ earlier < number, (attempts earlier).retryable = true

/-- An attempt that is reached starts a process, as an attempt before it did. -/
def Repeats (restarts : Nat) (attempts : Nat → Attempt) : Prop :=
  ∃ first second, first < second ∧ Reaches restarts attempts second ∧
    (attempts first).invocation.started = true ∧ (attempts second).invocation.started = true

section

variable {restarts number : Nat} {attempts : Nat → Attempt}

theorem toNat_pos {flag : Bool} : 0 < flag.toNat ↔ flag = true := by
  cases flag <;> decide

theorem reaches_zero (restarts : Nat) (attempts : Nat → Attempt) : Reaches restarts attempts 0 :=
  ⟨Nat.zero_le _, fun _ before => absurd before (Nat.not_lt_zero _)⟩

theorem reaches_succ : Reaches (restarts + 1) attempts (number + 1) ↔
    (attempts 0).retryable = true ∧
      Reaches restarts (fun later => attempts (later + 1)) number := by
  constructor
  · rintro ⟨within, retried⟩
    exact ⟨retried 0 (Nat.succ_pos _), by omega,
      fun earlier before => retried (earlier + 1) (by omega)⟩
  · rintro ⟨head, within, retried⟩
    refine ⟨by omega, fun earlier before => ?_⟩
    cases earlier with
    | zero => exact head
    | succ earlier => exact retried earlier (by omega)

/-- A process is started exactly if an attempt that is reached starts one. -/
theorem starts_pos_iff (restarts : Nat) (attempts : Nat → Attempt) :
    0 < (ChildSupervisor.runFrom restarts attempts).starts ↔
      ∃ number, Reaches restarts attempts number ∧
        (attempts number).invocation.started = true := by
  induction restarts generalizing attempts with
  | zero =>
      simp only [ChildSupervisor.runFrom, toNat_pos]
      constructor
      · exact fun started => ⟨0, reaches_zero _ _, started⟩
      · rintro ⟨number, reaches, started⟩
        obtain rfl := Nat.le_zero.mp reaches.within
        exact started
  | succ restarts ih =>
      have later := ih fun number => attempts (number + 1)
      simp only [ChildSupervisor.runFrom]
      split
      · rename_i retryable
        rw [Nat.add_pos_iff_pos_or_pos, toNat_pos, later]
        constructor
        · rintro (started | ⟨number, reaches, started⟩)
          · exact ⟨0, reaches_zero _ _, started⟩
          · exact ⟨number + 1, reaches_succ.mpr ⟨retryable, reaches⟩, started⟩
        · rintro ⟨number, reaches, started⟩
          cases number with
          | zero => exact .inl started
          | succ number => exact .inr ⟨number, (reaches_succ.mp reaches).2, started⟩
      · rename_i final
        rw [toNat_pos]
        constructor
        · exact fun started => ⟨0, reaches_zero _ _, started⟩
        · rintro ⟨number, reaches, started⟩
          cases number with
          | zero => exact started
          | succ number => exact absurd (reaches_succ.mp reaches).1 final

theorem repeats_succ : Repeats (restarts + 1) attempts ↔ (attempts 0).retryable = true ∧
    (Repeats restarts (fun later => attempts (later + 1)) ∨
      (attempts 0).invocation.started = true ∧
        ∃ number, Reaches restarts (fun later => attempts (later + 1)) number ∧
          (attempts (number + 1)).invocation.started = true) := by
  constructor
  · rintro ⟨first, second, before, reaches, started, again⟩
    cases second with
    | zero => exact absurd before (Nat.not_lt_zero _)
    | succ second =>
        obtain ⟨retryable, reaches⟩ := reaches_succ.mp reaches
        refine ⟨retryable, ?_⟩
        cases first with
        | zero => exact .inr ⟨started, second, reaches, again⟩
        | succ first => exact .inl ⟨first, second, by omega, reaches, started, again⟩
  · rintro ⟨retryable, repeated⟩
    obtain ⟨first, second, before, reaches, started, again⟩ |
      ⟨started, number, reaches, again⟩ := repeated
    · exact ⟨first + 1, second + 1, by omega, reaches_succ.mpr ⟨retryable, reaches⟩, started,
        again⟩
    · exact ⟨0, number + 1, Nat.succ_pos _, reaches_succ.mpr ⟨retryable, reaches⟩, started,
        again⟩

/-- A process is started more than once exactly if an attempt repeats it. -/
theorem one_lt_starts_iff (restarts : Nat) (attempts : Nat → Attempt) :
    1 < (ChildSupervisor.runFrom restarts attempts).starts ↔ Repeats restarts attempts := by
  induction restarts generalizing attempts with
  | zero =>
      have few := Bool.toNat_le (attempts 0).invocation.started
      constructor
      · intro many
        simp only [ChildSupervisor.runFrom] at many
        omega
      · rintro ⟨first, second, before, reaches, -⟩
        have within := reaches.within
        omega
  | succ restarts ih =>
      have later := ih fun number => attempts (number + 1)
      have some' := starts_pos_iff restarts fun number => attempts (number + 1)
      rw [repeats_succ, ← later, ← some']
      simp only [ChildSupervisor.runFrom]
      split
      · rename_i retryable
        cases started : (attempts 0).invocation.started with
        | false =>
            simp only [Bool.toNat_false, Nat.zero_add, Bool.false_eq_true, false_and, or_false,
              retryable, true_and]
        | true =>
            simp only [Bool.toNat_true, true_and, retryable]
            omega
      · rename_i final
        have few := Bool.toNat_le (attempts 0).invocation.started
        simp only [final, Bool.false_eq_true, false_and, iff_false]
        omega

/-- One call starts the process of a custom tool at most once, unless the process is
started again after a failure. -/
theorem CustomJsonTool.starts_execute_le_one_iff (tool : CustomJsonTool) (outside : Outside)
    (fromSlice : List UInt8 → Except String Value) (observed stamped : Runtime.DateTime)
    (attempts : Nat → Attempt) :
    (tool.execute outside fromSlice observed stamped attempts).starts ≤ 1 ↔
      ¬ (tool.Launches outside ∧ Repeats tool.supervisor.maxRestarts attempts) := by
  rw [← one_lt_starts_iff, ← Nat.not_lt, not_iff_not]
  unfold CustomJsonTool.execute CustomJsonTool.Launches ChildSupervisor.runOnce
  split
  · rename_i unchanged
    simp only [unchanged, true_and]
    split
    · rename_i valid
      simp only [valid, true_and]
    · rename_i error invalid
      simp [invalid]
  · rename_i changed
    simp [changed]

end

namespace Supervisor

/-- A command that may not be repeated, beside nothing else outside the process. -/
def outside : Outside where
  codec := { sha256Hex := fun _ => "digest", toVec := fun _ => [], toRfc3339 := fun _ => "" }
  pathExists := fun _ => true
  readBinary := fun _ => some []
  readManifest := fun _ => .error (.notFound "manifest")
  parseUrl := fun _ => .error "url"
  spawn := fun _ _ => .ok ()
  request := fun _ _ _ => .ok .null
  notify := fun _ _ _ => .ok ()
  call := fun _ _ => .ok .null

def capability : CapabilityDescriptor where
  id := "custom/deploy@1"
  source := .custom
  name := "custom/deploy"
  description := ""
  inputSchema := .null
  outputSchema := none
  effect := .externalSideEffect
  targetRequirements := []
  timeoutSeconds := 10
  maxOutputBytes := 65536
  recovery := some .needsReconciliation
  provenance := { source := .custom, version := "1", schemaHash := "digest",
                  binaryHash := some "digest", origin := some "/deploy" }
  contentSensitivity := .internal
  enabled := true
  trustedLocal := true

def deploy : CustomJsonTool where
  capability := capability
  command := "/deploy"
  args := []
  cwd := none
  env := []
  supervisor := .new 2

/-- The process is killed at its deadline, started again, and succeeds. -/
def attempts : Nat → Attempt
  | 0 => { invocation := .timedOut, cancelled := false }
  | _ => { invocation := .exited (some 0) { stdout := [], stderr := [], truncated := false }
           cancelled := false }

end Supervisor

open Supervisor in
theorem not_starts_execute_le_one :
    Runtime.toolIsRetryable deploy.capability.effect deploy.capability.recovery = false ∧
      ¬ (deploy.execute outside (fun _ => .ok .null) 0 0 attempts).starts ≤ 1 := by
  decide

end OpsCodex.Extensions
