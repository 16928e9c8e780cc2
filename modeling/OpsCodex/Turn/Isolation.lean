import OpsCodex.Store.Workspaces
import OpsCodex.Turn.Checkpoints
import OpsCodex.Turn.StartedOnce

/-! Workspaces are kept apart. A call looks the workspace of its thread up once; every
tool, artifact and model request that follows belongs to that thread and workspace. -/

set_option autoImplicit false

namespace OpsCodex.Turn

open Effect OpsCodex.Action OpsCodex.Evidence OpsCodex.Extensions OpsCodex.Store
open OpsCodex.Runtime

/-- What a caller has been told of the place it works in. -/
structure Place where
  /-- The thread that was looked up, with its workspace. -/
  seat : Option (ThreadId × WorkspaceId)
  catalog : Option Catalog
  /-- The thread whose history was read last, with the items for the model. -/
  shown : Option (ThreadId × List ModelItem)

namespace Place

def move (place : Place) : (op : Op) → op.Answer → Place
  | .query (.getThread threadId), .ok thread =>
      { place with seat := some (threadId, thread.workspaceId) }
  | .query (.modelContext threadId _), .ok items => { place with shown := some (threadId, items) }
  | .catalog, catalog => { place with catalog := some catalog }
  | _, _ => place

/-- A model request is made of the tools of the workspace and the history of the thread. -/
structure Fits (content : Content) (place : Place) (threadId : ThreadId)
    (workspaceId : WorkspaceId) (request : ModelRequest) : Prop where
  seat : place.seat = some (threadId, workspaceId)
  tools : ∃ catalog tools, place.catalog = some catalog ∧
    catalog.toolsFor workspaceId = .ok tools ∧ request.tools = tools.schemas
  shown : place.shown = some (threadId, request.input)
  instructions : ∃ input, request.instructions = content.composeInstructions workspaceId input

def Admitted (content : Content) (place : Place) : Op → Prop
  | .executeTool _ workspaceId threadId _ _ => place.seat = some (threadId, workspaceId)
  | .putArtifact workspaceId _ => ∃ threadId, place.seat = some (threadId, workspaceId)
  | .command (.appendEvent command) =>
      ∀ threadId workspaceId, place.seat = some (threadId, workspaceId) →
        command.threadId = threadId
  | .completeModel request =>
      ∃ threadId workspaceId, Fits content place threadId workspaceId request
  | _ => True

def monitor (content : Content) : Monitor serviceInterface where
  Standing := Place
  start := { seat := none, catalog := none, shown := none }
  Admits := Admitted content
  move := move

/-- The caller has looked up where it works. -/
structure Settled (threadId : ThreadId) (workspaceId : WorkspaceId) (catalog : Catalog)
    (place : Place) : Prop where
  seat : place.seat = some (threadId, workspaceId)
  catalog : place.catalog = some catalog

/-- A caller that has looked a thread up has looked up this one. -/
def Within (threadId : ThreadId) (place : Place) : Prop :=
  ∀ other workspaceId, place.seat = some (other, workspaceId) → threadId = other

variable {content : Content} {threadId : ThreadId} {turnId : TurnId} {workspaceId : WorkspaceId}
  {catalog : Catalog}

theorem Settled.within {place : Place} (settled : Settled threadId workspaceId catalog place) :
    Within threadId place := by
  intro other workspace seat
  rw [settled.seat] at seat
  cases seat
  rfl

theorem within_of_unseated {place : Place} (unseated : place.seat = none) :
    Within threadId place := by
  intro other workspace seat
  rw [unseated] at seat
  cases seat

/-- The requests inside a workspace keep the place. -/
theorem step_of_requests (op : Op) (place : Place)
    (requests : Requests threadId turnId workspaceId op)
    (settled : Settled threadId workspaceId catalog place) :
    (monitor content).Admits place op ∧
      ∀ answer, Settled threadId workspaceId catalog ((monitor content).move place op answer) := by
  cases op with
  | query query =>
      cases query with
      | getThread thread => exact requests.elim
      | modelContext thread budget =>
          refine ⟨trivial, fun answer => ?_⟩
          cases answer with
          | error error => exact settled
          | ok items => exact ⟨settled.seat, settled.catalog⟩
      | _ => exact ⟨trivial, fun _ => settled⟩
  | command command =>
      cases command with
      | appendEvent command =>
          refine ⟨fun other workspace seat => ?_, fun _ => settled⟩
          exact requests.1.trans (settled.within other workspace seat)
      | _ => exact ⟨trivial, fun _ => settled⟩
  | executeTool site workspace thread name arguments =>
      obtain ⟨_, rfl, rfl⟩ := requests
      exact ⟨settled.seat, fun _ => settled⟩
  | putArtifact workspace bytes =>
      obtain rfl : workspace = workspaceId := requests
      exact ⟨⟨threadId, settled.seat⟩, fun _ => settled⟩
  | completeModel request => exact requests.elim
  | catalog => exact requests.elim
  | _ => exact ⟨trivial, fun _ => settled⟩

theorem keeps_of_requests {Value : Type} {program : Async Value}
    (uses : Fallible.Uses (Requests threadId turnId workspaceId) program) {place : Place}
    (settled : Settled threadId workspaceId catalog place) :
    Meets (monitor content).protocol program place
      (fun _ after => Settled threadId workspaceId catalog after)
      fun _ after => Settled threadId workspaceId catalog after :=
  Monitor.keeps_of_uses uses step_of_requests settled

/-- Only the inside of a turn looks a thread up. -/
theorem surrounds : Surrounds (monitor content) (fun place => place.seat = none) Within where
  start := rfl
  opens := fun _ _ => within_of_unseated
  before := by
    intro op place around unseated
    cases op with
    | query query =>
        cases query with
        | getThread thread => exact around.elim
        | modelContext thread budget =>
            refine ⟨trivial, fun answer => ?_⟩
            cases answer <;> exact unseated
        | _ => exact ⟨trivial, fun _ => unseated⟩
    | command command =>
        cases command with
        | appendEvent command =>
            exact ⟨fun other workspaceId seat =>
              within_of_unseated unseated other workspaceId seat, fun _ => unseated⟩
        | _ => exact ⟨trivial, fun _ => unseated⟩
    | _ => first | exact around.elim | exact ⟨trivial, fun _ => unseated⟩
  after := by
    intro threadId op place around within
    cases op with
    | query query =>
        cases query with
        | getThread thread => exact around.1.elim
        | modelContext thread budget =>
            refine ⟨trivial, fun answer => ?_⟩
            cases answer <;> exact within
        | _ => exact ⟨trivial, fun _ => within⟩
    | command command =>
        cases command with
        | appendEvent command =>
            refine ⟨fun other workspaceId seat => ?_, fun _ => within⟩
            exact around.2.trans (within other workspaceId seat)
        | _ => exact ⟨trivial, fun _ => within⟩
    | _ => first | exact around.1.elim | exact ⟨trivial, fun _ => within⟩

variable (deployment : Deployment) {context : TurnEventContext}

/-- What the context of a turn knows of its place. -/
abbrev Seated (context : TurnEventContext) (catalog : Catalog) (place : Place) : Prop :=
  Settled context.threadId context.workspaceId catalog place

abbrev keeps {Value : Type} (context : TurnEventContext) (catalog : Catalog) :
    Value → Place → Prop := fun _ after => Seated context catalog after

theorem completeModel_meets (causation : Option EventId) {request : ModelRequest} {place : Place}
    (fits : Fits content place context.threadId context.workspaceId request)
    (settled : Seated context catalog place) :
    Meets (monitor content).protocol
      (completeModel context.threadId context.turnId causation request) place
      (keeps context catalog) (keeps context catalog) := by
  unfold completeModel
  refine Meets.bind (Async.meets_ask fun run => ⟨place, ⟨⟨_, _, fits⟩, rfl⟩, ?_⟩)
  have streams : Fallible.Uses (Requests.Of context)
      (emitDeltas context.threadId context.turnId run.deltas causation) := Requests.emitDeltas _ _
  refine Meets.bind ((keeps_of_requests streams settled).mono ?_ fun _ _ kept => kept)
  intro last after kept
  cases run.ending with
  | cancelled => exact Meets.throw kept
  | elapsed => exact Meets.throw kept
  | finished outcome =>
      cases outcome with
      | error error => exact Meets.bind (Meets.throw kept)
      | ok outputs => exact Meets.bind (Meets.pure (Meets.pure kept))

/-- The loop asks the model about its own thread, with the tools of its own workspace. -/
theorem modelLoop_meets (equipped : catalog.toolsFor context.workspaceId = .ok context.tools)
    (input : TurnInput) (remaining : Nat) (step : UInt32) (last : Option EventId) (place : Place)
    (settled : Seated context catalog place) :
    Meets (monitor deployment.content).protocol
      (modelLoop deployment context
        (deployment.content.composeInstructions context.workspaceId input) remaining step last)
      place (keeps context catalog) (keeps context catalog) := by
  induction remaining generalizing step last place with
  | zero => exact Meets.throw settled
  | succ remaining ih =>
      have does {Value Returned : Type} {program : Async Value} {rest : Value → Async Returned}
          {place : Place} (uses : Fallible.Uses (Requests.Of context) program)
          (settled : Seated context catalog place)
          (next : ∀ value after, Seated context catalog after →
            Meets (monitor deployment.content).protocol (rest value) after
              (keeps context catalog) (keeps context catalog)) :
          Meets (monitor deployment.content).protocol (program >>= rest) place
            (keeps context catalog) (keeps context catalog) :=
        Meets.bind ((keeps_of_requests uses settled).mono next fun _ _ kept => kept)
      unfold modelLoop
      refine does (Requests.maybeCompact deployment) settled fun _ _ settled => ?_
      refine does (Requests.writeCheckpoint deployment .modelRunning _ _) settled
        fun _ place settled => ?_
      refine Meets.bind (Async.meets_read fun answer => ⟨_, ⟨trivial, rfl⟩, ?_⟩)
      cases answer with
      | error error => exact settled
      | ok items =>
          have fits : Fits deployment.content
              { place with shown := some (context.threadId, items) } context.threadId
              context.workspaceId
              { instructions := deployment.content.composeInstructions context.workspaceId input
                input := items, tools := context.tools.schemas } :=
            { seat := settled.seat
              tools := ⟨catalog, context.tools, settled.catalog, equipped, rfl⟩
              shown := rfl
              instructions := ⟨input, rfl⟩ }
          refine Meets.bind ((completeModel_meets last fits
            ⟨settled.seat, settled.catalog⟩).mono ?_ fun _ _ kept => kept)
          rintro ⟨outputs, streamed, modelEvent⟩ answered settled
          refine does (@Requests.runOutputs deployment { context with step := step } streamed
            outputs _ false) settled fun acted after settled => ?_
          obtain ⟨last, calledTool⟩ := acted
          dsimp only
          split
          · refine does (Requests.writeCheckpoint deployment .completed _ _) settled
              fun _ _ settled => ?_
            exact does (Requests.emit _ _) settled fun _ _ settled => Meets.pure settled
          · exact ih _ _ _ settled

theorem runTurnInner_meets (threadId : ThreadId) (turnId : TurnId) (start : TurnStart)
    (lease : Lease) (place : Place) (unseated : place.seat = none) :
    Meets (monitor deployment.content).protocol
      (runTurnInner deployment threadId turnId start lease) place
      (Surrounds.ends Within threadId) (Surrounds.ends Within threadId) := by
  unfold runTurnInner
  refine Meets.bind (Async.meets_read fun answer => ⟨_, ⟨trivial, rfl⟩, ?_⟩)
  cases answer with
  | error error => exact within_of_unseated unseated
  | ok thread =>
      refine Meets.bind (Async.meets_ask fun catalog => ⟨_, ⟨trivial, rfl⟩, ?_⟩)
      have settled : Settled threadId thread.workspaceId catalog
          { place with seat := some (threadId, thread.workspaceId), catalog := some catalog } :=
        ⟨rfl, rfl⟩
      cases catalog.admits thread.workspaceId with
      | error error => exact Meets.bind (Meets.throw settled.within)
      | ok =>
          refine Async.meets_ok ?_
          cases equipped : catalog.toolsFor thread.workspaceId with
          | error error => exact Meets.bind (Meets.throw settled.within)
          | ok tools =>
              refine Async.meets_ok ?_
              have enters := @Requests.enterTurn deployment
                ⟨threadId, turnId, thread.workspaceId, tools, none, lease, 0⟩ start
              refine Meets.bind ((keeps_of_requests enters settled).mono ?_
                fun _ _ kept => kept.within)
              rintro ⟨step, last⟩ entered settled
              exact (@modelLoop_meets catalog deployment
                ⟨threadId, turnId, thread.workspaceId, tools, none, lease, 0⟩ equipped _ _ _ _ _
                settled).mono (fun _ _ kept => kept.within) fun _ _ kept => kept.within

/-- Every call stays in its place. -/
theorem conforms (job : Job) :
    Conforms (monitor deployment.content).protocol ((system deployment).program job)
      (monitor deployment.content).start fun _ _ => True :=
  surrounds.conforms deployment (runTurnInner_meets deployment) job

/-- Items for the model that are made of the history of one thread. -/
def Drawn (content : Content) (db : Database) (threadId : ThreadId) (items : List ModelItem) :
    Prop :=
  ∃ events budget,
    items = content.buildModelContext (content.modelItemsFromEvents events) budget ∧
      ∀ envelope ∈ events, envelope ∈ db.events ∧ envelope.threadId = threadId

/-- What a caller has been told is so. -/
structure Grounded (content : Content) (world : World) (place : Place) : Prop where
  seat : ∀ threadId workspaceId, place.seat = some (threadId, workspaceId) →
    StartedOnce.Located world.db threadId workspaceId
  catalog : ∀ catalog, place.catalog = some catalog → catalog = world.process.catalog
  shown : ∀ threadId items, place.shown = some (threadId, items) →
    Drawn content world.db threadId items

theorem grounded_start (content : Content) (world : World) :
    Grounded content world (monitor content).start := ⟨nofun, nofun, nofun⟩

section

variable {codec : Codec} {op : Op} {choice : Choice} {answer : op.Answer} {world after : World}
  {place : Place}

/-- What was so stays so. -/
theorem Grounded.perform (grounded : Grounded content world place)
    (performed : World.perform content codec op choice world = some (answer, after)) :
    Grounded content after place where
  seat := by
    intro threadId workspaceId seat
    obtain ⟨thread, found, same⟩ := grounded.seat threadId workspaceId seat
    exact ⟨thread, perform_getThread performed found, same⟩
  catalog := by
    intro catalog told
    rw [perform_catalog performed]
    exact grounded.catalog catalog told
  shown := by
    intro threadId items told
    obtain ⟨events, budget, same, drawn⟩ := grounded.shown threadId items told
    exact ⟨events, budget, same, fun envelope member =>
      ⟨perform_events_mem performed (drawn envelope member).1, (drawn envelope member).2⟩⟩

theorem drawn_of_modelContext {db : Database} {budget : ContextBudget} {items : List ModelItem}
    (read : db.modelContext content threadId budget = .ok items) :
    Drawn content db threadId items := by
  unfold Database.modelContext at read
  cases loaded : db.loadEvents threadId 0 with
  | error error =>
      rw [loaded] at read
      cases read
  | ok events =>
      rw [loaded] at read
      cases read
      exact ⟨events, budget, rfl, Database.loadEvents_mem loaded⟩

/-- What an answer tells is so. -/
theorem Grounded.move (grounded : Grounded content world place)
    (performed : World.perform content codec op choice world = some (answer, after)) :
    Grounded content after (place.move op answer) := by
  have kept := grounded.perform performed
  cases op with
  | catalog =>
      refine ⟨kept.seat, fun catalog told => ?_, kept.shown⟩
      cases told
      rw [perform_catalog performed]
      exact perform_catalog_answer performed
  | query query =>
      cases query with
      | getThread threadId =>
          cases answer with
          | error error => exact kept
          | ok thread =>
              refine ⟨fun other workspaceId seat => ?_, kept.catalog, kept.shown⟩
              cases seat
              obtain ⟨rfl, found | ⟨message, failed⟩⟩ := World.perform_query performed
              · exact ⟨thread, found.symm, rfl⟩
              · cases failed
      | modelContext threadId budget =>
          cases answer with
          | error error => exact kept
          | ok items =>
              refine ⟨kept.seat, kept.catalog, fun other shown told => ?_⟩
              cases told
              obtain ⟨rfl, found | ⟨message, failed⟩⟩ := World.perform_query performed
              · exact drawn_of_modelContext found.symm
              · cases failed
      | _ => exact kept
  | _ => exact kept

/-- Every event is stored with the workspace of its thread. -/
theorem housed_perform (housed : world.db.Housed)
    (performed : World.perform content codec op choice world = some (answer, after)) :
    after.db.Housed := by
  by_cases append : ∃ command, op = .command (.appendEvent command)
  · obtain ⟨command, rfl⟩ := append
    rcases World.perform_single (fun _ => rfl) performed with ⟨clock, -, rfl⟩ | ⟨_, -, rfl⟩
    · exact housed.appendEvent command clock _
    · exact housed
  by_cases upsert : ∃ record, op = .command (.upsertTurn record)
  · obtain ⟨record, rfl⟩ := upsert
    rcases World.perform_command performed with
      ⟨_, -, rfl⟩ | ⟨_, -, rfl⟩ | ⟨_, db, interrupted, -, rfl⟩
    · exact housed.upsertTurn record
    · exact housed
    · simp only [Command.interrupted] at interrupted
      split at interrupted
      · rename_i wrote
        cases interrupted
        exact housed.writeTurn wrote
      · cases interrupted
  · have keeps := World.perform_keeps performed
    have threads : after.db.threads = world.db.threads := keeps.threads (by
      unfold World.writes
      split <;> simp_all)
    have events : after.db.events = world.db.events := keeps.events (by
      unfold World.writes
      split <;> simp_all)
    refine housed.of_owners (by rw [Database.owners, Database.owners, threads])
      fun envelope member => .inl ?_
    rw [← events]
    exact member

end

/-- What a model request is made of. -/
structure Told (content : Content) (world : World) (threadId : ThreadId)
    (workspaceId : WorkspaceId) (request : ModelRequest) : Prop where
  tools : ∃ tools, world.process.catalog.toolsFor workspaceId = .ok tools ∧
    request.tools = tools.schemas
  instructions : ∃ input, request.instructions = content.composeInstructions workspaceId input
  input : ∃ events budget,
    request.input = content.buildModelContext (content.modelItemsFromEvents events) budget ∧
      ∀ envelope ∈ events, envelope ∈ world.db.events ∧ envelope.threadId = threadId ∧
        envelope.workspaceId = workspaceId

/-- A request of a caller that stands in a place concerns its thread and its workspace. -/
def Confined (content : Content) (place : Place) (world : World) : Op → Prop
  | .executeTool _ workspaceId threadId _ _ =>
      place.seat = some (threadId, workspaceId) ∧
        StartedOnce.Located world.db threadId workspaceId
  | .putArtifact workspaceId _ => ∃ threadId, place.seat = some (threadId, workspaceId) ∧
      StartedOnce.Located world.db threadId workspaceId
  | .command (.appendEvent command) =>
      ∀ threadId workspaceId, place.seat = some (threadId, workspaceId) →
        command.threadId = threadId
  | .completeModel request => ∃ threadId workspaceId,
      place.seat = some (threadId, workspaceId) ∧
        StartedOnce.Located world.db threadId workspaceId ∧
        Told content world threadId workspaceId request
  | _ => True

theorem confined_of_admitted {op : Op} {world : World} {place : Place}
    (admitted : Admitted content place op) (grounded : Grounded content world place)
    (housed : world.db.Housed) : Confined content place world op := by
  cases op with
  | executeTool site workspaceId threadId name arguments =>
      exact ⟨admitted, grounded.seat threadId workspaceId admitted⟩
  | putArtifact workspaceId bytes =>
      obtain ⟨threadId, seat⟩ := admitted
      exact ⟨threadId, seat, grounded.seat threadId workspaceId seat⟩
  | completeModel request =>
      obtain ⟨threadId, workspaceId, fits⟩ := admitted
      obtain ⟨catalog, tools, known, equipped, offered⟩ := fits.tools
      obtain rfl := grounded.catalog catalog known
      have located := grounded.seat threadId workspaceId fits.seat
      refine ⟨threadId, workspaceId, fits.seat, located, ⟨tools, equipped, offered⟩,
        fits.instructions, ?_⟩
      obtain ⟨events, budget, same, drawn⟩ := grounded.shown threadId request.input fits.shown
      refine ⟨events, budget, same, fun envelope member => ?_⟩
      obtain ⟨stored, inside⟩ := drawn envelope member
      obtain ⟨thread, found, rfl⟩ := located
      exact ⟨stored, inside, housed.getThread found envelope stored inside⟩
  | command command =>
      cases command with
      | appendEvent command => exact admitted
      | _ => trivial
  | _ => trivial

variable {deployment}

/-- The places of the callers of a pool are so, and what was requested was confined. -/
structure Apart (pool : Pool deployment) : Prop where
  housed : pool.state.db.Housed
  grounded : ∀ caller, pool.calls caller ≠ none →
    Grounded deployment.content pool.state
      ((monitor deployment.content).standing pool.trace caller)
  confined : ∀ newer entry older, pool.trace = newer ++ entry :: older →
    Confined deployment.content ((monitor deployment.content).standing older entry.caller)
      entry.before entry.op

theorem apart_keeps :
    @Monitor.Keeps _ (system deployment) (monitor deployment.content) (fun _ _ _ => True)
      Apart where
  spawn := by
    intro pool job watched apart
    refine ⟨apart.housed, fun caller live => ?_, apart.confined⟩
    by_cases fresh : caller = pool.spawned
    · subst fresh
      have start := (watched.unspawned pool.spawned (Nat.le_refl _)).2
      change Grounded deployment.content pool.state
        ((monitor deployment.content).standing pool.trace pool.spawned)
      rw [start]
      exact grounded_start deployment.content pool.state
    · refine apart.grounded caller fun gone => live ?_
      exact (assign_other pool.calls _ fresh).trans gone
  perform := by
    intro pool caller job op next choice answer world watched found performed apart
    have live : pool.calls caller ≠ none := by rw [found]; exact nofun
    refine ⟨housed_perform apart.housed performed, fun other called => ?_, ?_⟩
    · by_cases same : other = caller
      · subst same
        rw [Monitor.standing_record_same]
        exact (apart.grounded other live).move performed
      · rw [Monitor.standing_record_other same]
        refine (apart.grounded other fun gone => called ?_).perform performed
        exact (assign_other pool.calls _ same).trans gone
    · intro newer entry older split
      cases newer with
      | nil =>
          obtain ⟨rfl, rfl⟩ := List.cons.inj split
          exact confined_of_admitted (watched.admits found answer) (apart.grounded caller live)
            apart.housed
      | cons first newer => exact apart.confined newer entry older (List.cons.inj split).2
  crash := fun startup watched apart =>
    ⟨apart.housed, fun _ live => absurd rfl live, apart.confined⟩

/-- A process over a store whose events carry the workspaces of their threads. -/
def Boots (pool : Pool deployment) : Prop :=
  ∃ world : World, world.db.Housed ∧ pool = Pool.boot world

theorem boots_apart {world : World} (housed : world.db.Housed) :
    Apart (Pool.boot world : Pool deployment) where
  housed := housed
  grounded := fun _ live => absurd rfl live
  confined := by
    intro newer entry older split
    cases newer <;> cases split

end Place

/-- In every reachable state each event carries the workspace of its thread, so evidence that
is read for a workspace was recorded in it; every tool was run, every artifact stored and every
event appended in the thread and workspace that the call had looked up, and every request to
the model offered the tools of that workspace and showed events of that thread only. -/
theorem workspaces_isolated (deployment : Deployment) (pool : Pool deployment)
    (reached : Pool.Reachable (fun _ _ => True) Place.Boots pool) :
    (∀ envelope ∈ pool.state.db.events,
      (envelope.threadId, envelope.workspaceId) ∈ pool.state.db.owners) ∧
    (∀ projections workspaceId threadId evidenceId evidence,
      pool.state.db.getEvidenceIn projections workspaceId threadId evidenceId = .ok evidence →
        ∃ envelope ∈ pool.state.db.events, envelope.threadId = threadId ∧
          envelope.workspaceId = workspaceId ∧ ∃ callId tool output recorded,
            envelope.event = .toolCompleted callId tool output recorded true ∧
              evidence = { recorded with evidenceId := some evidenceId }) ∧
    ∀ newer entry older, pool.trace = newer ++ entry :: older →
      Place.Confined deployment.content
        ((Place.monitor deployment.content).standing older entry.caller) entry.before
        entry.op := by
  have apart : Place.Apart pool := by
    refine (Place.apart_keeps.reachable (Place.conforms deployment) (fun pool booted => ?_)
      reached).2
    obtain ⟨world, housed, rfl⟩ := booted
    exact ⟨⟨world, rfl⟩, Place.boots_apart housed⟩
  exact ⟨apart.housed.owned, fun _ _ _ _ _ read => apart.housed.getEvidenceIn read,
    apart.confined⟩

theorem workspaces_isolated_observing :
    ∃ (pool : Pool Demo.deployment) (entry : Entry Demo.deployment) (place : Place),
      Pool.Reachable (fun _ _ => True) Place.Boots pool ∧ entry ∈ pool.trace ∧
      Progress.asksModel entry.op = true ∧
      Place.Confined Demo.deployment.content place entry.before entry.op := by
  have ran : (Pool.runChecked (fun _ _ => true) (Demo.labels 0 Progress.observing)
      Demo.pool).bind (fun pool => (pool.trace.find? fun entry =>
        Progress.asksModel entry.op).map fun _ => ()) = some () := by rfl
  obtain ⟨pool, final, found⟩ := Option.bind_eq_some_iff.mp ran
  obtain ⟨entry, found, _⟩ := Option.map_eq_some_iff.mp found
  have housed : Demo.world.db.Housed := ⟨by decide, by decide⟩
  have reached : Pool.Reachable (fun _ _ => True) Place.Boots pool :=
    .of_runChecked (fun _ _ _ => trivial) (.start ⟨Demo.world, housed, rfl⟩) final
  have member := List.mem_of_find?_eq_some found
  have asks : Progress.asksModel entry.op = true := by simpa using List.find?_some found
  obtain ⟨newer, older, split⟩ := List.append_of_mem member
  have isolated := workspaces_isolated Demo.deployment pool reached
  exact ⟨pool, entry, _, reached, member, asks,
    isolated.2.2 newer entry older split⟩

end OpsCodex.Turn
