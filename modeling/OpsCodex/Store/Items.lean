import OpsCodex.Store.Sqlite

/-! A thread as it is reconstructed from its log: its items and its status. -/

set_option autoImplicit false

namespace OpsCodex.Store

open OpsCodex.Json OpsCodex.Runtime OpsCodex.Action OpsCodex.Evidence

inductive Item where
  | userMessage (content : String)
  | assistantMessage (content : String)
  | toolCall (callId name : String) (arguments : Value)
  | toolResult (callId : String) (output : Value) (evidence : EvidenceMeta)
  | approval (id : ApprovalId) (approved : Option Bool)
  | summary (summaryId : String) (coversSeqStart coversSeqEnd : Nat) (summary : String)
      (sourceEvidenceIds : List String)
  | action (actionId : ActionId) (status tool requestHash : String) (review : Value)

/-- Change the last element that a predicate selects, if there is one. -/
def modifyLast {Element : Type} (selects : Element → Bool) (change : Element → Element) :
    List Element → Option (List Element)
  | [] => none
  | element :: elements =>
      match modifyLast selects change elements with
      | some changed => some (element :: changed)
      | none => if selects element then some (change element :: elements) else none

section

variable {Element : Type} {selects : Element → Bool} {change : Element → Element}

theorem modifyLast_eq_none {elements : List Element}
    (unchanged : modifyLast selects change elements = none) :
    ∀ element ∈ elements, selects element = false := by
  induction elements with
  | nil => simp
  | cons first rest ih =>
      simp only [modifyLast] at unchanged
      cases later : modifyLast selects change rest with
      | some changed => simp [later] at unchanged
      | none =>
          simp only [later] at unchanged
          intro element member
          obtain rfl | member := List.mem_cons.mp member
          · by_contra selected
            simp [selected] at unchanged
          · exact ih later element member

theorem modifyLast_eq_some {elements changed : List Element}
    (modified : modifyLast selects change elements = some changed) :
    ∃ before element after, elements = before ++ element :: after ∧ selects element = true ∧
      changed = before ++ change element :: after := by
  induction elements generalizing changed with
  | nil => cases modified
  | cons first rest ih =>
      simp only [modifyLast] at modified
      cases later : modifyLast selects change rest with
      | some changed' =>
          obtain ⟨before, element, after, rfl, selected, rfl⟩ := ih later
          simp only [later, Option.some.injEq] at modified
          exact ⟨first :: before, element, after, rfl, selected, modified.symm⟩
      | none =>
          simp only [later] at modified
          cases selected : selects first with
          | false => simp [selected] at modified
          | true =>
              simp only [selected, if_true, Option.some.injEq] at modified
              exact ⟨[], first, rest, rfl, selected, modified.symm⟩

end

namespace Item

def isApproval (approvalId : ApprovalId) : Item → Bool
  | .approval id _ => decide (id = approvalId)
  | _ => false

def isAction (id : ActionId) : Item → Bool
  | .action actionId _ _ _ _ => decide (actionId = id)
  | _ => false

def decide (decision : Bool) : Item → Item
  | .approval id _ => .approval id (some decision)
  | item => item

def update (status requestHash : String) (review : Value) : Item → Item
  | .action actionId _ tool _ _ => .action actionId status tool requestHash review
  | item => item

/-- The action that an item shows, with its status. -/
def shows : Item → Option (ActionId × String)
  | .action actionId status _ _ _ => some (actionId, status)
  | _ => none

end Item

/-- The items of a thread after an event. -/
def itemsAfter (items : List Item) : RuntimeEvent → List Item
  | .threadCreated | .assistantDelta _ | .toolAuthorized .. | .toolExecutionStarted ..
  | .turnStarted | .turnCompleted | .turnCancelled | .turnFailed _ => items
  | .userMessage content _ => items ++ [.userMessage content]
  | .assistantCompleted content _ => items ++ [.assistantMessage content]
  | .toolStarted callId tool arguments | .toolProposed callId tool arguments =>
      items ++ [.toolCall callId tool arguments]
  | .toolCompleted callId _ output evidence _ => items ++ [.toolResult callId output evidence]
  | .approvalRequired approvalId _ _ => items ++ [.approval approvalId none]
  | .approvalResolved approvalId approved =>
      (modifyLast (Item.isApproval approvalId) (Item.decide approved) items).getD items
  | .contextCompacted summaryId start stop _ evidenceIds _ _ _ _ summary =>
      items ++ [.summary summaryId start stop summary evidenceIds]
  | .actionUpdated actionId _ status tool requestHash review =>
      (modifyLast (Item.isAction actionId) (Item.update status requestHash review) items).getD
        (items ++ [.action actionId status tool requestHash review])

def applyEvent (view : List Item × ThreadStatus) (envelope : EventEnvelope) :
    List Item × ThreadStatus :=
  (itemsAfter view.1 envelope.event, statusAfter view.2 envelope.event)

/-- A thread with all that its log says of it. -/
structure ThreadView where
  id : ThreadId
  workspaceId : WorkspaceId
  items : List Item
  status : ThreadStatus
  createdAt : DateTime
  updatedAt : DateTime
  parentThreadId : Option ThreadId
  forkedAtSeq : Option Nat

def viewThread (threadId : ThreadId) (events : List EventEnvelope) : Result ThreadView :=
  match events with
  | [] => .error (.storage s!"thread {threadId} has an empty event log")
  | first :: rest =>
      match first.event with
      | .threadCreated =>
          let view := (first :: rest).foldl applyEvent ([], .idle)
          .ok {
            id := threadId
            workspaceId := first.workspaceId
            items := view.1
            status := view.2
            createdAt := first.timestamp
            updatedAt := ((first :: rest).getLast?.map EventEnvelope.timestamp).getD
              first.timestamp
            parentThreadId := none
            forkedAtSeq := none }
      | _ => .error (.storage s!"thread {threadId} does not start with thread_created")

theorem foldl_applyEvent (events : List EventEnvelope) (view : List Item × ThreadStatus) :
    events.foldl applyEvent view =
      ((events.map EventEnvelope.event).foldl itemsAfter view.1,
        (events.map EventEnvelope.event).foldl statusAfter view.2) := by
  induction events generalizing view with
  | nil => rfl
  | cons first rest ih => exact ih (applyEvent view first)

section Actions

/-- The status last recorded for each action, after one more event. -/
def recordedAfter (recorded : ActionId → Option String) : RuntimeEvent → ActionId → Option String
  | .actionUpdated actionId _ status _ _ _, id =>
      if actionId = id then some status else recorded id
  | _, id => recorded id

/-- The status last recorded for each action of a log. -/
def recordedStatus (events : List RuntimeEvent) : ActionId → Option String :=
  events.foldl recordedAfter fun _ => none

/-- The items show each recorded action once, with its last status. -/
structure ShowsActions (items : List Item) (recorded : ActionId → Option String) : Prop where
  unique : ((items.filterMap Item.shows).map Prod.fst).Nodup
  shown : ∀ id status, (id, status) ∈ items.filterMap Item.shows ↔ recorded id = some status

theorem ShowsActions.push {items : List Item} {recorded : ActionId → Option String}
    (shows : ShowsActions items recorded) {item : Item} (plain : item.shows = none) :
    ShowsActions (items ++ [item]) recorded := by
  have same : (items ++ [item]).filterMap Item.shows = items.filterMap Item.shows := by
    simp [List.filterMap_append, plain]
  constructor
  · rw [same]
    exact shows.unique
  · rw [same]
    exact shows.shown

theorem ShowsActions.decide {items : List Item} {recorded : ActionId → Option String}
    (shows : ShowsActions items recorded) (approvalId : ApprovalId) (approved : Bool) :
    ShowsActions ((modifyLast (Item.isApproval approvalId) (Item.decide approved) items).getD
      items) recorded := by
  cases changed : modifyLast (Item.isApproval approvalId) (Item.decide approved) items with
  | none => exact shows
  | some items' =>
      obtain ⟨before, item, after, rfl, selected, rfl⟩ := modifyLast_eq_some changed
      have plain : item.shows = none ∧ (item.decide approved).shows = none := by
        cases item <;> first | exact ⟨rfl, rfl⟩ | cases selected
      have same : (before ++ item.decide approved :: after).filterMap Item.shows =
          (before ++ item :: after).filterMap Item.shows := by
        simp [List.filterMap_append, plain.1, plain.2]
      constructor
      · simp only [Option.getD_some, same]
        exact shows.unique
      · simp only [Option.getD_some, same]
        exact shows.shown

/-- A first record of an action adds its item. -/
theorem ShowsActions.add {items : List Item} {recorded : ActionId → Option String}
    (shows : ShowsActions items recorded) (id : ActionId) (status tool requestHash : String)
    (review : Value) (absent : ∀ item ∈ items, Item.isAction id item = false) :
    ShowsActions (items ++ [.action id status tool requestHash review])
      fun other => if id = other then some status else recorded other := by
  have new : id ∉ (items.filterMap Item.shows).map Prod.fst := by
    intro member
    obtain ⟨pair, shown, rfl⟩ := List.mem_map.mp member
    obtain ⟨item, found, shown⟩ := List.mem_filterMap.mp shown
    cases item <;> cases shown
    have other := absent _ found
    simp [Item.isAction] at other
  have grown : (items ++ [Item.action id status tool requestHash review]).filterMap Item.shows =
      items.filterMap Item.shows ++ [(id, status)] := by
    rw [List.filterMap_append]
    rfl
  constructor
  · rw [grown, List.map_append, List.nodup_append]
    refine ⟨shows.unique, by simp, ?_⟩
    intro old member other single same
    rw [List.map_singleton, List.mem_singleton] at single
    subst same
    subst single
    exact new member
  · intro other status'
    rw [grown, List.mem_append, List.mem_singleton, Prod.mk.injEq, shows.shown]
    by_cases same : id = other
    · subst same
      have none : ¬ recorded id = some status' := fun found =>
        new (List.mem_map_of_mem ((shows.shown id status').mpr found))
      simp [none, eq_comm]
    · simp [same, Ne.symm same]

/-- A later record changes the status that the item of an action shows. -/
theorem ShowsActions.change {before after : List Item} {recorded : ActionId → Option String}
    {item item' : Item} {id : ActionId} {old status : String}
    (shows : ShowsActions (before ++ item :: after) recorded)
    (earlier : item.shows = some (id, old))
    (later : item'.shows = some (id, status)) :
    ShowsActions (before ++ item' :: after)
      fun other => if id = other then some status else recorded other := by
  have parts (shown : Item) (pair : ActionId × String) (known : shown.shows = some pair) :
      (before ++ shown :: after).filterMap Item.shows =
        before.filterMap Item.shows ++ pair :: after.filterMap Item.shows := by
    rw [List.filterMap_append, List.filterMap_cons, known]
  have unique := shows.unique
  rw [parts item _ earlier, List.map_append, List.map_cons] at unique
  have apart : id ∉ (before.filterMap Item.shows).map Prod.fst ∧
      id ∉ (after.filterMap Item.shows).map Prod.fst := by
    have split := List.nodup_append.mp unique
    refine ⟨fun member => split.2.2 id member id List.mem_cons_self rfl, ?_⟩
    exact (List.nodup_cons.mp split.2.1).1
  constructor
  · rw [parts item' _ later, List.map_append, List.map_cons]
    exact unique
  · intro other status'
    have known := shows.shown other status'
    rw [parts item _ earlier, List.mem_append, List.mem_cons, Prod.mk.injEq] at known
    rw [parts item' _ later, List.mem_append, List.mem_cons, Prod.mk.injEq]
    by_cases same : id = other
    · subst same
      have absent (member : (id, status') ∈ before.filterMap Item.shows ∨
          (id, status') ∈ after.filterMap Item.shows) : False := by
        obtain member | member := member
        · exact apart.1 (List.mem_map_of_mem member)
        · exact apart.2 (List.mem_map_of_mem member)
      rw [if_pos rfl, Option.some.injEq]
      constructor
      · intro member
        obtain left | ⟨-, rfl⟩ | right := member
        · exact (absent (.inl left)).elim
        · rfl
        · exact (absent (.inr right)).elim
      · intro equal
        exact .inr (.inl ⟨rfl, equal.symm⟩)
    · rw [if_neg same, ← known]
      simp [Ne.symm same]

theorem ShowsActions.after {items : List Item} {recorded : ActionId → Option String}
    (shows : ShowsActions items recorded) (event : RuntimeEvent) :
    ShowsActions (itemsAfter items event) (recordedAfter recorded event) := by
  cases event with
  | threadCreated | assistantDelta | toolAuthorized | toolExecutionStarted | turnStarted
  | turnCompleted | turnCancelled | turnFailed => exact shows
  | userMessage | assistantCompleted | toolStarted | toolProposed | toolCompleted
  | approvalRequired | contextCompacted => exact shows.push rfl
  | approvalResolved approvalId approved => exact shows.decide approvalId approved
  | actionUpdated actionId planId status tool requestHash review =>
      simp only [itemsAfter]
      cases changed : modifyLast (Item.isAction actionId)
          (Item.update status requestHash review) items with
      | none => exact shows.add actionId status tool requestHash review (modifyLast_eq_none changed)
      | some items' =>
          obtain ⟨before, item, after, rfl, selected, rfl⟩ := modifyLast_eq_some changed
          cases item with
          | action id old tool' hash' review' =>
              have same : id = actionId := of_decide_eq_true selected
              subst same
              exact shows.change rfl rfl
          | _ => cases selected

theorem showsActions_foldl {items : List Item} {recorded : ActionId → Option String}
    (shows : ShowsActions items recorded) (events : List RuntimeEvent) :
    ShowsActions (events.foldl itemsAfter items) (events.foldl recordedAfter recorded) := by
  induction events generalizing items recorded with
  | nil => exact shows
  | cons event events ih => exact ih (shows.after event)

/-- The action items of a thread are the last records of its actions. -/
theorem showsActions (events : List RuntimeEvent) :
    ShowsActions (events.foldl itemsAfter []) (recordedStatus events) := by
  apply showsActions_foldl
  constructor
  · exact List.nodup_nil
  · intro id status
    simp

end Actions

end OpsCodex.Store
