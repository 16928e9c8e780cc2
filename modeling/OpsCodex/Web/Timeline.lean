import OpsCodex.Web.Reducer

/-! What each kind of event makes of the tool items of the view. -/

set_option autoImplicit false

namespace OpsCodex.Web

open OpsCodex.Json

def TimelineItem.tool? : TimelineItem → Option ToolItem
  | .tool item => some item
  | _ => none

/-- The tool item at an index of the timeline. -/
def toolAt (items : List TimelineItem) (index : Nat) : Option ToolItem :=
  items[index]?.bind TimelineItem.tool?

/-- A timeline has the tool items of another one, and is not shorter. -/
structure SameTools (items later : List TimelineItem) : Prop where
  tools : toolAt later = toolAt items
  length_le : items.length ≤ later.length

section

variable {items : List TimelineItem} {index : Nat}

theorem toolAt_lt {item : ToolItem} (found : toolAt items index = some item) :
    index < items.length := by
  obtain ⟨entry, at', -⟩ := Option.bind_eq_some_iff.mp found
  exact (List.getElem?_eq_some_iff.mp at').1

theorem toolAt_append (added : TimelineItem) : toolAt (items ++ [added]) index =
    if index = items.length then added.tool? else toolAt items index := by
  unfold toolAt
  split
  · rename_i last
    subst last
    simp
  · by_cases early : index < items.length
    · rw [List.getElem?_append_left early]
    · rw [List.getElem?_eq_none (by simp; omega), List.getElem?_eq_none (by omega)]

theorem toolAt_map {change : TimelineItem → TimelineItem} (own : ToolItem → ToolItem)
    (changes : ∀ item, (change item).tool? = item.tool?.map own) :
    toolAt (items.map change) index = (toolAt items index).map own := by
  unfold toolAt
  rw [List.getElem?_map]
  cases items[index]? with
  | none => rfl
  | some item => exact changes item

theorem toolAt_modify {change : TimelineItem → TimelineItem} (own : ToolItem → ToolItem)
    {target : Nat}
    (changes : ∀ item, items[target]? = some item → (change item).tool? = item.tool?.map own) :
    toolAt (items.modify target change) index =
      if index = target then (toolAt items index).map own else toolAt items index := by
  unfold toolAt
  rw [List.getElem?_modify]
  split
  · rename_i same
    subst same
    rw [if_pos rfl]
    cases at' : items[target]? with
    | none => rfl
    | some item => exact changes item at'
  · rename_i other
    rw [if_neg (Ne.symm other)]
    cases items[index]? with
    | none => rfl
    | some item => rfl

theorem SameTools.refl (items : List TimelineItem) : SameTools items items :=
  ⟨rfl, Nat.le_refl _⟩

theorem SameTools.append {added : TimelineItem} (plain : added.tool? = none) :
    SameTools items (items ++ [added]) := by
  constructor
  case tools =>
    funext index
    rw [toolAt_append]
    split
    · rename_i last
      subst last
      rw [plain]
      unfold toolAt
      rw [List.getElem?_eq_none (Nat.le_refl _)]
      rfl
    · rfl
  case length_le => simp

theorem SameTools.map {change : TimelineItem → TimelineItem}
    (keeps : ∀ item, (change item).tool? = item.tool?) : SameTools items (items.map change) := by
  constructor
  case tools =>
    funext index
    rw [toolAt_map id fun item => by rw [keeps, Option.map_id, id]]
    exact Option.map_id_apply
  case length_le => simp only [List.length_map, Nat.le_refl]

theorem SameTools.modify {change : TimelineItem → TimelineItem} {target : Nat}
    (keeps : ∀ item, items[target]? = some item → (change item).tool? = item.tool?) :
    SameTools items (items.modify target change) := by
  constructor
  case tools =>
    funext index
    rw [toolAt_modify id fun item at' => by rw [keeps item at', Option.map_id, id]]
    split
    · exact Option.map_id_apply
    · rfl
  case length_le => simp only [List.length_modify, Nat.le_refl]

theorem SameTools.set {added : TimelineItem} {target : Nat} (plain : added.tool? = none)
    (replaced : ∀ item, items[target]? = some item → item.tool? = none) :
    SameTools items (items.set target added) := by
  constructor
  case tools =>
    funext index
    unfold toolAt
    rw [List.getElem?_set]
    split
    · rename_i same
      subst same
      split
      · rename_i inside
        rw [List.getElem?_eq_getElem inside, Option.bind_some, Option.bind_some, plain]
        exact (replaced _ (List.getElem?_eq_getElem inside)).symm
      · rename_i outside
        rw [List.getElem?_eq_none (Nat.le_of_not_lt outside)]
    · rfl
  case length_le => simp only [List.length_set, Nat.le_refl]

theorem tool?_modifyMessage (change : MessageItem → MessageItem) (item : TimelineItem) :
    (modifyMessage change item).tool? = item.tool? := by
  cases item <;> rfl

theorem tool?_modifyTool (change : ToolItem → ToolItem) (item : TimelineItem) :
    (modifyTool change item).tool? = item.tool?.map change := by
  cases item <;> rfl

theorem tool?_resolveApproval (approvalId : Option String) (approved : Bool)
    (item : TimelineItem) : (resolveApproval approvalId approved item).tool? = item.tool? := by
  cases item with
  | approval item =>
      rw [resolveApproval]
      split
      · rfl
      · rfl
  | _ => rfl

/-- The item that an index is found for satisfies the condition. -/
theorem holds_of_findIdx? {condition : TimelineItem → Bool} {item : TimelineItem}
    (found : items.findIdx? condition = some index) (at' : items[index]? = some item) :
    condition item = true := by
  obtain ⟨inside, holds, -⟩ := List.findIdx?_eq_some_iff_getElem.mp found
  rw [List.getElem?_eq_getElem inside] at at'
  cases at'
  exact holds

end

section

variable {base : OpsState} {event : NormalizedEvent}

theorem items_withThreadStatus (status : String) :
    (withThreadStatus base status).items = base.items := by
  unfold withThreadStatus
  split
  · rfl
  · rfl

theorem items_withTitle (content : String) : (withTitle base content).items = base.items := by
  unfold withTitle
  split
  · rfl
  · split
    · rfl
    · rfl

theorem sameTools_userMessage : SameTools base.items (userMessage base event).items := by
  unfold userMessage
  rw [items_withTitle]
  dsimp only
  split
  · rename_i index found
    refine .set rfl fun item at' => ?_
    have holds := holds_of_findIdx? found at'
    cases item with
    | message item => rfl
    | _ => cases holds
  · exact .append rfl

theorem sameTools_assistantDelta : SameTools base.items (assistantDelta base event).items := by
  unfold assistantDelta
  dsimp only
  split
  · exact .append rfl
  · exact .modify fun item _ => tool?_modifyMessage _ item

theorem sameTools_assistantCompleted :
    SameTools base.items (assistantCompleted base event).items := by
  unfold assistantCompleted
  dsimp only
  split
  · exact .append rfl
  · exact .modify fun item _ => tool?_modifyMessage _ item

theorem sameTools_actionItem {items : List TimelineItem} {actionId status : String} {index : Nat}
    (found : items.findIdx? (isAction actionId) = some index) :
    SameTools items (items.modify index fun existing =>
      actionItem event actionId status existing.id) := by
  refine .modify fun item at' => ?_
  have holds := holds_of_findIdx? found at'
  cases item with
  | action item => rfl
  | _ => cases holds

theorem sameTools_actionUpdated : SameTools base.items (actionUpdated base event).items := by
  unfold actionUpdated
  dsimp only
  split
  · rw [items_withThreadStatus]
    dsimp only
    split
    · exact sameTools_actionItem ‹_›
    · exact .append rfl
  · split
    · rw [items_withThreadStatus]
      dsimp only
      split
      · exact sameTools_actionItem ‹_›
      · exact .append rfl
    · dsimp only
      split
      · exact sameTools_actionItem ‹_›
      · exact .append rfl

/-- The kinds of events that the view applies to tool items. -/
def RuntimeEventType.isTool : RuntimeEventType → Bool
  | .toolProposed | .toolStarted | .toolAuthorized | .toolExecutionStarted | .toolCompleted => true
  | _ => false

/-- The other kinds of events leave the tool items as they are. -/
theorem sameTools_reduceEvent (other : event.type.isTool = false) :
    SameTools base.items (reduceEvent base event).items := by
  unfold reduceEvent
  cases kind : event.type with
  | toolProposed | toolStarted | toolAuthorized | toolExecutionStarted | toolCompleted =>
      rw [kind] at other
      cases other
  | userMessage => exact sameTools_userMessage
  | assistantDelta => exact sameTools_assistantDelta
  | assistantCompleted => exact sameTools_assistantCompleted
  | actionUpdated => exact sameTools_actionUpdated
  | turnStarted =>
      simp only [items_withThreadStatus]
      exact .refl _
  | turnCompleted =>
      simp only [items_withThreadStatus]
      exact .map fun item => tool?_modifyMessage _ item
  | turnFailed =>
      simp only [items_withThreadStatus]
      exact .refl _
  | turnCancelled =>
      simp only [items_withThreadStatus]
      exact .refl _
  | contextCompacted => exact .append rfl
  | approvalRequired => exact .append rfl
  | approvalResolved => exact .map fun item => tool?_resolveApproval _ _ item
  | threadCreated | unknown => exact .refl _

theorem tool?_onTool (callId : String) (change : ToolItem → ToolItem) (item : TimelineItem) :
    (onTool callId change item).tool? =
      item.tool?.map fun item => if item.callId = callId then change item else item :=
  tool?_modifyTool _ item

theorem toolAt_toolAuthorized (index : Nat) :
    toolAt (toolAuthorized base event).items index =
      (toolAt base.items index).map fun item =>
        if item.callId = toolCallId event then
          if item.status = .completed ∨ item.status = .failed then item
          else { item with status := .authorized }
        else item :=
  toolAt_map _ (tool?_onTool _ _)

theorem toolAt_toolExecutionStarted (index : Nat) :
    toolAt (toolExecutionStarted base event).items index =
      (toolAt base.items index).map fun item =>
        if item.callId = toolCallId event then { item with status := .running } else item :=
  toolAt_map _ (tool?_onTool _ _)

/-- The item that a proposed or a started tool adds. -/
structure Added (event : NormalizedEvent) (item : ToolItem) : Prop where
  callId : item.callId = toolCallId event
  evidence : item.evidence = none

theorem toolAt_settled_append (added : ToolItem) (index : Nat) :
    toolAt (base.items.map settle ++ [.tool added]) index =
      if index = base.items.length then some added else toolAt base.items index := by
  have settled : SameTools base.items (base.items.map settle) :=
    .map fun item => tool?_modifyMessage _ item
  rw [toolAt_append, List.length_map, settled.tools]
  rfl

theorem toolAt_toolAdded (base : OpsState) (event : NormalizedEvent) (status : ToolStatus) :
    ∃ item, Added event item ∧ ∀ index,
    toolAt (toolAdded base event status).items index =
      if index = base.items.length then some item else toolAt base.items index :=
  ⟨_, by exact ⟨rfl, rfl⟩, toolAt_settled_append _⟩

theorem length_toolAdded (status : ToolStatus) :
    (toolAdded base event status).items.length = base.items.length + 1 := by
  simp [toolAdded]

/-- The index of the item that a result is attached to. -/
def attachment (items : List TimelineItem) (event : NormalizedEvent) : Option Nat :=
  items.findIdx? (hasCallId (toolCallId event)) <|>
    lastIndex (isOpenNamed (toolName event.data)) items

/-- A result is recorded in an item: its status says so, and it has the evidence. -/
structure Answered (item : ToolItem) : Prop where
  status : item.status = .completed ∨ item.status = .failed
  evidence : item.evidence.isSome = true

theorem completed_or_failed {condition : Prop} [Decidable condition] :
    (if condition then ToolStatus.completed else .failed) = .completed ∨
      (if condition then ToolStatus.completed else .failed) = .failed := by
  split
  · exact .inl rfl
  · exact .inr rfl

theorem toolAt_toolCompleted_attached {target : Nat}
    (attached : attachment base.items event = some target) :
    ∃ change : ToolItem → ToolItem,
      (∀ item, (change item).callId = item.callId ∧ Answered (change item)) ∧
      (toolCompleted base event).items.length = base.items.length ∧
      ∀ index, toolAt (toolCompleted base event).items index =
        if index = target then (toolAt base.items index).map change
        else toolAt base.items index := by
  unfold attachment at attached
  unfold toolCompleted
  simp only [attached]
  exact ⟨_, by exact fun item => ⟨rfl, completed_or_failed, rfl⟩, List.length_modify ..,
    fun index => toolAt_modify _ fun item _ => tool?_modifyTool _ item⟩

theorem toolAt_toolCompleted_unattached (unattached : attachment base.items event = none) :
    ∃ item, item.callId = toolCallId event ∧ Answered item ∧
      (toolCompleted base event).items.length = base.items.length + 1 ∧
      ∀ index, toolAt (toolCompleted base event).items index =
        if index = base.items.length then some item else toolAt base.items index := by
  unfold attachment at unattached
  unfold toolCompleted
  simp only [unattached]
  exact ⟨_, by exact rfl, by exact ⟨completed_or_failed, rfl⟩, List.length_append,
    fun index => toolAt_append (.tool _)⟩

end

end OpsCodex.Web
