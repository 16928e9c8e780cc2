import OpsCodex.Action.Preimage
import OpsCodex.Evidence.Masking
import OpsCodex.Topology.Changes

/-! What the topology keeps of a tool result that is stored as an artifact: a projection of
the result with short names and few entries. -/

set_option autoImplicit false

namespace OpsCodex.Topology

open OpsCodex.Json OpsCodex.Evidence OpsCodex.Runtime Keyed
open OpsCodex.Strings (eqIgnoreAsciiCase)

def maxArtifactProjectionItems : Nat := 16

def maxArtifactProjectionStringBytes : Nat := 64

def maxArtifactProjectionBytes : Nat := 8 * 1024

/-- The characters that fit in so many bytes. -/
def takeBytes : Nat → List Char → List Char
  | _, [] => []
  | budget, char :: text =>
      if char.utf8Size ≤ budget then char :: takeBytes (budget - char.utf8Size) text else []

/-- The longest start of a string with at most 64 bytes. -/
def boundedString (value : String) : String :=
  String.ofList (takeBytes maxArtifactProjectionStringBytes value.toList)

def traceFields : List String := ["rootServiceName", "service", "client", "server"]

def projectedFields (trace : Value) : List (String × Value) :=
  traceFields.filterMap fun field =>
    (stringAt trace field).map fun value => (field, .string (boundedString value))

def projectedTrace (trace : Value) : Option Value :=
  if (projectedFields trace).isEmpty then none else some (.object (projectedFields trace))

def projectedBatch (service : String) : Value :=
  .object [("resource", .object [("service.name", .string (boundedString service))])]

def projectedTraces (output : Value) : List Value :=
  ((itemsAt output "traces").filterMap projectedTrace).take maxArtifactProjectionItems

def projectedBatches (output : Value) : List Value :=
  ((itemsAt output "batches").filterMap fun batch =>
    (stringAtPath batch ["resource", "service.name"]).map projectedBatch).take
      maxArtifactProjectionItems

def traceArtifactProjection (output : Value) : Option Value :=
  let traces := projectedTraces output
  let batches := projectedBatches output
  if traces.isEmpty && batches.isEmpty then none
  else some (.object ((if traces.isEmpty then [] else [("traces", .array traces)]) ++
    if batches.isEmpty then [] else [("batches", .array batches)]))

def projectedOwner (owner : Value) : Option Value :=
  (stringAt owner "name").map fun name => .object
    [("kind", .string (boundedString ((stringAt owner "kind").getD "Owner"))),
      ("name", .string (boundedString name))]

def projectedSelector (entry : String × Value) : Option (String × Value) :=
  entry.2.asStr?.map fun value => (boundedString entry.1, .string (boundedString value))

/-- The entries as a map: a later one replaces an earlier one under its key. -/
def collectMap (entries : List (String × Value)) : List (String × Value) :=
  entries.foldl (fun fields entry => upsert Prod.fst entry.1 (fun _ => entry) entry fields) []

def projectedOwners (output : Value) : List Value :=
  ((k8sOwners output).filterMap projectedOwner).take maxArtifactProjectionItems

def projectedSelectors (output : Value) : List (String × Value) :=
  collectMap (((k8sSelector output).filterMap projectedSelector).take maxArtifactProjectionItems)

def k8sArtifactProjection (output : Value) : Option Value :=
  (k8sName output).map fun name => .object
    [("object", .object
      [("kind", .string (boundedString (k8sKind output))),
        ("metadata", .object
          [("name", .string (boundedString name)),
            ("ownerReferences", .array (projectedOwners output))]),
        ("spec", .object [("selector", .object (projectedSelectors output))])])]

/-- The projection of a result, unless it has none or is too long. -/
def artifactTopologyProjection (toVec : Value → List UInt8) (tool : String) (output : Value) :
    Option Value :=
  let projection :=
    if tool = "trace_search" ∨ tool = "trace_get" then traceArtifactProjection output
    else if tool = "k8s_get" then k8sArtifactProjection output
    else none
  projection.filter fun projection =>
    decide ((toVec projection).length ≤ maxArtifactProjectionBytes)

section Bounded

theorem takeBytes_of_le {budget : Nat} {text : List Char}
    (short : (text.map Char.utf8Size).sum ≤ budget) : takeBytes budget text = text := by
  induction text generalizing budget with
  | nil => rfl
  | cons char text ih =>
      rw [List.map_cons, List.sum_cons] at short
      rw [takeBytes, if_pos (by omega), ih (by omega)]

/-- A text that does not fit leaves less than one character free. -/
theorem lt_takeBytes {budget : Nat} {text : List Char}
    (long : budget < (text.map Char.utf8Size).sum) :
    budget < ((takeBytes budget text).map Char.utf8Size).sum + 4 := by
  induction text generalizing budget with
  | nil => exact absurd long (Nat.not_lt_zero _)
  | cons char text ih =>
      rw [List.map_cons, List.sum_cons] at long
      rw [takeBytes]
      split
      · have rest : budget - char.utf8Size <
            ((takeBytes (budget - char.utf8Size) text).map Char.utf8Size).sum + 4 :=
          ih (by omega)
        rw [List.map_cons, List.sum_cons]
        omega
      · have := char.utf8Size_le_four
        simp only [List.map_nil, List.sum_nil]
        omega

/-- A string that fits is kept as it is. -/
theorem boundedString_of_short {value : String}
    (short : (value.toList.map Char.utf8Size).sum ≤ maxArtifactProjectionStringBytes) :
    boundedString value = value := by
  rw [boundedString, takeBytes_of_le short, String.ofList_toList]

end Bounded

section Traces

variable {output projection : Value}

/-- What a field is found as in a list of the fields that there are. -/
theorem lookup_filterMap (found : String → Option Value) (fields : List String)
    (field : String) :
    (fields.filterMap fun name => (found name).map fun value => (name, value)).lookup field =
      if field ∈ fields then found field else none := by
  induction fields with
  | nil => rfl
  | cons name fields ih =>
      rw [List.filterMap_cons]
      by_cases same : field = name
      · subst same
        cases own : found field with
        | none => simpa [own] using ih
        | some value => simp
      · cases other : found name with
        | none => simpa [same] using ih
        | some value =>
            have differs : (field == name) = false := beq_eq_false_iff_ne.mpr same
            simpa [List.lookup_cons, differs, same] using ih

theorem get?_projectedFields {field : String} (known : field ∈ traceFields) (trace : Value) :
    Value.get? (.object (projectedFields trace)) field =
      (stringAt trace field).map fun value => .string (boundedString value) := by
  have found := lookup_filterMap
    (fun name => (stringAt trace name).map fun value => .string (boundedString value))
    traceFields field
  rw [if_pos known] at found
  rw [← found, Value.get?, projectedFields]
  congr 2
  funext name
  cases stringAt trace name <;> rfl

theorem stringAt_projectedFields {field : String} (known : field ∈ traceFields)
    (trace : Value) :
    stringAt (.object (projectedFields trace)) field =
      (stringAt trace field).map boundedString := by
  rw [stringAt, get?_projectedFields known]
  cases stringAt trace field <;> rfl

/-- A root service that is no string does not hide a service that is one. -/
def Rooted (trace : Value) : Prop :=
  trace.get? "rootServiceName" = none ∨ (stringAt trace "rootServiceName").isSome ∨
    stringAt trace "service" = none

theorem traceService_projectedFields {trace : Value} (rooted : Rooted trace) :
    traceService (.object (projectedFields trace)) =
      (traceService trace).map boundedString := by
  have root : Value.get? (.object (projectedFields trace)) "rootServiceName" =
      (stringAt trace "rootServiceName").map fun value => .string (boundedString value) :=
    get?_projectedFields (by decide) trace
  have service : Value.get? (.object (projectedFields trace)) "service" =
      (stringAt trace "service").map fun value => .string (boundedString value) :=
    get?_projectedFields (by decide) trace
  rw [traceService, root, service, traceService]
  rcases rooted with absent | named | bare
  · have none : stringAt trace "rootServiceName" = none := by rw [stringAt, absent]; rfl
    rw [none, absent]
    change (((trace.get? "service").bind Value.asStr?).map _).bind _ =
      ((trace.get? "service").bind Value.asStr?).map _
    cases (trace.get? "service").bind Value.asStr? <;> rfl
  · obtain ⟨name, string⟩ := Option.isSome_iff_exists.mp named
    have field := string
    rw [stringAt, Option.bind_eq_some_iff] at field
    obtain ⟨value, present, isString⟩ := field
    rw [string, present]
    change some (boundedString name) = (value.asStr?).map _
    rw [isString]
    rfl
  · rw [bare]
    cases string : stringAt trace "rootServiceName" with
    | some name =>
        have field := string
        rw [stringAt, Option.bind_eq_some_iff] at field
        obtain ⟨value, present, isString⟩ := field
        rw [present]
        change some (boundedString name) = (value.asStr?).map _
        rw [isString]
        rfl
    | none =>
        cases present : trace.get? "rootServiceName" with
        | none =>
            change none = ((trace.get? "service").bind Value.asStr?).map _
            rw [stringAt] at bare
            rw [bare]
            rfl
        | some value =>
            rw [stringAt, present] at string
            change none = (value.asStr?).map _
            rw [show value.asStr? = none from string]
            rfl

theorem traceEntryChanges_projected {trace : Value} (rooted : Rooted trace) :
    traceEntryChanges id (.object (projectedFields trace)) =
      traceEntryChanges boundedString trace := by
  rw [traceEntryChanges, traceEntryChanges, traceService_projectedFields rooted,
    stringAt_projectedFields (by decide), stringAt_projectedFields (by decide)]
  cases traceService trace <;> cases stringAt trace "client" <;>
    cases stringAt trace "server" <;> rfl

theorem itemsAt_traces (projected : traceArtifactProjection output = some projection) :
    itemsAt projection "traces" = projectedTraces output := by
  unfold traceArtifactProjection at projected
  dsimp only at projected
  split at projected
  · cases projected
  · cases projected
    cases projectedTraces output <;> cases projectedBatches output <;> rfl

theorem itemsAt_batches (projected : traceArtifactProjection output = some projection) :
    itemsAt projection "batches" = projectedBatches output := by
  unfold traceArtifactProjection at projected
  dsimp only at projected
  split at projected
  · cases projected
  · cases projected
    cases projectedTraces output <;> cases projectedBatches output <;> rfl

theorem batchServices_projected (projected : traceArtifactProjection output = some projection) :
    batchServices projection =
      ((batchServices output).take maxArtifactProjectionItems).map boundedString := by
  have batches : projectedBatches output =
      ((batchServices output).take maxArtifactProjectionItems).map projectedBatch := by
    rw [projectedBatches, batchServices, ← List.map_filterMap, List.map_take]
  rw [batchServices, itemsAt_batches projected, batches, List.filterMap_map,
    ← List.filterMap_eq_map]
  rfl

theorem mem_windows_append {Item : Type} {pair : Item × Item} {items : List Item}
    (member : pair ∈ windows items) (later : List Item) : pair ∈ windows (items ++ later) := by
  induction items with
  | nil => exact absurd member List.not_mem_nil
  | cons first items ih =>
      cases items with
      | nil => exact absurd member List.not_mem_nil
      | cons second items =>
          rcases List.mem_cons.mp member with rfl | member
          · exact List.mem_cons_self
          · exact List.mem_cons_of_mem _ (ih member)

theorem windows_map {Item Image : Type} (image : Item → Image) (items : List Item) :
    windows (items.map image) =
      (windows items).map fun pair => (image pair.1, image pair.2) := by
  rw [windows, windows, ← List.map_tail, List.zip_map]
  rfl

theorem traceChanges_projected (projected : traceArtifactProjection output = some projection)
    (rooted : ∀ trace ∈ itemsAt output "traces", Rooted trace) {change : Change}
    (member : change ∈ traceChanges id projection) :
    change ∈ traceChanges boundedString output := by
  rw [traceChanges, itemsAt_traces projected, batchServices_projected projected] at member
  rcases List.mem_append.mp member with member | member
  · obtain ⟨entry, inside, asked⟩ := List.mem_flatMap.mp member
    obtain ⟨trace, given, shape⟩ := List.mem_filterMap.mp (List.mem_of_mem_take inside)
    unfold projectedTrace at shape
    split at shape
    · cases shape
    · cases shape
      rw [traceEntryChanges_projected (rooted trace given)] at asked
      exact List.mem_append_left _ (List.mem_flatMap.mpr ⟨trace, given, asked⟩)
  · obtain ⟨pair, inside, asked⟩ := List.mem_flatMap.mp member
    rw [windows_map] at inside
    obtain ⟨names, near, rfl⟩ := List.mem_map.mp inside
    have given := mem_windows_append near
      ((batchServices output).drop maxArtifactProjectionItems)
    rw [List.take_append_drop] at given
    exact List.mem_append_right _ (List.mem_flatMap.mpr ⟨names, given, asked⟩)

end Traces

section Objects

variable {output projection : Value}

theorem mem_collectMap {entry : String × Value} {entries : List (String × Value)}
    (member : entry ∈ collectMap entries) : entry ∈ entries := by
  have general : ∀ (later fields : List (String × Value)),
      entry ∈ later.foldl (fun fields entry =>
        upsert Prod.fst entry.1 (fun _ => entry) entry fields) fields →
      entry ∈ fields ∨ entry ∈ later := by
    intro later
    induction later with
    | nil => exact fun fields inside => .inl inside
    | cons first later ih =>
        intro fields inside
        rcases ih _ inside with inside | inside
        · rcases mem_upsert inside with kept | ⟨old, -, -, same⟩ | same
          · exact .inl kept
          · exact .inr (same ▸ List.mem_cons_self)
          · exact .inr (same ▸ List.mem_cons_self)
        · exact .inr (List.mem_cons_of_mem _ inside)
  exact (general entries [] member).elim (fun inside => absurd inside List.not_mem_nil) id

theorem ownerChanges_projected {node : String} {owner short : Value}
    (projected : projectedOwner owner = some short) :
    ownerChanges id node short = ownerChanges boundedString node owner := by
  obtain ⟨name, named, rfl⟩ := Option.map_eq_some_iff.mp projected
  rw [ownerChanges, ownerChanges, named]
  rfl

theorem selectorChanges_projected {node : String} {entry short : String × Value}
    (projected : projectedSelector entry = some short) :
    selectorChanges id node short = selectorChanges boundedString node entry := by
  obtain ⟨label, isString, rfl⟩ := Option.map_eq_some_iff.mp projected
  rw [selectorChanges, selectorChanges, isString]
  rfl

theorem width_of_service {kind : String}
    (same : eqIgnoreAsciiCase kind.toList "Service".toList = true) :
    (kind.toList.map Char.utf8Size).sum = 7 := by
  have sizes := congrArg (fun text => (text.map Char.utf8Size).sum) (of_decide_eq_true same)
  have kept (text : List Char) : (text.map Char.toLower).map Char.utf8Size =
      text.map Char.utf8Size := by
    rw [List.map_map]
    exact List.map_congr_left fun char _ => Redact.utf8Size_toLower char
  simp only [Strings.toAsciiLowercase, kept] at sizes
  rw [sizes]
  decide

/-- A kind is the kind of a service before it is cut if and only if it is afterwards. -/
theorem service_boundedString (kind : String) :
    eqIgnoreAsciiCase (boundedString kind).toList "Service".toList =
      eqIgnoreAsciiCase kind.toList "Service".toList := by
  by_cases short : (kind.toList.map Char.utf8Size).sum ≤ maxArtifactProjectionStringBytes
  · rw [boundedString_of_short short]
  · have wide := lt_takeBytes (Nat.lt_of_not_ge short)
    have before : eqIgnoreAsciiCase kind.toList "Service".toList = false := by
      refine Bool.eq_false_iff.mpr fun same => short ?_
      rw [width_of_service same]
      decide
    have after : eqIgnoreAsciiCase (boundedString kind).toList "Service".toList = false := by
      refine Bool.eq_false_iff.mpr fun same => ?_
      have width := width_of_service same
      rw [boundedString, String.toList_ofList] at width
      rw [width] at wide
      exact absurd wide (by decide)
    rw [before, after]

theorem k8sChanges_projected (projected : k8sArtifactProjection output = some projection)
    {change : Change} (member : change ∈ k8sChanges id projection) :
    change ∈ k8sChanges boundedString output := by
  obtain ⟨name, named, rfl⟩ := Option.map_eq_some_iff.mp projected
  rw [k8sChanges, named]
  have shown : k8sChanges id (.object [("object", .object
      [("kind", .string (boundedString (k8sKind output))),
        ("metadata", .object
          [("name", .string (boundedString name)),
            ("ownerReferences", .array (projectedOwners output))]),
        ("spec", .object [("selector", .object (projectedSelectors output))])])]) =
      .node (boundedString (k8sKind output)) (boundedString name) ::
        ((projectedOwners output).flatMap
            (ownerChanges id (nodeId (boundedString (k8sKind output)) (boundedString name))) ++
          if eqIgnoreAsciiCase (boundedString (k8sKind output)).toList "Service".toList then
            (projectedSelectors output).flatMap
              (selectorChanges id (nodeId (boundedString (k8sKind output)) (boundedString name)))
          else []) := rfl
  rw [shown, service_boundedString] at member
  rcases List.mem_cons.mp member with rfl | member
  · exact List.mem_cons_self
  · refine List.mem_cons_of_mem _ ?_
    rcases List.mem_append.mp member with member | member
    · refine List.mem_append_left _ ?_
      obtain ⟨short, inside, asked⟩ := List.mem_flatMap.mp member
      obtain ⟨owner, given, shape⟩ := List.mem_filterMap.mp (List.mem_of_mem_take inside)
      rw [ownerChanges_projected shape] at asked
      exact List.mem_flatMap.mpr ⟨owner, given, asked⟩
    · refine List.mem_append_right _ ?_
      split at member
      · rename_i service
        rw [if_pos service]
        obtain ⟨short, inside, asked⟩ := List.mem_flatMap.mp member
        obtain ⟨entry, given, shape⟩ :=
          List.mem_filterMap.mp (List.mem_of_mem_take (mem_collectMap inside))
        rw [selectorChanges_projected shape] at asked
        exact List.mem_flatMap.mpr ⟨entry, given, asked⟩
      · exact absurd member List.not_mem_nil

end Objects

/-- The graph of an output whose kinds and names are cut before they are used. -/
def projectCut (cut : String → String) (workspaceId : WorkspaceId) (now : DateTime)
    (tool : String) (evidence : EvidenceMeta) (output : Value) : TopologyGraph :=
  applyAll workspaceId evidence now .empty (toolChanges cut tool output)

/-- Without cuts it is the graph of the output. -/
theorem projectTool_eq_projectCut (workspaceId : WorkspaceId) (now : DateTime) (tool : String)
    (evidence : EvidenceMeta) (output : Value) :
    projectTool workspaceId now .empty tool evidence output =
      projectCut id workspaceId now tool evidence output :=
  projectTool_eq tool output

theorem toolChanges_projected {toVec : Value → List UInt8} {tool : String}
    {output projection : Value}
    (projected : artifactTopologyProjection toVec tool output = some projection)
    (rooted : tool ≠ "k8s_get" → ∀ trace ∈ itemsAt output "traces", Rooted trace)
    {change : Change} (member : change ∈ toolChanges id tool projection) :
    change ∈ toolChanges boundedString tool output := by
  unfold artifactTopologyProjection at projected
  have projected := (Option.filter_eq_some_iff.mp projected).1
  unfold toolChanges at member ⊢
  by_cases k8s : tool = "k8s_get"
  · subst k8s
    rw [if_neg (by decide), if_pos rfl] at projected
    rw [if_pos rfl] at member ⊢
    exact k8sChanges_projected projected member
  · rw [if_neg k8s] at member projected ⊢
    by_cases trace : tool = "trace_search" ∨ tool = "trace_get"
    · rw [if_pos trace] at member projected ⊢
      exact traceChanges_projected projected (rooted k8s) member
    · rw [if_neg trace] at projected
      cases projected

/-- The projection of an artifact gives no node and no edge that the full output would not
give with its kinds and names cut to 64 bytes. -/
theorem projection_subset {toVec : Value → List UInt8} {tool : String}
    {output projection : Value}
    (projected : artifactTopologyProjection toVec tool output = some projection)
    (rooted : tool ≠ "k8s_get" → ∀ trace ∈ itemsAt output "traces", Rooted trace)
    (workspaceId : WorkspaceId) (now : DateTime) (evidence : EvidenceMeta) :
    (projectTool workspaceId now .empty tool evidence projection).ids ⊆
        (projectCut boundedString workspaceId now tool evidence output).ids ∧
      (projectTool workspaceId now .empty tool evidence projection).keys ⊆
        (projectCut boundedString workspaceId now tool evidence output).keys := by
  rw [projectTool_eq_projectCut]
  unfold projectCut
  constructor
  · intro id member
    rcases mem_ids_applyAll.mp member with old | asked
    · exact mem_ids_applyAll.mpr (.inl old)
    · obtain ⟨change, inside, own⟩ := List.mem_filterMap.mp asked
      exact mem_ids_applyAll.mpr (.inr (List.mem_filterMap.mpr
        ⟨change, toolChanges_projected projected rooted inside, own⟩))
  · intro key member
    rcases mem_keys_applyAll.mp member with old | asked
    · exact mem_keys_applyAll.mpr (.inl old)
    · obtain ⟨change, inside, own⟩ := List.mem_filterMap.mp asked
      exact mem_keys_applyAll.mpr (.inr (List.mem_filterMap.mpr
        ⟨change, toolChanges_projected projected rooted inside, own⟩))

namespace Demo.Projection

/-- A trace between two services. -/
def called : Value := .object [("traces", .array [.object
  [("client", .string "gateway"), ("server", .string "orders")]])]

def calledText : String :=
  "\x7b\"traces\":[\x7b\"client\":\"gateway\",\"server\":\"orders\"\x7d]\x7d"

def longName : String := String.ofList (List.replicate 65 'a')

def shortName : String := String.ofList (List.replicate 64 'a')

/-- A trace of a service with a name of 65 bytes. -/
def named (name : String) : Value := .object
  [("traces", .array [.object [("service", .string name)]])]

def namedText : String :=
  "\x7b\"traces\":[\x7b\"service\":\"" ++ shortName ++ "\"\x7d]\x7d"

theorem projected_called :
    artifactTopologyProjection (fun _ => Action.utf8 calledText) "trace_search" called =
      some called := by
  have size : (Action.utf8 calledText).length = 51 := by
    rw [Action.utf8_eq_flatMap]
    decide
  have projection : traceArtifactProjection called = some called := rfl
  rw [artifactTopologyProjection, if_pos (.inl rfl), projection]
  exact if_pos (by rw [size]; decide)

theorem projected_named :
    artifactTopologyProjection (fun _ => Action.utf8 namedText) "trace_search" (named longName) =
      some (named shortName) := by
  have size : (Action.utf8 namedText).length = 91 := by
    rw [Action.utf8_eq_flatMap]
    decide
  have projection : traceArtifactProjection (named longName) = some (named shortName) := rfl
  rw [artifactTopologyProjection, if_pos (.inl rfl), projection]
  exact if_pos (by rw [size]; decide)

end Demo.Projection

open Demo.Projection in
theorem projection_subset_called :
    (projectTool .default 0 .empty "trace_search" (alertEvidence 0) called).ids ⊆
        (projectCut boundedString .default 0 "trace_search" (alertEvidence 0) called).ids ∧
      (projectTool .default 0 .empty "trace_search" (alertEvidence 0) called).keys ⊆
        (projectCut boundedString .default 0 "trace_search" (alertEvidence 0) called).keys :=
  projection_subset projected_called (fun _ trace member => by
    obtain rfl := List.mem_singleton.mp member
    exact .inl rfl) .default 0 (alertEvidence 0)

open Demo.Projection in
/-- A name of more than 64 bytes names another node in the projection. -/
theorem projection_renames : ¬ ∀ (toVec : Value → List UInt8) (tool : String)
    (output projection : Value),
    artifactTopologyProjection toVec tool output = some projection →
    (projectTool .default 0 .empty tool (alertEvidence 0) projection).ids ⊆
      (projectTool .default 0 .empty tool (alertEvidence 0) output).ids := by
  intro always
  have subset := always _ _ _ _ projected_named
  have short : nodeId "service" shortName ∈
      (projectTool .default 0 .empty "trace_search" (alertEvidence 0) (named shortName)).ids :=
    List.mem_cons_self
  have long : (projectTool .default 0 .empty "trace_search" (alertEvidence 0)
      (named longName)).ids = [nodeId "service" longName] := rfl
  have same := List.mem_singleton.mp (long ▸ subset short)
  exact absurd same (by decide)

end OpsCodex.Topology
