import OpsCodex.Error
import OpsCodex.Extensions.McpFraming
import OpsCodex.Sequence.Segments

/-! Which object of a cluster a request reads. The policy of a workspace allows kinds and
namespaces, and the request is sent to the path that the kind, the namespace and the name
are written into. -/

set_option autoImplicit false

namespace OpsCodex.Kubernetes

open OpsCodex.Strings (eqIgnoreAsciiCase)

def forbiddenKinds : List String := ["Secret"]

def forbiddenSubresources : List String := ["exec", "attach", "portforward", "proxy", "eviction"]

structure KubernetesPolicy where
  clusterAlias : String
  allowedNamespaces : List String
  allowedKinds : List String

def normalizeKind (kind : String) : String :=
  let lower := String.ofList (kind.toList.map Char.toLower)
  if ["namespaces"].contains lower then "Namespace"
  else if ["pods", "pod"].contains lower then "Pod"
  else if ["services", "svc", "service"].contains lower then "Service"
  else if ["deployments", "deploy", "deployment"].contains lower then "Deployment"
  else if ["statefulsets", "sts", "statefulset"].contains lower then "StatefulSet"
  else if ["daemonsets", "ds", "daemonset"].contains lower then "DaemonSet"
  else if ["jobs", "job"].contains lower then "Job"
  else if ["nodes", "node"].contains lower then "Node"
  else if ["events", "event"].contains lower then "Event"
  else if ["endpointslices", "endpointslice"].contains lower then "EndpointSlice"
  else kind

namespace KubernetesPolicy

def allowsKind (policy : KubernetesPolicy) (kind : String) : Bool :=
  let kind := normalizeKind kind
  !(forbiddenKinds.any fun item => eqIgnoreAsciiCase item.toList kind.toList) &&
    policy.allowedKinds.any fun allowed => eqIgnoreAsciiCase allowed.toList kind.toList

def allowsNamespace (policy : KubernetesPolicy) (namespaceName : String) : Bool :=
  policy.allowedNamespaces.contains namespaceName

end KubernetesPolicy

def authorize (policy : KubernetesPolicy) (kind : String) (namespaceName : Option String) :
    Result Unit :=
  if !policy.allowsKind kind then
    .error (.policy (s!"Kubernetes kind `{kind}` is not allowlisted in cluster " ++
      s!"{policy.clusterAlias}"))
  else if kind = "Node" then .ok ()
  else
    match namespaceName with
    | none => .error (.policy s!"Kubernetes kind `{kind}` requires a namespace")
    | some named =>
        if !policy.allowsNamespace named then
          .error (.policy s!"namespace `{named}` is outside workspace allowlist")
        else .ok ()

def namespaced (group : String) (namespaceName : Option String) (resource nameSuffix : String) :
    Result String :=
  match namespaceName with
  | none => .error (.policy s!"Kubernetes resource `{resource}` requires a namespace")
  | some named => .ok (group ++ "/" ++ named ++ "/" ++ resource ++ nameSuffix)

/-- Where the objects of a kind with namespaces are, and what they are called there. -/
def collection (kind : String) : Option (String × String) :=
  if kind = "Pod" then some ("/api/v1/namespaces", "pods")
  else if kind = "Service" then some ("/api/v1/namespaces", "services")
  else if kind = "Event" then some ("/api/v1/namespaces", "events")
  else if kind = "Deployment" then some ("/apis/apps/v1/namespaces", "deployments")
  else if kind = "StatefulSet" then some ("/apis/apps/v1/namespaces", "statefulsets")
  else if kind = "DaemonSet" then some ("/apis/apps/v1/namespaces", "daemonsets")
  else if kind = "Job" then some ("/apis/batch/v1/namespaces", "jobs")
  else if kind = "EndpointSlice" then
    some ("/apis/discovery.k8s.io/v1/namespaces", "endpointslices")
  else none

def resourcePath (kind : String) (namespaceName name : Option String) : Result String :=
  let nameSuffix := (name.map fun name => "/" ++ name).getD ""
  if kind = "Namespace" then
    match name with
    | none => .error (.policy "k8s_get Namespace requires name")
    | some name => .ok ("/api/v1/namespaces/" ++ name)
  else if kind = "Node" then
    match name with
    | none => .error (.policy "k8s_get Node requires name")
    | some name => .ok ("/api/v1/nodes/" ++ name)
  else
    match collection kind with
    | some (group, resource) => namespaced group namespaceName resource nameSuffix
    | none => .error (.policy s!"Kubernetes kind `{kind}` is not a discovered GVK")

def pathSegments (path : String) : List (List Char) := Segments.split '/' path.toList

def trimEndSlashes (path : String) : List Char :=
  (path.toList.reverse.dropWhile fun char => decide (char = '/')).reverse

/-- The path under the base of the cluster, unless it names a forbidden subresource. -/
def join (base path : String) : Result String :=
  if forbiddenSubresources.any fun item =>
      (pathSegments path).any fun segment => eqIgnoreAsciiCase segment item.toList then
    .error (.policy "Kubernetes subresource is not permitted")
  else
    let suffix := if path.toList.head? = some '/' then path else "/" ++ path
    .ok (String.ofList (trimEndSlashes base ++ suffix.toList))

/-- The path of a `get_resource` request. -/
def getResourcePath (policy : KubernetesPolicy) (base kind : String)
    (namespaceName name : Option String) : Result String := do
  let kind := normalizeKind kind
  authorize policy kind namespaceName
  let path ← resourcePath kind namespaceName name
  join base path

/-- The path of a `pod_logs` request. -/
def podLogsPath (policy : KubernetesPolicy) (base namespaceName pod : String) : Result String := do
  authorize policy "Pod" (some namespaceName)
  join base ("/api/v1/namespaces/" ++ namespaceName ++ "/pods/" ++ pod ++ "/log")

/-- The path of a `list_events` request. -/
def listEventsPath (policy : KubernetesPolicy) (base namespaceName : String) : Result String := do
  authorize policy "Event" (some namespaceName)
  join base ("/api/v1/namespaces/" ++ namespaceName ++ "/events")

section Dots

def singleDot (segment : List Char) : Bool :=
  [".", "%2e"].any fun dot => eqIgnoreAsciiCase segment dot.toList

def doubleDot (segment : List Char) : Bool :=
  ["..", ".%2e", "%2e.", "%2e%2e"].any fun dots => eqIgnoreAsciiCase segment dots.toList

/-- The segments that a URL keeps of a path: dot segments are resolved when it is set. -/
def resolveDots : List (List Char) → List (List Char) → List (List Char)
  | kept, [] => kept.reverse
  | kept, segment :: rest =>
      if doubleDot segment then
        resolveDots (if rest.isEmpty then [] :: kept.tail else kept.tail) rest
      else if singleDot segment then
        resolveDots (if rest.isEmpty then [] :: kept else kept) rest
      else resolveDots (segment :: kept) rest

/-- The segments of a path behind its leading slash, without dot segments. -/
def requested (path : String) : List (List Char) := resolveDots [] (pathSegments path).tail

/-- Characters that a URL takes for a slash, or strips, when its path is set. -/
def rewritten (char : Char) : Bool := ['\\', '\t', '\n', '\r'].contains char

/-- Paths of which a URL keeps every character, percent-encoded where it has to be. -/
def Literal (path : String) : Prop := ∀ char ∈ path.toList, rewritten char = false

instance (path : String) : Decidable (Literal path) := List.decidableBAll _ path.toList

/-- The library of URLs: the segments of the request line after a path is set, and the
percent-encoding of one. -/
structure UrlLibrary where
  setPath : String → List (List Char)
  percentEncode : List Char → List Char

/-- Dot segments of a literal path are resolved when it is set, and the others encoded. -/
def UrlLibrary.Lawful (url : UrlLibrary) : Prop :=
  ∀ path, Literal path → url.setPath path = (requested path).map url.percentEncode

def dotless (segment : List Char) : Prop := singleDot segment = false ∧ doubleDot segment = false

instance (segment : List Char) : Decidable (dotless segment) :=
  inferInstanceAs (Decidable (_ ∧ _))

theorem resolveDots_dotless {segments : List (List Char)}
    (plain : ∀ segment ∈ segments, dotless segment) (kept : List (List Char)) :
    resolveDots kept segments = kept.reverse ++ segments := by
  induction segments generalizing kept with
  | nil => rw [resolveDots, List.append_nil]
  | cons segment rest ih =>
      obtain ⟨single, double⟩ := plain segment List.mem_cons_self
      rw [resolveDots, double, if_neg Bool.false_ne_true, single, if_neg Bool.false_ne_true,
        ih fun other member => plain other (List.mem_cons_of_mem segment member)]
      simp

theorem resolveDots_append {segments : List (List Char)}
    (plain : ∀ segment ∈ segments, dotless segment) (kept rest : List (List Char)) :
    resolveDots kept (segments ++ rest) = resolveDots (segments.reverse ++ kept) rest := by
  induction segments generalizing kept with
  | nil => rfl
  | cons segment later ih =>
      obtain ⟨single, double⟩ := plain segment List.mem_cons_self
      rw [List.cons_append, resolveDots, double, if_neg Bool.false_ne_true, single,
        if_neg Bool.false_ne_true,
        ih fun other member => plain other (List.mem_cons_of_mem segment member)]
      simp

end Dots

/-- The base of a cluster: the path of a URL, whose dot segments are resolved. -/
structure Rooted (base : String) : Prop where
  literal : Literal base
  slash : trimEndSlashes base = [] ∨ (trimEndSlashes base).head? = some '/'
  plain : ∀ segment ∈ Segments.split '/' (trimEndSlashes base), dotless segment

def baseSegments (base : String) : List (List Char) :=
  (Segments.split '/' (trimEndSlashes base)).tail

/-- A name that stays one segment. -/
structure Single (text : String) : Prop where
  whole : '/' ∉ text.toList
  literal : Literal text
  plain : dotless text.toList

/-- The path of a resource is that of a named namespace, of a node, or of the objects of a kind in
a namespace. -/
theorem resourcePath_cases {kind written : String} {namespaceName name : Option String}
    (built : resourcePath kind namespaceName name = .ok written) :
    (kind = "Namespace" ∧ ∃ text, name = some text ∧ written = "/api/v1/namespaces/" ++ text) ∨
      (kind = "Node" ∧ ∃ text, name = some text ∧ written = "/api/v1/nodes/" ++ text) ∨
      (kind ≠ "Node" ∧ ∃ group resource named, collection kind = some (group, resource) ∧
        namespaceName = some named ∧
        written = group ++ "/" ++ named ++ "/" ++ resource ++
          (name.map fun name => "/" ++ name).getD "") := by
  unfold resourcePath at built
  dsimp only at built
  split at built
  · rename_i namespaceKind
    cases name with
    | none => cases built
    | some text =>
        cases built
        exact .inl ⟨namespaceKind, text, rfl, rfl⟩
  · split at built
    · rename_i nodeKind
      cases name with
      | none => cases built
      | some text =>
          cases built
          exact .inr (.inl ⟨nodeKind, text, rfl, rfl⟩)
    · rename_i other
      split at built
      · rename_i group resource found
        cases namespaceName with
        | none => cases built
        | some named =>
            cases built
            exact .inr (.inr ⟨other, group, resource, named, found, rfl, rfl⟩)
      · cases built

section Literals

theorem literal_append {left right : String} :
    Literal (left ++ right) ↔ Literal left ∧ Literal right := by
  simp only [Literal, String.toList_append, List.forall_mem_append]

theorem literal_join {base path joined : String} (baseLiteral : Literal base)
    (pathLiteral : Literal path) (accepted : join base path = .ok joined) : Literal joined := by
  unfold join at accepted
  split at accepted
  · cases accepted
  · cases accepted
    intro char member
    rw [String.toList_ofList] at member
    rcases List.mem_append.mp member with trimmed | suffix
    · have kept : char ∈ base.toList.reverse :=
        (List.dropWhile_sublist _).subset (List.mem_reverse.mp trimmed)
      exact baseLiteral char (List.mem_reverse.mp kept)
    · split at suffix
      · exact pathLiteral char suffix
      · exact literal_append.mpr ⟨by decide, pathLiteral⟩ char suffix

theorem collection_literal {kind group resource : String}
    (found : collection kind = some (group, resource)) : Literal group ∧ Literal resource := by
  unfold collection at found
  repeat' split at found
  all_goals
    cases found
  all_goals
    exact ⟨by decide, by decide⟩

theorem literal_nameSuffix {name : Option String}
    (nameSingle : ∀ text, name = some text → Single text) :
    Literal ((name.map fun name => "/" ++ name).getD "") := by
  cases name with
  | none => exact nofun
  | some text => exact literal_append.mpr ⟨by decide, (nameSingle text rfl).literal⟩

/-- The path of single names is literal. -/
theorem literal_resourcePath {kind written : String} {namespaceName name : Option String}
    (namespaceSingle : ∀ text, namespaceName = some text → Single text)
    (nameSingle : ∀ text, name = some text → Single text)
    (built : resourcePath kind namespaceName name = .ok written) : Literal written := by
  obtain ⟨-, text, wanted, rfl⟩ | ⟨-, text, wanted, rfl⟩ |
    ⟨-, group, resource, named, found, given, rfl⟩ := resourcePath_cases built
  · exact literal_append.mpr ⟨by decide, (nameSingle text wanted).literal⟩
  · exact literal_append.mpr ⟨by decide, (nameSingle text wanted).literal⟩
  · obtain ⟨groupLiteral, resourceLiteral⟩ := collection_literal found
    simp only [literal_append]
    exact ⟨⟨⟨⟨⟨groupLiteral, by decide⟩, (namespaceSingle named given).literal⟩, by decide⟩,
      resourceLiteral⟩, literal_nameSuffix nameSingle⟩

end Literals

theorem split_base {base : String} (rooted : Rooted base) :
    Segments.split '/' (trimEndSlashes base) = [] :: baseSegments base := by
  unfold baseSegments
  rcases rooted.slash with empty | slash
  · rw [empty]
    rfl
  · cases trimmed : trimEndSlashes base with
    | nil => rfl
    | cons first rest =>
        rw [trimmed] at slash
        obtain rfl := Option.some.inj slash
        rw [Segments.split, if_pos rfl]
        rfl

/-- The segments asked for of a path under the base. -/
theorem requested_join {base path : String} {joined : String} {rest : List Char}
    (rooted : Rooted base) (absolute : path.toList = '/' :: rest)
    (accepted : join base path = .ok joined) :
    requested joined =
      resolveDots (baseSegments base).reverse (Segments.split '/' rest) := by
  unfold join at accepted
  split at accepted
  · cases accepted
  · cases accepted
    have plain : ∀ segment ∈ baseSegments base, dotless segment :=
      fun segment member => rooted.plain segment (List.mem_of_mem_tail member)
    rw [requested, pathSegments, absolute, if_pos List.head?_cons]
    simp only [String.toList_ofList]
    rw [absolute, Segments.split_append, split_base rooted, List.cons_append, List.tail_cons,
      resolveDots_append plain, List.append_nil]

theorem requested_plain {base path : String} {joined : String} {rest : List Char}
    (rooted : Rooted base) (absolute : path.toList = '/' :: rest)
    (accepted : join base path = .ok joined)
    (plain : ∀ segment ∈ Segments.split '/' rest, dotless segment) :
    requested joined = baseSegments base ++ Segments.split '/' rest := by
  rw [requested_join rooted absolute accepted, resolveDots_dotless plain, List.reverse_reverse]

theorem authorize_ok {policy : KubernetesPolicy} {kind : String} {namespaceName : Option String}
    (accepted : authorize policy kind namespaceName = .ok ()) :
    policy.allowsKind kind = true ∧ (kind ≠ "Node" → ∃ named, namespaceName = some named ∧
      named ∈ policy.allowedNamespaces) := by
  unfold authorize at accepted
  split at accepted
  · cases accepted
  · rename_i allowed
    have kindAllowed : policy.allowsKind kind = true := by simpa using allowed
    split at accepted
    · rename_i node
      exact ⟨kindAllowed, fun other => absurd node other⟩
    · cases namespaceName with
      | none => cases accepted
      | some named =>
          dsimp only at accepted
          split at accepted
          · cases accepted
          · rename_i inside
            refine ⟨kindAllowed, fun _ => ⟨named, rfl, ?_⟩⟩
            simpa [KubernetesPolicy.allowsNamespace] using inside

/-- A kind that the policy allows is not a secret, however it is written. -/
theorem not_secret_of_allowed {policy : KubernetesPolicy} {kind : String}
    (allowed : policy.allowsKind kind = true) :
    eqIgnoreAsciiCase "Secret".toList (normalizeKind kind).toList = false := by
  rw [KubernetesPolicy.allowsKind, Bool.and_eq_true] at allowed
  simpa [forbiddenKinds] using allowed.1

theorem collection_plain {kind group resource : String}
    (found : collection kind = some (group, resource)) :
    ∃ rest, group.toList = '/' :: rest ∧
      (∀ segment ∈ Segments.split '/' rest, dotless segment) ∧ Single resource := by
  unfold collection at found
  repeat' split at found
  all_goals
    cases found
  all_goals
    exact ⟨_, rfl, by decide, by decide, by decide, by decide⟩

/-- The segments of an object of a namespace. -/
theorem split_namespaced {rest : List Char} {named resource : String} {name : Option String}
    (namedSingle : Single named) (resourceSingle : Single resource)
    (nameSingle : ∀ text, name = some text → Single text) :
    Segments.split '/' (rest ++ '/' :: (named.toList ++ '/' :: (resource.toList ++
      ((name.map fun name => "/" ++ name).getD "").toList))) =
      Segments.split '/' rest ++ named.toList :: resource.toList ::
        (name.map String.toList).toList := by
  rw [Segments.split_append, Segments.split_append, Segments.split_of_not_mem namedSingle.whole]
  cases name with
  | none =>
      have same : resource.toList ++
          ((Option.map (fun name => "/" ++ name) none).getD "").toList = resource.toList :=
        List.append_nil _
      rw [same, Segments.split_of_not_mem resourceSingle.whole]
      rfl
  | some text =>
      have same : resource.toList ++
          ((Option.map (fun name => "/" ++ name) (some text)).getD "").toList =
            resource.toList ++ '/' :: text.toList := by
        rw [Option.map_some, Option.getD_some, String.toList_append]
        rfl
      rw [same, Segments.split_append, Segments.split_of_not_mem resourceSingle.whole,
        Segments.split_of_not_mem (nameSingle text rfl).whole]
      rfl

/-- What a request reads when the namespace and the name are single segments. -/
inductive Reads (policy : KubernetesPolicy) (namespaceName name : Option String) :
    String → List (List Char) → Prop where
  | namespaced {kind group resource named : String}
      (found : collection kind = some (group, resource)) (given : namespaceName = some named)
      (allowed : named ∈ policy.allowedNamespaces) :
      Reads policy namespaceName name kind ((pathSegments group).tail ++
        named.toList :: resource.toList :: (name.map String.toList).toList)
  | node {wanted : String} (given : name = some wanted) :
      Reads policy namespaceName name "Node"
        ["api".toList, "v1".toList, "nodes".toList, wanted.toList]
  | ofNamespace {wanted named : String} (given : name = some wanted)
      (situated : namespaceName = some named) (allowed : named ∈ policy.allowedNamespaces) :
      Reads policy namespaceName name "Namespace"
        ["api".toList, "v1".toList, "namespaces".toList, wanted.toList]

theorem requested_named {base joined wanted : String} (group : String) (segments : List Char)
    (rooted : Rooted base) (single : Single wanted)
    (written : (group ++ wanted).toList = '/' :: (segments ++ '/' :: wanted.toList))
    (plain : ∀ segment ∈ Segments.split '/' segments, dotless segment)
    (accepted : join base (group ++ wanted) = .ok joined) :
    requested joined = baseSegments base ++ (Segments.split '/' segments ++ [wanted.toList]) := by
  have cut : Segments.split '/' (segments ++ '/' :: wanted.toList) =
      Segments.split '/' segments ++ [wanted.toList] := by
    rw [Segments.split_append, Segments.split_of_not_mem single.whole]
  rw [requested_plain rooted written accepted, cut]
  rw [cut]
  intro segment member
  rcases List.mem_append.mp member with early | last
  · exact plain segment early
  · obtain rfl := List.mem_singleton.mp last
    exact single.plain

theorem getResourcePath_ok_iff {policy : KubernetesPolicy} {base kind path : String}
    {namespaceName name : Option String} :
    getResourcePath policy base kind namespaceName name = .ok path ↔
      authorize policy (normalizeKind kind) namespaceName = .ok () ∧
        ∃ written, resourcePath (normalizeKind kind) namespaceName name = .ok written ∧
          join base written = .ok path := by
  unfold getResourcePath
  dsimp only
  cases authorize policy (normalizeKind kind) namespaceName with
  | error error => exact iff_of_false nofun nofun
  | ok done =>
      cases resourcePath (normalizeKind kind) namespaceName name with
      | error error => exact iff_of_false nofun nofun
      | ok text =>
          constructor
          · intro joined
            exact ⟨rfl, text, rfl, joined⟩
          · intro ⟨_, _, same, joined⟩
            cases same
            exact joined

theorem authorized_join {policy : KubernetesPolicy} {base kind named written path : String}
    (situated : kind ≠ "Node")
    (accepted : (do authorize policy kind (some named); join base written) = .ok path) :
    named ∈ policy.allowedNamespaces ∧ join base written = .ok path := by
  cases permitted : authorize policy kind (some named) with
  | error error =>
      rw [permitted] at accepted
      cases accepted
  | ok done =>
      rw [permitted] at accepted
      obtain ⟨other, same, inside⟩ := (authorize_ok permitted).2 situated
      cases same
      exact ⟨inside, accepted⟩

section Requests

variable {url : UrlLibrary} {policy : KubernetesPolicy} {base : String}

theorem setPath_join {written path : String} (lawful : url.Lawful) (rooted : Rooted base)
    (literal : Literal written) (joined : join base written = .ok path) :
    url.setPath path = (requested path).map url.percentEncode :=
  lawful path (literal_join rooted.literal literal joined)

/-- What the request for the logs of a pod reads. -/
theorem podLogs_confined {namespaceName pod path : String} (lawful : url.Lawful)
    (rooted : Rooted base) (namespaceSingle : Single namespaceName) (podSingle : Single pod)
    (accepted : podLogsPath policy base namespaceName pod = .ok path) :
    namespaceName ∈ policy.allowedNamespaces ∧
      url.setPath path = (baseSegments base ++ ["api".toList, "v1".toList, "namespaces".toList,
        namespaceName.toList, "pods".toList, pod.toList, "log".toList]).map url.percentEncode := by
  obtain ⟨inside, joined⟩ := authorized_join (by decide) accepted
  have literal : Literal ("/api/v1/namespaces/" ++ namespaceName ++ "/pods/" ++ pod ++ "/log") := by
    simp only [literal_append]
    exact ⟨⟨⟨⟨by decide, namespaceSingle.literal⟩, by decide⟩, podSingle.literal⟩, by decide⟩
  have cut : Segments.split '/' ("api/v1/namespaces".toList ++ '/' :: (namespaceName.toList ++
      '/' :: ("pods".toList ++ '/' :: (pod.toList ++ '/' :: "log".toList)))) =
      ["api".toList, "v1".toList, "namespaces".toList, namespaceName.toList, "pods".toList,
        pod.toList, "log".toList] := by
    rw [Segments.split_append, Segments.split_append, Segments.split_append,
      Segments.split_append, Segments.split_of_not_mem namespaceSingle.whole,
      Segments.split_of_not_mem podSingle.whole]
    rfl
  have written : ("/api/v1/namespaces/" ++ namespaceName ++ "/pods/" ++ pod ++ "/log").toList =
      '/' :: ("api/v1/namespaces".toList ++ '/' :: (namespaceName.toList ++ '/' ::
        ("pods".toList ++ '/' :: (pod.toList ++ '/' :: "log".toList)))) := by
    simp only [String.toList_append]
    simp
  refine ⟨inside, ?_⟩
  rw [setPath_join lawful rooted literal joined, requested_plain rooted written joined, cut]
  rw [cut]
  simp only [List.forall_mem_cons]
  exact ⟨by decide, by decide, by decide, namespaceSingle.plain, by decide, podSingle.plain,
    by decide, nofun⟩

/-- What the request for the events of a namespace reads. -/
theorem listEvents_confined {namespaceName path : String} (lawful : url.Lawful)
    (rooted : Rooted base) (namespaceSingle : Single namespaceName)
    (accepted : listEventsPath policy base namespaceName = .ok path) :
    namespaceName ∈ policy.allowedNamespaces ∧
      url.setPath path = (baseSegments base ++ ["api".toList, "v1".toList, "namespaces".toList,
        namespaceName.toList, "events".toList]).map url.percentEncode := by
  obtain ⟨inside, joined⟩ := authorized_join (by decide) accepted
  have literal : Literal ("/api/v1/namespaces/" ++ namespaceName ++ "/events") := by
    simp only [literal_append]
    exact ⟨⟨by decide, namespaceSingle.literal⟩, by decide⟩
  have cut : Segments.split '/' ("api/v1/namespaces".toList ++ '/' :: (namespaceName.toList ++
      '/' :: "events".toList)) =
      ["api".toList, "v1".toList, "namespaces".toList, namespaceName.toList,
        "events".toList] := by
    rw [Segments.split_append, Segments.split_append,
      Segments.split_of_not_mem namespaceSingle.whole]
    rfl
  have written : ("/api/v1/namespaces/" ++ namespaceName ++ "/events").toList =
      '/' :: ("api/v1/namespaces".toList ++ '/' :: (namespaceName.toList ++ '/' ::
        "events".toList)) := by
    simp only [String.toList_append]
    simp
  refine ⟨inside, ?_⟩
  rw [setPath_join lawful rooted literal joined, requested_plain rooted written joined, cut]
  rw [cut]
  simp only [List.forall_mem_cons]
  exact ⟨by decide, by decide, by decide, namespaceSingle.plain, by decide, nofun⟩

/-- What a request of `k8s_get` reads whose namespace and name are single segments. -/
theorem getResource_confined {kind path : String} {namespaceName name : Option String}
    (lawful : url.Lawful) (rooted : Rooted base)
    (namespaceSingle : ∀ text, namespaceName = some text → Single text)
    (nameSingle : ∀ text, name = some text → Single text)
    (accepted : getResourcePath policy base kind namespaceName name = .ok path) :
    ∃ segments, url.setPath path = (baseSegments base ++ segments).map url.percentEncode ∧
      Reads policy namespaceName name (normalizeKind kind) segments ∧
      policy.allowsKind (normalizeKind kind) = true ∧
      eqIgnoreAsciiCase "Secret".toList (normalizeKind (normalizeKind kind)).toList = false := by
  obtain ⟨permitted, written, resource, joined⟩ := getResourcePath_ok_iff.mp accepted
  obtain ⟨allowed, situated⟩ := authorize_ok permitted
  have literal := literal_resourcePath namespaceSingle nameSingle resource
  suffices reads : ∃ segments, requested path = baseSegments base ++ segments ∧
      Reads policy namespaceName name (normalizeKind kind) segments by
    obtain ⟨segments, same, reads⟩ := reads
    refine ⟨segments, ?_, reads, allowed, not_secret_of_allowed allowed⟩
    rw [setPath_join lawful rooted literal joined, same]
  generalize normalizeKind kind = canonical at resource situated ⊢
  obtain ⟨rfl, text, wanted, rfl⟩ | ⟨rfl, text, wanted, rfl⟩ |
    ⟨other, group, resourceName, named, found, given, rfl⟩ := resourcePath_cases resource
  · obtain ⟨named, given, inside⟩ := situated (by decide)
    subst wanted
    refine ⟨_, requested_named _ "api/v1/namespaces".toList rooted (nameSingle text rfl)
      (by rw [String.toList_append]; rfl) (by decide) joined, ?_⟩
    exact .ofNamespace rfl given inside
  · subst wanted
    refine ⟨_, requested_named _ "api/v1/nodes".toList rooted (nameSingle text rfl)
      (by rw [String.toList_append]; rfl) (by decide) joined, ?_⟩
    exact .node rfl
  · obtain ⟨named', given', inside⟩ := situated other
    rw [given] at given'
    cases given'
    obtain ⟨rest, absolute, plain, resourceSingle⟩ := collection_plain found
    have namedSingle := namespaceSingle named given
    have cut := @split_namespaced rest named resourceName name namedSingle resourceSingle
      nameSingle
    have written : (group ++ "/" ++ named ++ "/" ++ resourceName ++
        (name.map fun name => "/" ++ name).getD "").toList =
          '/' :: (rest ++ '/' :: (named.toList ++ '/' :: (resourceName.toList ++
            ((name.map fun name => "/" ++ name).getD "").toList))) := by
      simp only [String.toList_append, absolute]
      simp
    refine ⟨_, ?_, .namespaced found given inside⟩
    rw [requested_plain rooted written joined, cut]
    · rw [pathSegments, absolute, Segments.split, if_pos rfl, List.tail_cons]
    · rw [cut]
      intro segment member
      obtain early | rfl | rfl | last : segment ∈ Segments.split '/' rest ∨
          segment = named.toList ∨ segment = resourceName.toList ∨
          segment ∈ (name.map String.toList).toList := by simpa using member
      · exact plain segment early
      · exact namedSingle.plain
      · exact resourceSingle.plain
      · obtain ⟨text, wanted, rfl⟩ : ∃ text, name = some text ∧ text.toList = segment := by
          simpa using last
        exact (nameSingle text wanted).plain

end Requests

/-- The requests whose namespace and name are single segments read what the policy allows: an
object of an allowed kind, which is no secret, and under an allowed namespace if the kind has
them. The name of a `Namespace` is not compared with the allowed ones. -/
theorem requests_confined (url : UrlLibrary) (lawful : url.Lawful) (policy : KubernetesPolicy)
    (base : String) (rooted : Rooted base) :
    (∀ kind namespaceName name path,
      (∀ text, namespaceName = some text → Single text) →
      (∀ text, name = some text → Single text) →
      getResourcePath policy base kind namespaceName name = .ok path →
      ∃ segments, url.setPath path = (baseSegments base ++ segments).map url.percentEncode ∧
        Reads policy namespaceName name (normalizeKind kind) segments ∧
        policy.allowsKind (normalizeKind kind) = true ∧
        eqIgnoreAsciiCase "Secret".toList (normalizeKind (normalizeKind kind)).toList = false) ∧
    (∀ namespaceName pod path, Single namespaceName → Single pod →
      podLogsPath policy base namespaceName pod = .ok path →
      namespaceName ∈ policy.allowedNamespaces ∧
        url.setPath path = (baseSegments base ++ ["api".toList, "v1".toList, "namespaces".toList,
          namespaceName.toList, "pods".toList, pod.toList, "log".toList]).map
            url.percentEncode) ∧
    ∀ namespaceName path, Single namespaceName →
      listEventsPath policy base namespaceName = .ok path →
      namespaceName ∈ policy.allowedNamespaces ∧
        url.setPath path = (baseSegments base ++ ["api".toList, "v1".toList, "namespaces".toList,
          namespaceName.toList, "events".toList]).map url.percentEncode := by
  refine ⟨?_, ?_, ?_⟩
  · intro kind namespaceName name path namespaceSingle nameSingle accepted
    exact getResource_confined lawful rooted namespaceSingle nameSingle accepted
  · intro namespaceName pod path namespaceSingle podSingle accepted
    exact podLogs_confined lawful rooted namespaceSingle podSingle accepted
  · intro namespaceName path namespaceSingle accepted
    exact listEvents_confined lawful rooted namespaceSingle accepted

/-- A policy under which pods of one namespace may be read. -/
def podPolicy : KubernetesPolicy where
  clusterAlias := "demo"
  allowedNamespaces := ["default"]
  allowedKinds := ["Pod"]

/-- A library that sets literal paths only, of which nothing has to be encoded. -/
def plainUrls : UrlLibrary where
  setPath := requested
  percentEncode := id

theorem plainUrls_lawful : plainUrls.Lawful := fun path _ => (List.map_id (requested path)).symm

theorem rooted_empty : Rooted "" := ⟨by decide, .inl rfl, by decide⟩

theorem requests_confined_pod :
    ∃ segments, plainUrls.setPath "/api/v1/namespaces/default/pods/web" =
        (baseSegments "" ++ segments).map plainUrls.percentEncode ∧
      Reads podPolicy (some "default") (some "web") (normalizeKind "pods") segments := by
  obtain ⟨segments, same, reads, _⟩ :=
    (requests_confined plainUrls plainUrls_lawful podPolicy "" rooted_empty).1 "pods"
      (some "default") (some "web") "/api/v1/namespaces/default/pods/web"
      (by rintro text same; cases same; exact ⟨by decide, by decide, by decide⟩)
      (by rintro text same; cases same; exact ⟨by decide, by decide, by decide⟩) rfl
  exact ⟨segments, same, reads⟩

/-- The name of a pod that climbs out of its namespace to a secret of another one. -/
def climbing (other secret : String) : String := "../../" ++ other ++ "/secrets/" ++ secret

theorem split_climbing {named other secret : String} (namedSingle : Single named)
    (otherSingle : Single other) (secretSingle : Single secret) :
    Segments.split '/' ("api/v1/namespaces".toList ++ '/' :: (named.toList ++ '/' ::
      ("pods/../..".toList ++ '/' :: (other.toList ++ '/' :: ("secrets".toList ++ '/' ::
        secret.toList))))) =
      ["api".toList, "v1".toList, "namespaces".toList, named.toList, "pods".toList, "..".toList,
        "..".toList, other.toList, "secrets".toList, secret.toList] := by
  rw [Segments.split_append, Segments.split_append, Segments.split_append, Segments.split_append,
    Segments.split_append, Segments.split_of_not_mem namedSingle.whole,
    Segments.split_of_not_mem otherSingle.whole, Segments.split_of_not_mem secretSingle.whole]
  rfl

theorem resolve_climbing {named other secret : String} (namedSingle : Single named)
    (otherSingle : Single other) (secretSingle : Single secret) (kept : List (List Char)) :
    resolveDots kept ["api".toList, "v1".toList, "namespaces".toList, named.toList,
      "pods".toList, "..".toList, "..".toList, other.toList, "secrets".toList, secret.toList] =
      kept.reverse ++ ["api".toList, "v1".toList, "namespaces".toList, other.toList,
        "secrets".toList, secret.toList] := by
  have inner : ∀ segment ∈ ["api".toList, "v1".toList, "namespaces".toList, named.toList,
      "pods".toList], dotless segment := by
    intro segment member
    obtain rfl | rfl | rfl | rfl | rfl : segment = "api".toList ∨ segment = "v1".toList ∨
      segment = "namespaces".toList ∨ segment = named.toList ∨ segment = "pods".toList := by
        simpa using member
    · decide
    · decide
    · decide
    · exact namedSingle.plain
    · decide
  have outer : ∀ segment ∈ [other.toList, "secrets".toList, secret.toList], dotless segment := by
    intro segment member
    obtain rfl | rfl | rfl : segment = other.toList ∨ segment = "secrets".toList ∨
      segment = secret.toList := by simpa using member
    · exact otherSingle.plain
    · decide
    · exact secretSingle.plain
  refine (resolveDots_append inner kept
    ["..".toList, "..".toList, other.toList, "secrets".toList, secret.toList]).trans ?_
  have up : doubleDot "..".toList = true := by decide
  rw [resolveDots, up, if_pos rfl, resolveDots, up, if_pos rfl, resolveDots_dotless outer]
  simp

/-- The allowlist does not hold a name with dot segments: where pods of one namespace may be
read, a pod name leads to any secret of any other namespace. -/
theorem requests_climb (url : UrlLibrary) (lawful : url.Lawful) (policy : KubernetesPolicy)
    (base named other secret : String) (rooted : Rooted base)
    (pods : policy.allowsKind "Pod" = true)
    (inside : named ∈ policy.allowedNamespaces) (namedSingle : Single named)
    (otherSingle : Single other) (secretSingle : Single secret)
    (permitted : ∀ text ∈ [named, other, secret], ∀ item ∈ forbiddenSubresources,
      eqIgnoreAsciiCase text.toList item.toList = false) :
    ∃ path, getResourcePath policy base "Pod" (some named) (some (climbing other secret)) =
        .ok path ∧
      url.setPath path = (baseSegments base ++ ["api".toList, "v1".toList, "namespaces".toList,
        other.toList, "secrets".toList, secret.toList]).map url.percentEncode := by
  have authorized : authorize policy "Pod" (some named) = .ok () := by
    have allows : policy.allowsNamespace named = true := by
      simpa [KubernetesPolicy.allowsNamespace] using inside
    unfold authorize
    rw [pods, if_neg (by decide), if_neg (by decide)]
    dsimp only
    rw [allows]
    rfl
  have written : ("/api/v1/namespaces" ++ "/" ++ named ++ "/" ++ "pods" ++
      ("/" ++ climbing other secret)).toList = '/' :: ("api/v1/namespaces".toList ++ '/' ::
        (named.toList ++ '/' :: ("pods/../..".toList ++ '/' :: (other.toList ++ '/' ::
          ("secrets".toList ++ '/' :: secret.toList))))) := by
    simp only [climbing, String.toList_append]
    simp
  have cut := split_climbing namedSingle otherSingle secretSingle
  have resource : resourcePath "Pod" (some named) (some (climbing other secret)) =
      .ok ("/api/v1/namespaces" ++ "/" ++ named ++ "/" ++ "pods" ++
        ("/" ++ climbing other secret)) := rfl
  have literal : Literal ("/api/v1/namespaces" ++ "/" ++ named ++ "/" ++ "pods" ++
      ("/" ++ climbing other secret)) := by
    simp only [climbing, literal_append]
    exact ⟨⟨⟨⟨⟨by decide, by decide⟩, namedSingle.literal⟩, by decide⟩, by decide⟩, by decide,
      ⟨⟨by decide, otherSingle.literal⟩, by decide⟩, secretSingle.literal⟩
  generalize "/api/v1/namespaces" ++ "/" ++ named ++ "/" ++ "pods" ++
    ("/" ++ climbing other secret) = path at written resource literal
  have joins : ∃ joined, join base path = .ok joined := by
    unfold join
    rw [if_neg]
    · exact ⟨_, rfl⟩
    · rw [pathSegments, written, Segments.split, if_pos rfl, cut]
      have fixed : ∀ segment ∈ [[], "api".toList, "v1".toList, "namespaces".toList, "pods".toList,
          "..".toList, "secrets".toList], ∀ item ∈ forbiddenSubresources,
          eqIgnoreAsciiCase segment item.toList = false := by decide
      intro refused
      obtain ⟨item, member, segments⟩ := List.any_eq_true.mp refused
      obtain ⟨segment, inside, same⟩ := List.any_eq_true.mp segments
      have known : segment ∈ [[], "api".toList, "v1".toList, "namespaces".toList, "pods".toList,
          "..".toList, "secrets".toList] ∨
          ∃ text ∈ [named, other, secret], text.toList = segment := by
        simp only [List.mem_cons, List.not_mem_nil, or_false] at inside
        rcases inside with rfl | rfl | rfl | rfl | rfl | rfl | rfl | rfl | rfl | rfl | rfl
        case inr.inr.inr.inr.inl => exact .inr ⟨named, by simp, rfl⟩
        case inr.inr.inr.inr.inr.inr.inr.inr.inl => exact .inr ⟨other, by simp, rfl⟩
        case inr.inr.inr.inr.inr.inr.inr.inr.inr.inr => exact .inr ⟨secret, by simp, rfl⟩
        all_goals exact .inl (by decide)
      rcases known with literal | ⟨text, given, rfl⟩
      · rw [fixed segment literal item member] at same
        cases same
      · rw [permitted text given item member] at same
        cases same
  obtain ⟨joined, joins⟩ := joins
  refine ⟨joined, ?_, ?_⟩
  · have kind : normalizeKind "Pod" = "Pod" := by decide
    rw [getResourcePath_ok_iff, kind]
    exact ⟨authorized, path, resource, joins⟩
  · rw [setPath_join lawful rooted literal joins, requested_join rooted written joins, cut,
      resolve_climbing namedSingle otherSingle secretSingle, List.reverse_reverse]

theorem requests_climb_pod :
    ∃ path, getResourcePath podPolicy "" "Pod" (some "default")
        (some (climbing "kube-system" "admin")) = .ok path ∧
      plainUrls.setPath path = (baseSegments "" ++ ["api".toList, "v1".toList,
        "namespaces".toList, "kube-system".toList, "secrets".toList, "admin".toList]).map
          plainUrls.percentEncode :=
  requests_climb plainUrls plainUrls_lawful podPolicy "" "default" "kube-system" "admin"
    rooted_empty (by decide) (by decide) ⟨by decide, by decide, by decide⟩
    ⟨by decide, by decide, by decide⟩ ⟨by decide, by decide, by decide⟩ (by decide)

end OpsCodex.Kubernetes
