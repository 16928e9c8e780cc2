import OpsCodex.Extensions.Skill
import OpsCodex.Runtime.Remediation

/-! Sanitizing of Kubernetes objects. What the connector hands out has lost the payloads
of an object, its managed fields and the annotations that look like credentials, at the
object itself and wherever its items, its specification and its status lead. -/

set_option autoImplicit false

namespace OpsCodex.Kubernetes

open OpsCodex.Json OpsCodex.Extensions OpsCodex.Runtime

/-- The fields that no sanitized object has. -/
def removedKeys : List String := ["data", "stringData", "managedFields"]

def removed (key : String) : Bool := removedKeys.contains key

/-- The words that give an annotation away. -/
def sensitiveWords : List String :=
  ["token", "secret", "password",
    "kubeadm.kubernetes.io/kube-apiserver.advertise-address.endpoint"]

/-- An annotation that `sanitize_object` drops. -/
def carriesCredential (key : String) : Bool :=
  sensitiveWords.any fun word => Strings.contains word.toList
    (Strings.toAsciiLowercase key.toList)

def sanitizeAnnotations : Value → Value
  | .object annotations => .object (annotations.filter fun entry => !carriesCredential entry.1)
  | other => other

def sanitizeMetadataField (entry : String × Value) : String × Value :=
  if entry.1 = "annotations" then (entry.1, sanitizeAnnotations entry.2) else entry

def sanitizeMetadata : Value → Value
  | .object metadata =>
      .object ((metadata.filter fun entry => decide (entry.1 ≠ "managedFields")).map
        sanitizeMetadataField)
  | other => other

mutual

def sanitizeObject : Value → Value
  | .object fields => .object (sanitizeFields fields)
  | .array items => .array (sanitizeItems items)
  | .null => .null
  | .bool value => .bool value
  | .number value => .number value
  | .string value => .string value

def sanitizeItems : List Value → List Value
  | [] => []
  | item :: items => sanitizeObject item :: sanitizeItems items

/-- The fields of an object: some are removed, some are cleaned, some are entered. -/
def sanitizeFields : List (String × Value) → List (String × Value)
  | [] => []
  | (key, value) :: fields =>
      if removed key then sanitizeFields fields
      else if key = "metadata" then (key, sanitizeMetadata value) :: sanitizeFields fields
      else if key = "items" then (key, sanitizeList value) :: sanitizeFields fields
      else if key = "spec" ∨ key = "status" then
        (key, sanitizeObject value) :: sanitizeFields fields
      else (key, value) :: sanitizeFields fields

/-- The items of a list object, when they are an array. -/
def sanitizeList : Value → Value
  | .array items => .array (sanitizeItems items)
  | .object fields => .object fields
  | .null => .null
  | .bool value => .bool value
  | .number value => .number value
  | .string value => .string value

end

/-- The objects that a sanitizing walk visits. -/
inductive Visits : Value → Value → Prop where
  | here {value : Value} : Visits value value
  | item {items : List Value} {item value : Value} (member : item ∈ items)
      (visits : Visits item value) : Visits (.array items) value
  | listed {fields : List (String × Value)} {items : List Value} {item value : Value}
      (member : ("items", .array items) ∈ fields) (inside : item ∈ items)
      (visits : Visits item value) : Visits (.object fields) value
  | part {fields : List (String × Value)} {key : String} {field value : Value}
      (member : (key, field) ∈ fields) (entered : key = "spec" ∨ key = "status")
      (visits : Visits field value) : Visits (.object fields) value

/-- An object without payload, managed fields or telling annotations. -/
structure Clean (fields : List (String × Value)) : Prop where
  payload : ∀ key value, (key, value) ∈ fields → key ∉ removedKeys
  managed : ∀ metadata, ("metadata", .object metadata) ∈ fields →
    ∀ key value, (key, value) ∈ metadata → key ≠ "managedFields"
  annotated : ∀ metadata annotations, ("metadata", .object metadata) ∈ fields →
    ("annotations", .object annotations) ∈ metadata →
    ∀ key value, (key, value) ∈ annotations → carriesCredential key = false

theorem removed_eq_false {key : String} : removed key = false ↔ key ∉ removedKeys := by
  rw [removed, ← Bool.not_eq_true, List.contains_iff_mem]

/-- What becomes of one field that stays. -/
def sanitizeField (key : String) (value : Value) : Value :=
  if key = "metadata" then sanitizeMetadata value
  else if key = "items" then sanitizeList value
  else if key = "spec" ∨ key = "status" then sanitizeObject value
  else value

theorem sanitizeFields_cons (key : String) (value : Value) (fields : List (String × Value)) :
    sanitizeFields ((key, value) :: fields) =
      if removed key then sanitizeFields fields
      else (key, sanitizeField key value) :: sanitizeFields fields := by
  rw [sanitizeFields]
  unfold sanitizeField
  split
  · rfl
  · split
    · rfl
    · split
      · rfl
      · split <;> rfl

theorem sanitizeFields_eq (fields : List (String × Value)) :
    sanitizeFields fields = (fields.filter fun entry => !removed entry.1).map
      fun entry => (entry.1, sanitizeField entry.1 entry.2) := by
  induction fields with
  | nil => rfl
  | cons entry fields ih =>
      obtain ⟨key, value⟩ := entry
      rw [sanitizeFields_cons, ih]
      cases gone : removed key <;> simp [gone]

theorem mem_sanitizeFields {fields : List (String × Value)} {key : String} {value : Value} :
    (key, value) ∈ sanitizeFields fields ↔
      ∃ before, (key, before) ∈ fields ∧ removed key = false ∧
        value = sanitizeField key before := by
  rw [sanitizeFields_eq]
  simp only [List.mem_map, List.mem_filter, Prod.mk.injEq, Bool.not_eq_true', Prod.exists]
  constructor
  · rintro ⟨_, before, ⟨member, kept⟩, rfl, rfl⟩
    exact ⟨before, member, kept, rfl⟩
  · rintro ⟨before, member, kept, rfl⟩
    exact ⟨key, before, ⟨member, kept⟩, rfl, rfl⟩

theorem sanitizeItems_eq (items : List Value) :
    sanitizeItems items = items.map sanitizeObject := by
  induction items with
  | nil => rfl
  | cons item items ih => rw [sanitizeItems, ih, List.map_cons]

theorem mem_sanitizeItems {items : List Value} {item : Value} :
    item ∈ sanitizeItems items ↔ ∃ before ∈ items, sanitizeObject before = item := by
  rw [sanitizeItems_eq, List.mem_map]

/-- The metadata of a sanitized object is an object only where it was one. -/
theorem sanitizeMetadata_object {value : Value} {metadata : List (String × Value)}
    (object : sanitizeMetadata value = .object metadata) :
    ∃ before, value = .object before ∧
      metadata = (before.filter fun entry => decide (entry.1 ≠ "managedFields")).map
        sanitizeMetadataField := by
  cases value with
  | object before =>
      rw [sanitizeMetadata] at object
      cases object
      exact ⟨before, rfl, rfl⟩
  | _ => cases object

theorem mem_sanitizeMetadata {before : List (String × Value)} {key : String} {value : Value}
    (member : (key, value) ∈ (before.filter fun entry =>
      decide (entry.1 ≠ "managedFields")).map sanitizeMetadataField) :
    key ≠ "managedFields" ∧ ∃ old, (key, old) ∈ before ∧
      value = if key = "annotations" then sanitizeAnnotations old else old := by
  obtain ⟨⟨name, old⟩, kept, same⟩ := List.mem_map.mp member
  obtain ⟨inside, different⟩ := List.mem_filter.mp kept
  unfold sanitizeMetadataField at same
  split at same
  · rename_i annotations
    cases same
    exact ⟨of_decide_eq_true different, _, inside, (if_pos annotations).symm⟩
  · rename_i other
    cases same
    exact ⟨of_decide_eq_true different, _, inside, (if_neg other).symm⟩

/-- The fields of a sanitized object are clean. -/
theorem clean_sanitizeFields (fields : List (String × Value)) :
    Clean (sanitizeFields fields) where
  payload := by
    intro key value member
    obtain ⟨before, _, kept, _⟩ := mem_sanitizeFields.mp member
    exact removed_eq_false.mp kept
  managed := by
    intro metadata member key value inside
    obtain ⟨before, _, _, object⟩ := mem_sanitizeFields.mp member
    obtain ⟨old, rfl, rfl⟩ := sanitizeMetadata_object object.symm
    exact (mem_sanitizeMetadata inside).1
  annotated := by
    intro metadata annotations member annotated key value inside
    obtain ⟨before, _, _, object⟩ := mem_sanitizeFields.mp member
    obtain ⟨old, rfl, rfl⟩ := sanitizeMetadata_object object.symm
    obtain ⟨_, unsanitized, _, cleaned⟩ := mem_sanitizeMetadata annotated
    rw [if_pos rfl] at cleaned
    cases unsanitized with
    | object entries =>
        rw [sanitizeAnnotations] at cleaned
        cases cleaned
        have kept := (List.mem_filter.mp inside).2
        exact Bool.not_eq_true' _ ▸ kept
    | _ => cases cleaned

/-- Where a walk of a sanitized value goes, a walk of the value went before. -/
theorem visits_sanitized {value visited : Value} (visits : Visits (sanitizeObject value) visited) :
    ∃ before, Visits value before ∧ visited = sanitizeObject before := by
  generalize sanitizedEq : sanitizeObject value = sanitized at visits
  induction visits generalizing value with
  | here => exact ⟨value, .here, sanitizedEq.symm⟩
  | @item items item visited member visits ih =>
      cases value with
      | array before =>
          rw [sanitizeObject] at sanitizedEq
          cases sanitizedEq
          obtain ⟨old, inside, same⟩ := mem_sanitizeItems.mp member
          obtain ⟨reached, walk, rfl⟩ := ih same
          exact ⟨reached, .item inside walk, rfl⟩
      | _ => simp [sanitizeObject] at sanitizedEq
  | @listed fields items item visited member inside visits ih =>
      cases value with
      | object before =>
          rw [sanitizeObject] at sanitizedEq
          cases sanitizedEq
          obtain ⟨list, listed, _, same⟩ := mem_sanitizeFields.mp member
          have cleaned : sanitizeList list = .array items := same.symm
          cases list with
          | array old =>
              rw [sanitizeList] at cleaned
              cases cleaned
              obtain ⟨old, stored, same⟩ := mem_sanitizeItems.mp inside
              obtain ⟨reached, walk, rfl⟩ := ih same
              exact ⟨reached, .listed listed stored walk, rfl⟩
          | _ => simp [sanitizeList] at cleaned
      | _ => simp [sanitizeObject] at sanitizedEq
  | @part fields key field visited member entered visits ih =>
      cases value with
      | object before =>
          rw [sanitizeObject] at sanitizedEq
          cases sanitizedEq
          obtain ⟨old, stored, _, same⟩ := mem_sanitizeFields.mp member
          have cleaned : sanitizeField key old = sanitizeObject old := by
            obtain rfl | rfl := entered <;> rfl
          rw [cleaned] at same
          obtain ⟨reached, walk, rfl⟩ := ih same.symm
          exact ⟨reached, .part stored entered walk, rfl⟩
      | _ => simp [sanitizeObject] at sanitizedEq

section Again

theorem sanitizeAnnotations_again (value : Value) :
    sanitizeAnnotations (sanitizeAnnotations value) = sanitizeAnnotations value := by
  cases value with
  | object annotations => simp [sanitizeAnnotations, List.filter_filter]
  | _ => rfl

theorem sanitizeMetadataField_again (entry : String × Value) :
    sanitizeMetadataField (sanitizeMetadataField entry) = sanitizeMetadataField entry := by
  unfold sanitizeMetadataField
  split
  · rw [sanitizeAnnotations_again]
  · rfl

theorem sanitizeMetadataField_key (entry : String × Value) :
    (sanitizeMetadataField entry).1 = entry.1 := by
  unfold sanitizeMetadataField
  split <;> rfl

theorem sanitizeMetadata_again (value : Value) :
    sanitizeMetadata (sanitizeMetadata value) = sanitizeMetadata value := by
  cases value with
  | object metadata =>
      simp only [sanitizeMetadata, Value.object.injEq]
      rw [List.filter_map, List.map_map, List.filter_filter]
      have kept : (fun entry : String × Value =>
            ((fun entry => decide (entry.1 ≠ "managedFields")) ∘ sanitizeMetadataField) entry &&
              decide (entry.1 ≠ "managedFields")) =
          fun entry => decide (entry.1 ≠ "managedFields") := by
        funext entry
        rw [Function.comp_apply, sanitizeMetadataField_key, Bool.and_self]
      rw [kept]
      exact List.map_congr_left fun entry _ => sanitizeMetadataField_again entry
  | _ => rfl

mutual

/-- A sanitized value is left as it is. -/
theorem sanitizeObject_again : (value : Value) →
    sanitizeObject (sanitizeObject value) = sanitizeObject value
  | .object fields => by
      rw [sanitizeObject, sanitizeObject, sanitizeFields_again fields]
  | .array items => by
      rw [sanitizeObject, sanitizeObject, sanitizeItems_again items]
  | .null | .bool _ | .number _ | .string _ => by simp only [sanitizeObject]

theorem sanitizeItems_again : (items : List Value) →
    sanitizeItems (sanitizeItems items) = sanitizeItems items
  | [] => rfl
  | item :: items => by
      rw [sanitizeItems, sanitizeItems, sanitizeObject_again item, sanitizeItems_again items]

theorem sanitizeFields_again : (fields : List (String × Value)) →
    sanitizeFields (sanitizeFields fields) = sanitizeFields fields
  | [] => rfl
  | (key, value) :: fields => by
      rw [sanitizeFields_cons]
      cases gone : removed key with
      | true => exact sanitizeFields_again fields
      | false =>
          have again : sanitizeField key (sanitizeField key value) = sanitizeField key value := by
            unfold sanitizeField
            split
            · exact sanitizeMetadata_again value
            · split
              · exact sanitizeList_again value
              · split
                · exact sanitizeObject_again value
                · rfl
          rw [if_neg Bool.false_ne_true, sanitizeFields_cons, gone, if_neg Bool.false_ne_true,
            again, sanitizeFields_again fields]

theorem sanitizeList_again : (value : Value) →
    sanitizeList (sanitizeList value) = sanitizeList value
  | .array items => by rw [sanitizeList, sanitizeList, sanitizeItems_again items]
  | .object _ | .null | .bool _ | .number _ | .string _ => by simp only [sanitizeList]

end

end Again

/-- Every object that can be reached in what the connector hands out is clean, and is the
sanitized form of an object of the answer; sanitizing again changes nothing. -/
theorem sanitized_clean (value : Value) :
    (∀ fields, Visits (sanitizeObject value) (.object fields) →
      Clean fields ∧ ∃ before, Visits value (.object before) ∧ fields = sanitizeFields before) ∧
      sanitizeObject (sanitizeObject value) = sanitizeObject value := by
  refine ⟨fun fields visits => ?_, sanitizeObject_again value⟩
  obtain ⟨before, walk, same⟩ := visits_sanitized visits
  cases before with
  | object original =>
      rw [sanitizeObject] at same
      cases same
      exact ⟨clean_sanitizeFields original, original, walk, rfl⟩
  | _ => simp [sanitizeObject] at same

section Reading

/-- Reading a list of fields through a filter on keys and a change of the values. -/
theorem lookup_filter_map (keeps : String → Bool) (change : String → Value → Value)
    (fields : List (String × Value)) (key : String) :
    ((fields.filter fun entry => keeps entry.1).map fun entry =>
      (entry.1, change entry.1 entry.2)).lookup key =
      if keeps key then (fields.lookup key).map (change key) else none := by
  induction fields with
  | nil => cases keeps key <;> rfl
  | cons entry fields ih =>
      obtain ⟨name, value⟩ := entry
      cases kept : keeps name with
      | true =>
          rw [List.filter_cons_of_pos (by simpa using kept), List.map_cons, List.lookup_cons,
            List.lookup_cons, ih]
          cases same : key == name with
          | true =>
              rw [eq_of_beq same, kept]
              rfl
          | false => rfl
      | false =>
          rw [List.filter_cons_of_neg (by simp [kept]), ih, List.lookup_cons]
          cases same : key == name with
          | true =>
              rw [eq_of_beq same, kept]
              rfl
          | false => rfl

theorem lookup_sanitizeFields (fields : List (String × Value)) (key : String) :
    (sanitizeFields fields).lookup key =
      if removed key then none else (fields.lookup key).map (sanitizeField key) := by
  rw [sanitizeFields_eq]
  refine (lookup_filter_map (fun key => !removed key) sanitizeField fields key).trans ?_
  cases removed key <;> rfl

theorem get_sanitizeObject (value : Value) (key : String) (kept : removed key = false) :
    (sanitizeObject value).get? key = (value.get? key).map (sanitizeField key) := by
  cases value with
  | object fields =>
      rw [sanitizeObject]
      refine (lookup_sanitizeFields fields key).trans ?_
      rw [kept]
      rfl
  | _ => simp only [sanitizeObject, Value.get?, Option.map_none]

theorem sanitizeMetadataField_eq (entry : String × Value) :
    sanitizeMetadataField entry =
      (entry.1, if entry.1 = "annotations" then sanitizeAnnotations entry.2 else entry.2) := by
  unfold sanitizeMetadataField
  split <;> rfl

theorem get_sanitizeMetadata (value : Value) (key : String) (unmanaged : key ≠ "managedFields")
    (plain : key ≠ "annotations") : (sanitizeMetadata value).get? key = value.get? key := by
  cases value with
  | object metadata =>
      have read := lookup_filter_map (fun key => decide (key ≠ "managedFields"))
        (fun key value => if key = "annotations" then sanitizeAnnotations value else value)
        metadata key
      rw [if_pos (decide_eq_true unmanaged)] at read
      rw [sanitizeMetadata]
      have fields : sanitizeMetadataField = fun entry : String × Value =>
          (entry.1, if entry.1 = "annotations" then sanitizeAnnotations entry.2 else entry.2) :=
        funext sanitizeMetadataField_eq
      rw [fields]
      refine read.trans ?_
      simp [plain, Value.get?]
  | _ => rfl

theorem pointer_pair (value : Value) (first second : String) :
    value.pointer? [first, second] = (value.get? first).bind fun field => field.get? second := by
  rw [Value.pointer?]
  cases value.get? first with
  | none => rfl
  | some field =>
      rw [Option.bind_some]
      dsimp only
      rw [Value.pointer?]
      cases field.get? second <;> rfl

theorem metadata_sanitized (value : Value) (field : String) (unmanaged : field ≠ "managedFields")
    (plain : field ≠ "annotations") :
    (sanitizeObject value).pointer? ["metadata", field] = value.pointer? ["metadata", field] := by
  rw [pointer_pair, pointer_pair, get_sanitizeObject value "metadata" (by decide)]
  cases value.get? "metadata" with
  | none => rfl
  | some metadata => exact get_sanitizeMetadata metadata field unmanaged plain

/-- The fields of a part that the walk neither removes, cleans nor enters. -/
def untouched (key : String) : Bool :=
  !removed key && !(["metadata", "items", "spec", "status"].contains key)

theorem sanitizeField_untouched {key : String} (kept : untouched key = true) (value : Value) :
    removed key = false ∧ sanitizeField key value = value := by
  simp only [untouched, Bool.and_eq_true, Bool.not_eq_true', List.contains_eq_mem,
    decide_eq_false_iff_not, List.mem_cons, List.not_mem_nil, or_false, not_or] at kept
  obtain ⟨stays, metadata, items, spec, status⟩ := kept
  refine ⟨stays, ?_⟩
  rw [sanitizeField, if_neg metadata, if_neg items, if_neg (not_or.mpr ⟨spec, status⟩)]

theorem part_sanitized (value : Value) (part key : String)
    (entered : part = "spec" ∨ part = "status") (kept : untouched key = true) :
    (sanitizeObject value).pointer? [part, key] = value.pointer? [part, key] := by
  have stays : removed part = false := by obtain rfl | rfl := entered <;> decide
  have enters (field : Value) : sanitizeField part field = sanitizeObject field := by
    obtain rfl | rfl := entered <;> rfl
  rw [pointer_pair, pointer_pair, get_sanitizeObject value part stays]
  cases value.get? part with
  | none => rfl
  | some field =>
      simp only [Option.map_some, Option.bind_some, enters]
      rw [get_sanitizeObject field key (sanitizeField_untouched kept .null).1]
      cases field.get? key with
      | none => rfl
      | some found => exact congrArg some (sanitizeField_untouched kept found).2

end Reading

/-- What remediation reads of a workload survives sanitizing: its identity and version, its
desired and available replicas, and so the preconditions that a dry run records. -/
theorem preconditions_sanitized (value : Value) :
    (∀ field, field ≠ "managedFields" → field ≠ "annotations" →
      metadataString (sanitizeObject value) field = metadataString value field) ∧
    (∀ part key, part = "spec" ∨ part = "status" → untouched key = true →
      replicasAt (sanitizeObject value) [part, key] = replicasAt value [part, key]) ∧
    ∀ kind, dryRunPreconditions kind (sanitizeObject value) = dryRunPreconditions kind value := by
  have metadata (field : String) (unmanaged : field ≠ "managedFields")
      (plain : field ≠ "annotations") :
      metadataString (sanitizeObject value) field = metadataString value field := by
    rw [metadataString, metadataString, metadata_sanitized value field unmanaged plain]
  have part (name key : String) (entered : name = "spec" ∨ name = "status")
      (kept : untouched key = true) :
      replicasAt (sanitizeObject value) [name, key] = replicasAt value [name, key] := by
    rw [replicasAt, replicasAt, part_sanitized value name key entered kept]
  refine ⟨metadata, part, fun kind => ?_⟩
  unfold dryRunPreconditions
  rw [metadata "uid" (by decide) (by decide), metadata "resourceVersion" (by decide) (by decide),
    part "spec" "replicas" (.inl rfl) (by decide)]

end OpsCodex.Kubernetes
