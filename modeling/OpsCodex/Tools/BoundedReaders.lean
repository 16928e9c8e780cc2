import OpsCodex.Error

/-! Reading no more than a number of bytes: of an HTTP response and of a child process. -/

set_option autoImplicit false

namespace OpsCodex.Tools

/-- What one round of waiting for the response's stream gives; it ends where the list does. -/
inductive Delivery where
  | chunk (bytes : List UInt8)
  | failed (message : String)
  | cancelled

def readBody (maxBytes : Nat) (body : List UInt8) : List Delivery → Result (List UInt8 × Bool)
  | [] => .ok (body, false)
  | .cancelled :: _ => .error .cancelled
  | .failed message :: _ => .error (.tool message)
  | .chunk bytes :: deliveries =>
      let remaining := maxBytes - body.length
      if remaining < bytes.length then .ok (body ++ bytes.take remaining, true)
      else readBody maxBytes (body ++ bytes) deliveries

/-- The announced length of the body is only used to reserve memory. -/
def readBoundedBody (deliveries : List Delivery) (maxBytes : Nat) :
    Result (List UInt8 × Bool) :=
  readBody (max maxBytes 1) [] deliveries

/-- The bytes that one read puts into the buffer; at the end of the stream it puts none. -/
structure Filled where
  bytes : List UInt8
  nonempty : bytes ≠ []
  fits : bytes.length ≤ 1024

inductive Read where
  | filled (read : Filled)
  | failed (message : String)

/-- The loop that throws the rest away: what it leaves unread. -/
def drain : List Read → List Read
  | [] => []
  | .failed _ :: reads => reads
  | .filled _ :: reads => drain reads

/-- The result, and what is left unread. -/
def readInto (maxBytes : Nat) (bytes : List UInt8) :
    List Read → Result (List UInt8 × Bool) × List Read
  | [] => (.ok (bytes, false), [])
  | .failed message :: reads =>
      (.error (.tool ("failed to read extension output: " ++ message)), reads)
  | .filled read :: reads =>
      let remaining := maxBytes - bytes.length
      if remaining < read.bytes.length then
        (.ok (bytes ++ read.bytes.take remaining, true), drain reads)
      else readInto maxBytes (bytes ++ read.bytes) reads

def readBounded (reads : List Read) (maxBytes : Nat) :
    Result (List UInt8 × Bool) × List Read :=
  readInto maxBytes [] reads

/-- The first bytes of a stream up to a limit, and whether there are more. -/
def bounded (stream : List UInt8) (maxBytes : Nat) : List UInt8 × Bool :=
  (stream.take (min stream.length maxBytes), decide (maxBytes < stream.length))

section

variable {maxBytes : Nat} {body chunk : List UInt8}

theorem bounded_of_fits (fits : body.length ≤ maxBytes) :
    bounded body maxBytes = (body, false) := by
  rw [bounded, Nat.min_eq_left fits, List.take_length, decide_eq_false (Nat.not_lt.mpr fits)]

/-- The chunk that does not fit any more is cut at what remains. -/
theorem bounded_of_overflow (fits : body.length ≤ maxBytes)
    (overflow : maxBytes - body.length < chunk.length) (later : List UInt8) :
    bounded (body ++ (chunk ++ later)) maxBytes =
      (body ++ chunk.take (maxBytes - body.length), true) := by
  have long : maxBytes < (body ++ (chunk ++ later)).length := by
    rw [List.length_append, List.length_append]
    omega
  rw [bounded, Nat.min_eq_right (Nat.le_of_lt long), decide_eq_true long, List.take_append,
    List.take_of_length_le fits, List.take_append_of_le_length (Nat.le_of_lt overflow)]

theorem append_fits (fits : body.length ≤ maxBytes)
    (inside : ¬ maxBytes - body.length < chunk.length) : (body ++ chunk).length ≤ maxBytes := by
  rw [List.length_append]
  omega

theorem readBody_chunks (fits : body.length ≤ maxBytes) (chunks : List (List UInt8)) :
    readBody maxBytes body (chunks.map .chunk) =
      .ok (bounded (body ++ chunks.flatten) maxBytes) := by
  induction chunks generalizing body with
  | nil =>
      rw [List.flatten_nil, List.append_nil, bounded_of_fits fits]
      rfl
  | cons chunk chunks ih =>
      rw [List.map_cons, readBody, List.flatten_cons]
      split
      · rename_i overflow
        rw [bounded_of_overflow fits overflow]
      · rename_i inside
        rw [ih (append_fits fits inside), List.append_assoc]

theorem drain_filled (reads : List Filled) : drain (reads.map .filled) = [] := by
  induction reads with
  | nil => rfl
  | cons read reads ih => exact ih

theorem readInto_filled (fits : body.length ≤ maxBytes) (reads : List Filled) :
    readInto maxBytes body (reads.map .filled) =
      (.ok (bounded (body ++ (reads.map Filled.bytes).flatten) maxBytes), []) := by
  induction reads generalizing body with
  | nil =>
      rw [List.map_nil, List.map_nil, List.flatten_nil, List.append_nil, bounded_of_fits fits]
      rfl
  | cons read reads ih =>
      rw [List.map_cons, readInto, List.map_cons, List.flatten_cons]
      split
      · rename_i overflow
        rw [bounded_of_overflow fits overflow, drain_filled]
      · rename_i inside
        rw [ih (append_fits fits inside), List.append_assoc]

end

/-- However a stream is delivered, both readers return its first bytes up to the limit and tell
whether there are more. -/
theorem readers_bounded (stream : List UInt8) (maxBytes : Nat) (positive : 1 ≤ maxBytes) :
    (∀ chunks : List (List UInt8), chunks.flatten = stream →
      readBoundedBody (chunks.map .chunk) maxBytes =
        .ok (stream.take (min stream.length maxBytes), decide (maxBytes < stream.length))) ∧
    ∀ reads : List Filled, (reads.map Filled.bytes).flatten = stream →
      (readBounded (reads.map .filled) maxBytes).1 =
        .ok (stream.take (min stream.length maxBytes), decide (maxBytes < stream.length)) := by
  constructor
  · rintro chunks rfl
    rw [readBoundedBody, Nat.max_eq_left positive, readBody_chunks (Nat.zero_le _)]
    rfl
  · rintro reads rfl
    rw [readBounded, readInto_filled (Nat.zero_le _)]
    rfl

/-- A stream that ends at the limit is not cut, whatever the chunks. -/
theorem readers_bounded_at_limit :
    readBoundedBody ([[1], [], [2, 3]].map .chunk) 3 = .ok ([1, 2, 3], false) ∧
      (readBounded ([⟨[1, 2, 3], by decide, by decide⟩].map .filled) 3).1 =
        .ok ([1, 2, 3], false) :=
  ⟨(readers_bounded [1, 2, 3] 3 (by decide)).1 _ rfl,
    (readers_bounded [1, 2, 3] 3 (by decide)).2 _ rfl⟩

end OpsCodex.Tools
