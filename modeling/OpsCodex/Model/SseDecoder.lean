import OpsCodex.Action
import OpsCodex.Encoding.Utf8
import OpsCodex.Sequence.Delimited
import OpsCodex.Store.Jsonl

/-! The frames of the model provider's event stream, cut out of the chunks it arrives in. -/

set_option autoImplicit false

namespace OpsCodex.Model.Sse

open OpsCodex.Runtime Encoding Encoding.Utf8 Delimited
open OpsCodex.Strings (isWhitespace)

abbrev Bytes := List UInt8

def lfEnd : Bytes := [10, 10]

def crlfEnd : Bytes := [13, 10, 13, 10]

/-- The first window that is the delimiter. -/
def position (delimiter bytes : Bytes) : Option Nat :=
  Offsets.find (fun _ => 1) delimiter bytes

def frameBoundary (bytes : Bytes) : Option (Nat × Nat) :=
  ((position lfEnd bytes).map fun index => (index, 2)).or
    ((position crlfEnd bytes).map fun index => (index, 4))

/-- A line without the carriage return before its line feed. -/
def stripReturn (line : List Char) : List Char :=
  if line.getLast? = some '\r' then line.dropLast else line

/-- The lines of a text that goes on with a line begun. -/
def linesFrom (line : List Char) : List Char → List (List Char)
  | [] => if line = [] then [] else [line]
  | char :: text =>
      if char = '\n' then stripReturn line :: linesFrom [] text
      else linesFrom (line ++ [char]) text

def dataLine (line : List Char) : Option (List Char) :=
  if ['d', 'a', 't', 'a', ':'] <+: line then some ((line.drop 5).dropWhile isWhitespace) else none

def dataLines (text : List Char) : List (List Char) := (linesFrom [] text).filterMap dataLine

def join (lines : List (List Char)) : List Char := ['\n'].intercalate lines

section

variable (utf8Error : Bytes → String)

def frameData (frame : Bytes) : Result (Option (List Char)) :=
  match decode frame with
  | none => .error (.protocol (utf8Error frame))
  | some text =>
      let data := join (dataLines text)
      .ok (if data = [] then none else some data)

theorem length_lt_of_frameBoundary {bytes : Bytes} {index separatorLen : Nat}
    (found : frameBoundary bytes = some (index, separatorLen)) :
    ((bytes.drop index).drop separatorLen).length < bytes.length := by
  cases bytes with
  | nil => cases found
  | cons byte bytes =>
      have positive : 0 < separatorLen := by
        rcases Option.or_eq_some_iff.mp found with found | ⟨-, found⟩
        · obtain ⟨_, -, same⟩ := Option.map_eq_some_iff.mp found
          cases same
          decide
        · obtain ⟨_, -, same⟩ := Option.map_eq_some_iff.mp found
          cases same
          decide
      rw [List.length_drop, List.length_drop, List.length_cons]
      omega

/-- The loop of `push`: the frames of a buffer, and what follows the last frame boundary. -/
def drain (buffer : Bytes) : Result (List (List Char) × Bytes) :=
  match _ : frameBoundary buffer with
  | none => .ok ([], buffer)
  | some (index, separatorLen) => do
      let data ← frameData utf8Error (buffer.take index)
      let (frames, rest) ← drain ((buffer.drop index).drop separatorLen)
      .ok (data.toList ++ frames, rest)
termination_by buffer.length
decreasing_by exact length_lt_of_frameBoundary (by assumption)

structure SseDecoder where
  buffer : Bytes

def SseDecoder.push (decoder : SseDecoder) (bytes : Bytes) :
    Result (List (List Char) × SseDecoder) := do
  let (frames, buffer) ← drain utf8Error (decoder.buffer ++ bytes)
  .ok (frames, { buffer })

def SseDecoder.finish (decoder : SseDecoder) : Result (List (List Char)) :=
  if decoder.buffer = [] then .ok []
  else do
    let data ← frameData utf8Error decoder.buffer
    .ok data.toList

/-- The events of the chunks that are still to come, and of the end of the stream. -/
def SseDecoder.run (decoder : SseDecoder) : List Bytes → Result (List (List Char))
  | [] => decoder.finish utf8Error
  | chunk :: chunks => do
      let (frames, decoder) ← decoder.push utf8Error chunk
      let later ← decoder.run chunks
      .ok (frames ++ later)

def decodeStream (chunks : List Bytes) : Result (List (List Char)) :=
  SseDecoder.run utf8Error { buffer := [] } chunks

end

/-! ## Frames -/

/-- The frames that `drain` cuts off a buffer, and what is left of it. -/
def cuts (buffer : Bytes) : List Bytes × Bytes :=
  match _ : frameBoundary buffer with
  | none => ([], buffer)
  | some (index, separatorLen) =>
      let later := cuts ((buffer.drop index).drop separatorLen)
      (buffer.take index :: later.1, later.2)
termination_by buffer.length
decreasing_by exact length_lt_of_frameBoundary (by assumption)

/-- The data lines of a frame. -/
def dataOf (frame : Bytes) : List (List Char) := dataLines ((decode frame).getD [])

def eventOf (frame : Bytes) : List (List Char) :=
  if join (dataOf frame) = [] then [] else [join (dataOf frame)]

/-- The events of a buffer that is pushed at once and finished. -/
def eventsOf (buffer : Bytes) : List (List Char) :=
  (cuts buffer).1.flatMap eventOf ++ eventOf (cuts buffer).2

/-- The events of chunks that are pushed behind a buffer one by one. -/
def eventsFrom (buffer : Bytes) : List Bytes → List (List Char)
  | [] => eventOf buffer
  | chunk :: chunks =>
      (cuts (buffer ++ chunk)).1.flatMap eventOf ++
        eventsFrom (cuts (buffer ++ chunk)).2 chunks

section

variable {before after rest : Bytes}

theorem frameBoundary_lf (first : FirstAfter lfEnd before) :
    frameBoundary (before ++ lfEnd ++ rest) = some (before.length, 2) := by
  rw [frameBoundary, position, find_of_firstAfter (by decide) first]
  rfl

theorem frameBoundary_crlf (first : FirstAfter crlfEnd before)
    (missing : ¬ lfEnd <:+: before ++ crlfEnd ++ rest) :
    frameBoundary (before ++ crlfEnd ++ rest) = some (before.length, 4) := by
  rw [frameBoundary, position, position, find_of_not_infix missing,
    find_of_firstAfter (by decide) first]
  rfl

theorem frameBoundary_none (lf : ¬ lfEnd <:+: rest) (crlf : ¬ crlfEnd <:+: rest) :
    frameBoundary rest = none := by
  rw [frameBoundary, position, position, find_of_not_infix lf, find_of_not_infix crlf]
  rfl

theorem cuts_of_frameBoundary {delimiter : Bytes}
    (found : frameBoundary (before ++ delimiter ++ rest) =
      some (before.length, delimiter.length)) :
    cuts (before ++ delimiter ++ rest) = (before :: (cuts rest).1, (cuts rest).2) := by
  rw [cuts]
  split
  · rename_i missing
    rw [found] at missing
    cases missing
  · rename_i index separatorLen at'
    rw [found] at at'
    cases at'
    simp only [List.append_assoc, List.drop_left, List.take_left]

theorem cuts_lf (first : FirstAfter lfEnd before) :
    cuts (before ++ lfEnd ++ rest) = (before :: (cuts rest).1, (cuts rest).2) :=
  cuts_of_frameBoundary (frameBoundary_lf first)

theorem cuts_crlf (first : FirstAfter crlfEnd before)
    (missing : ¬ lfEnd <:+: before ++ crlfEnd ++ rest) :
    cuts (before ++ crlfEnd ++ rest) = (before :: (cuts rest).1, (cuts rest).2) :=
  cuts_of_frameBoundary (frameBoundary_crlf first missing)

theorem cuts_of_missing (missing : frameBoundary rest = none) : cuts rest = ([], rest) := by
  rw [cuts]
  split
  · rfl
  · rename_i found
    rw [missing] at found
    cases found

theorem cuts_none (lf : ¬ lfEnd <:+: rest) (crlf : ¬ crlfEnd <:+: rest) :
    cuts rest = ([], rest) :=
  cuts_of_missing (frameBoundary_none lf crlf)

/-- Induction on a buffer along the frames that the decoder cuts off it. -/
theorem frame_induction {motive : Bytes → Prop}
    (lf : ∀ before rest, FirstAfter lfEnd before → motive rest →
      motive (before ++ lfEnd ++ rest))
    (crlf : ∀ before rest, FirstAfter crlfEnd before →
      ¬ lfEnd <:+: before ++ crlfEnd ++ rest → motive rest → motive (before ++ crlfEnd ++ rest))
    (last : ∀ rest, ¬ lfEnd <:+: rest → ¬ crlfEnd <:+: rest → motive rest) (buffer : Bytes) :
    motive buffer := by
  generalize size : buffer.length = length
  induction length using Nat.strong_induction_on generalizing buffer with
  | _ length ih =>
      by_cases ends : lfEnd <:+: buffer
      · obtain ⟨before, rest, first, rfl⟩ := exists_firstAfter (by decide) ends
        refine lf before rest first (ih rest.length ?_ rest rfl)
        rw [← size, List.length_append, List.length_append]
        exact Nat.lt_add_of_pos_left (Nat.add_pos_right _ (by decide))
      · by_cases returns : crlfEnd <:+: buffer
        · obtain ⟨before, rest, first, rfl⟩ := exists_firstAfter (by decide) returns
          refine crlf before rest first ends (ih rest.length ?_ rest rfl)
          rw [← size, List.length_append, List.length_append]
          exact Nat.lt_add_of_pos_left (Nat.add_pos_right _ (by decide))
        · exact last buffer ends returns

/-- The same induction where it does not matter which of the two ends a frame has. -/
theorem boundary_induction {motive : Bytes → Prop}
    (frame : ∀ before delimiter rest, frameBoundary (before ++ delimiter ++ rest) =
      some (before.length, delimiter.length) → motive rest → motive (before ++ delimiter ++ rest))
    (last : ∀ rest, frameBoundary rest = none → motive rest) (buffer : Bytes) :
    motive buffer := by
  induction buffer using frame_induction with
  | lf before rest first ih => exact frame before lfEnd rest (frameBoundary_lf first) ih
  | crlf before rest first missing ih =>
      exact frame before crlfEnd rest (frameBoundary_crlf first missing) ih
  | last rest lf crlf => exact last rest (frameBoundary_none lf crlf)

theorem cuts_rest (buffer : Bytes) : cuts (cuts buffer).2 = ([], (cuts buffer).2) := by
  induction buffer using boundary_induction with
  | frame before delimiter rest found ih =>
      rw [cuts_of_frameBoundary found]
      exact ih
  | last rest missing =>
      rw [cuts_of_missing missing]
      exact cuts_of_missing missing

theorem eventsOf_lf (first : FirstAfter lfEnd before) :
    eventsOf (before ++ lfEnd ++ rest) = eventOf before ++ eventsOf rest := by
  rw [eventsOf, cuts_lf first, List.flatMap_cons, List.append_assoc]
  rfl

theorem eventsOf_crlf (first : FirstAfter crlfEnd before)
    (missing : ¬ lfEnd <:+: before ++ crlfEnd ++ rest) :
    eventsOf (before ++ crlfEnd ++ rest) = eventOf before ++ eventsOf rest := by
  rw [eventsOf, cuts_crlf first missing, List.flatMap_cons, List.append_assoc]
  rfl

theorem eventsOf_last (lf : ¬ lfEnd <:+: rest) (crlf : ¬ crlfEnd <:+: rest) :
    eventsOf rest = eventOf rest := by
  rw [eventsOf, cuts_none lf crlf]
  rfl

end

/-! ## Valid streams -/

section

variable {before after : Bytes}

theorem valid_lf : Valid (before ++ lfEnd ++ after) ↔ Valid before ∧ Valid after :=
  valid_delimited (by decide) (by simp [lfEnd]) ⟨['\n', '\n'], by decide⟩

theorem valid_crlf : Valid (before ++ crlfEnd ++ after) ↔ Valid before ∧ Valid after :=
  valid_delimited (by decide) (by simp [crlfEnd]) ⟨['\r', '\n', '\r', '\n'], by decide⟩

theorem valid_cuts (buffer : Bytes) :
    Valid (buffer ++ after) ↔
      (∀ frame ∈ (cuts buffer).1, Valid frame) ∧ Valid ((cuts buffer).2 ++ after) := by
  induction buffer using frame_induction with
  | lf before rest first ih =>
      rw [cuts_lf first, List.append_assoc, valid_lf, ih, List.forall_mem_cons, and_assoc]
  | crlf before rest first missing ih =>
      rw [cuts_crlf first missing, List.append_assoc, valid_crlf, ih, List.forall_mem_cons,
        and_assoc]
  | last rest lf crlf =>
      rw [cuts_none lf crlf]
      simp only [List.not_mem_nil, false_implies, implies_true, true_and]

variable {utf8Error : Bytes → String}

variable (utf8Error) in
theorem frameData_valid {frame : Bytes} (valid : Valid frame) :
    ∃ data, frameData utf8Error frame = .ok data ∧ data.toList = eventOf frame := by
  obtain ⟨text, rfl⟩ := valid
  rw [frameData, eventOf, dataOf, decode_encode]
  refine ⟨_, rfl, ?_⟩
  dsimp only [Option.getD_some]
  split
  · rfl
  · rfl

theorem frameData_invalid {frame : Bytes} (invalid : ¬ Valid frame) :
    frameData utf8Error frame = .error (.protocol (utf8Error frame)) := by
  rw [frameData, decode_of_not_valid invalid]

theorem drain_of_frameBoundary {delimiter : Bytes}
    (found : frameBoundary (before ++ delimiter ++ after) =
      some (before.length, delimiter.length)) :
    drain utf8Error (before ++ delimiter ++ after) =
      (frameData utf8Error before).bind fun data =>
        (drain utf8Error after).map fun later => (data.toList ++ later.1, later.2) := by
  rw [drain]
  split
  · rename_i missing
    rw [found] at missing
    cases missing
  · rename_i index separatorLen at'
    rw [found] at at'
    cases at'
    simp only [List.append_assoc, List.drop_left, List.take_left]
    cases frameData utf8Error before with
    | error error => rfl
    | ok data =>
        cases drain utf8Error after with
        | error error => rfl
        | ok later => rfl

theorem drain_none (missing : frameBoundary after = none) :
    drain utf8Error after = .ok ([], after) := by
  rw [drain]
  split
  · rfl
  · rename_i found
    rw [missing] at found
    cases found

theorem drain_valid (buffer : Bytes) (valid : ∀ frame ∈ (cuts buffer).1, Valid frame) :
    drain utf8Error buffer = .ok ((cuts buffer).1.flatMap eventOf, (cuts buffer).2) := by
  induction buffer using boundary_induction with
  | frame before delimiter rest found ih =>
      rw [cuts_of_frameBoundary found] at valid ⊢
      obtain ⟨here, later⟩ := List.forall_mem_cons.mp valid
      obtain ⟨data, read, events⟩ := frameData_valid utf8Error here
      rw [drain_of_frameBoundary found, read, ih later, List.flatMap_cons, ← events]
      rfl
  | last rest missing =>
      rw [drain_none missing, cuts_of_missing missing]
      rfl

variable (utf8Error) in
theorem drain_invalid (buffer : Bytes) (invalid : ¬ ∀ frame ∈ (cuts buffer).1, Valid frame) :
    ∃ error, drain utf8Error buffer = .error error := by
  induction buffer using boundary_induction with
  | frame before delimiter rest found ih =>
      rw [cuts_of_frameBoundary found, List.forall_mem_cons] at invalid
      rw [drain_of_frameBoundary found]
      by_cases here : Valid before
      · obtain ⟨error, failed⟩ := ih fun later => invalid ⟨here, later⟩
        obtain ⟨data, read, -⟩ := frameData_valid utf8Error here
        exact ⟨error, by rw [read, failed]; rfl⟩
      · exact ⟨_, by rw [frameData_invalid here]; rfl⟩
  | last rest missing =>
      rw [cuts_of_missing missing] at invalid
      exact absurd (fun frame inside => absurd inside List.not_mem_nil) invalid

theorem run_valid (buffer : Bytes) (chunks : List Bytes)
    (valid : Valid (buffer ++ chunks.flatten)) :
    SseDecoder.run utf8Error { buffer } chunks = .ok (eventsFrom buffer chunks) := by
  induction chunks generalizing buffer with
  | nil =>
      rw [List.flatten_nil, List.append_nil] at valid
      rw [SseDecoder.run, SseDecoder.finish, eventsFrom]
      dsimp only
      split
      · rename_i empty
        rw [empty]
        rfl
      · obtain ⟨data, read, events⟩ := frameData_valid utf8Error valid
        rw [read, ← events]
        rfl
  | cons chunk chunks ih =>
      rw [List.flatten_cons, ← List.append_assoc, valid_cuts] at valid
      rw [SseDecoder.run, SseDecoder.push, drain_valid _ valid.1, eventsFrom]
      have later := ih _ valid.2
      simp only [bind, Except.bind, later]

theorem run_invalid (buffer : Bytes) (chunks : List Bytes)
    (invalid : ¬ Valid (buffer ++ chunks.flatten)) :
    ∃ error, SseDecoder.run utf8Error { buffer } chunks = .error error := by
  induction chunks generalizing buffer with
  | nil =>
      rw [List.flatten_nil, List.append_nil] at invalid
      have nonempty : buffer ≠ [] := by
        rintro rfl
        exact invalid valid_nil
      rw [SseDecoder.run, SseDecoder.finish, if_neg nonempty, frameData_invalid invalid]
      exact ⟨_, rfl⟩
  | cons chunk chunks ih =>
      rw [List.flatten_cons, ← List.append_assoc, valid_cuts] at invalid
      rw [SseDecoder.run, SseDecoder.push]
      by_cases frames : ∀ frame ∈ (cuts (buffer ++ chunk)).1, Valid frame
      · obtain ⟨error, failed⟩ := ih _ fun later => invalid ⟨frames, later⟩
        rw [drain_valid _ frames]
        refine ⟨error, ?_⟩
        simp only [bind, Except.bind, failed]
      · obtain ⟨error, failed⟩ := drain_invalid utf8Error _ frames
        refine ⟨error, ?_⟩
        simp only [bind, Except.bind, failed]

end

/-! ## Data lines -/

theorem stripReturn_append (line : List Char) : stripReturn (line ++ ['\r']) = line := by
  rw [stripReturn, List.getLast?_concat, if_pos rfl, List.dropLast_concat]

theorem dataLine_nil : dataLine [] = none := by decide

/-- The data lines before a line that ends in CRLF, and those after it. -/
theorem linesFrom_crlf (line text rest : List Char) :
    (linesFrom line (text ++ '\r' :: '\n' :: rest)).filterMap dataLine =
      (linesFrom line text).filterMap dataLine ++ dataLines rest := by
  induction text generalizing line with
  | nil =>
      have return_ne : '\r' ≠ '\n' := by decide
      have ended : linesFrom line ('\r' :: '\n' :: rest) = line :: linesFrom [] rest := by
        rw [linesFrom, if_neg return_ne, linesFrom, if_pos rfl, stripReturn_append]
      rw [List.nil_append, ended, linesFrom]
      by_cases empty : line = []
      · rw [if_pos empty, empty, List.filterMap_cons_none dataLine_nil]
        rfl
      · rw [if_neg empty, ← List.singleton_append, List.filterMap_append]
        rfl
  | cons char text ih =>
      rw [List.cons_append, linesFrom, linesFrom]
      by_cases ended : char = '\n'
      · rw [if_pos ended, if_pos ended, ← List.singleton_append, List.filterMap_append, ih,
          ← List.append_assoc, ← List.filterMap_append]
        rfl
      · rw [if_neg ended, if_neg ended, ih]

section

variable {before after : Bytes}

theorem dataOf_encode (text : List Char) : dataOf (encode text) = dataLines text := by
  rw [dataOf, decode_encode, Option.getD_some]

theorem dataOf_invalid (invalid : ¬ Valid before) : dataOf before = [] := by
  rw [dataOf, decode_of_not_valid invalid]
  rfl

theorem dataOf_crlf (first : Valid before) (second : Valid after) :
    dataOf (before ++ crlfEnd ++ after) = dataOf before ++ dataOf after := by
  obtain ⟨first, rfl⟩ := first
  obtain ⟨second, rfl⟩ := second
  have ends : crlfEnd = encode ['\r', '\n', '\r', '\n'] := by decide
  rw [ends, ← encode_append, ← encode_append, dataOf_encode, dataOf_encode, dataOf_encode,
    List.append_assoc]
  have blank : dataLines ('\r' :: '\n' :: second) = dataLines second :=
    linesFrom_crlf [] [] second
  rw [← blank]
  exact linesFrom_crlf [] first _

theorem dataOf_returns (first : Valid before) :
    dataOf (before ++ [13, 10, 13]) = dataOf before := by
  obtain ⟨first, rfl⟩ := first
  have ends : [13, 10, 13] = encode ['\r', '\n', '\r'] := by decide
  rw [ends, ← encode_append, dataOf_encode, dataOf_encode, dataLines, linesFrom_crlf]
  exact List.append_nil _

theorem dataOf_newline : dataOf (10 :: after) = dataOf after := by
  by_cases valid : Valid after
  · obtain ⟨text, rfl⟩ := valid
    have written : 10 :: encode text = encode ('\n' :: text) := rfl
    rw [written, dataOf_encode, dataOf_encode, dataLines, linesFrom, if_pos rfl]
    exact List.filterMap_cons_none dataLine_nil
  · have invalid : ¬ Valid (10 :: after) := fun written => by
      have whole : Valid ([10] ++ after) := written
      exact valid (whole.of_append (by simp))
    rw [dataOf_invalid valid, dataOf_invalid invalid]

theorem eventOf_newline : eventOf (10 :: after) = eventOf after := by
  rw [eventOf, eventOf, dataOf_newline]

theorem eventOf_of_dataOf_nil (empty : dataOf before = []) : eventOf before = [] := by
  rw [eventOf, empty]
  rfl

theorem join_append {first second : List (List Char)} (data : first ≠ []) (more : second ≠ []) :
    join (first ++ second) = join first ++ '\n' :: join second := by
  induction first with
  | nil => exact absurd rfl data
  | cons line first ih =>
      cases first with
      | nil =>
          cases second with
          | nil => exact absurd rfl more
          | cons next second => simp [join, List.intercalate]
      | cons next first =>
          have later := ih (List.cons_ne_nil _ _)
          simp only [join, List.intercalate, List.cons_append] at later ⊢
          simp [later]

/-- Two runs of data lines make the same events in one frame as in two, unless neither is empty. -/
theorem eventOf_crlf_iff (first : Valid before) (second : Valid after) :
    eventOf (before ++ crlfEnd ++ after) = eventOf before ++ eventOf after ↔
      dataOf before = [] ∨ dataOf after = [] := by
  have joined := dataOf_crlf first second
  constructor
  · intro same
    by_contra both
    rw [not_or] at both
    rw [eventOf, joined, join_append both.1 both.2, if_neg (by simp), eventOf, eventOf] at same
    have lengths := congrArg (fun events => (List.flatten events).length) same
    have size (text : List Char) :
        (List.flatten (if text = [] then [] else [text])).length = text.length := by
      split
      · rename_i empty
        rw [empty]
        rfl
      · rw [List.flatten_singleton]
    simp only [List.flatten_append, List.length_append, size, List.flatten_singleton,
      List.length_cons] at lengths
    omega
  · rintro (empty | empty)
    · rw [eventOf_of_dataOf_nil empty, eventOf, joined, empty, List.nil_append]
      rfl
    · rw [eventOf_of_dataOf_nil empty, eventOf, joined, empty, List.append_nil, List.append_nil]
      rfl

end

end OpsCodex.Model.Sse
