import Mathlib.Data.List.TakeWhile
import OpsCodex.Action.Preimage
import OpsCodex.Encoding.Utf8
import OpsCodex.Strings

/-! How the client of an MCP server over stdio splits what the server writes into messages. -/

set_option autoImplicit false

namespace OpsCodex.Extensions.Mcp

open OpsCodex.Json OpsCodex.Action
open OpsCodex.Strings
open Encoding.Utf8 (decode)

abbrev Bytes := List UInt8

def newline : UInt8 := 10

def digitsValue (digits : List Char) : Nat :=
  digits.foldl (fun value digit => 10 * value + (digit.toNat - '0'.toNat)) 0

/-- Decimal digits behind an optional plus sign, below `2 ^ 64`. -/
def parseUsize (text : List Char) : Option Nat :=
  let digits := match text with
    | '+' :: digits => digits
    | digits => digits
  if digits ≠ [] ∧ digits.all Char.isDigit ∧ digitsValue digits < 2 ^ 64 then
    some (digitsValue digits)
  else none

/-- A line with its line feed, if it has one, and what follows it. -/
def readLine : Bytes → Bytes × Bytes
  | [] => ([], [])
  | byte :: bytes =>
      if byte = newline then ([byte], bytes)
      else (byte :: (readLine bytes).1, (readLine bytes).2)

/-- What the reader makes of one line. -/
inductive Line where
  | blank
  | contentLength (length : Nat)
  | message (text : List Char)
  | ignored
  | failed (error : OpsCodexError)

def Line.ofTrimmed (trimmed : List Char) : Line :=
  if trimmed = [] then .blank
  else match splitOnce [':'] trimmed with
    | some (name, value) =>
        if eqIgnoreAsciiCase name "content-length".toList then
          match parseUsize (trim value) with
          | some length => .contentLength length
          | none => .failed (.protocol "invalid MCP Content-Length")
        else .ignored
    | none => if trimmed.head? = some '{' then .message trimmed else .ignored

def Line.ofBytes (line : Bytes) : Line :=
  match decode line with
  | some text => .ofTrimmed (trim text)
  | none => .failed (.tool "failed to read MCP response: stream did not contain valid UTF-8")

theorem readLine_append (bytes : Bytes) : (readLine bytes).1 ++ (readLine bytes).2 = bytes := by
  induction bytes with
  | nil => rfl
  | cons byte bytes ih =>
      rw [readLine]
      split
      · rfl
      · rw [List.cons_append, ih]

theorem length_readLine_lt {bytes : Bytes} (some : (readLine bytes).1 ≠ []) :
    (readLine bytes).2.length < bytes.length := by
  have lengths := congrArg List.length (readLine_append bytes)
  rw [List.length_append] at lengths
  have := List.length_pos_iff.mpr some
  omega

section

variable (fromSlice : Bytes → Except String Value)

def closedStdout : Result Value := .error (.tool "MCP server closed stdout")

def fromJson (bytes : Bytes) : Result Value :=
  match fromSlice bytes with
  | .ok value => .ok value
  | .error error => .error (.protocol ("invalid MCP JSON-RPC: " ++ error))

/-- The body of a message; there is no result where the reader waits for more bytes. -/
def readBody (ended : Bool) (contentLength : Option Nat) (stream : Bytes) :
    Option (Result Value × Bytes) :=
  match contentLength with
  | none => some (.error (.protocol "MCP response is missing Content-Length"), stream)
  | some length =>
      if length ≤ stream.length then
        some (fromJson fromSlice (stream.take length), stream.drop length)
      else if ended then some (.error (.tool "failed to read MCP body: early eof"), [])
      else none

/-- One message, after the header lines that gave `contentLength`, with what stays unread. -/
def readFrom (ended : Bool) (contentLength : Option Nat) (stream : Bytes) :
    Option (Result Value × Bytes) :=
  let line := (readLine stream).1
  let rest := (readLine stream).2
  if !ended && line.getLast? ≠ some newline then none
  else if _ : line = [] then some (closedStdout, rest)
  else match Line.ofBytes line with
    | .blank => readBody fromSlice ended contentLength rest
    | .contentLength length => readFrom ended (some length) rest
    | .message text => some (fromJson fromSlice (utf8 (String.ofList text)), rest)
    | .ignored => readFrom ended contentLength rest
    | .failed error => some (.error error, rest)
termination_by stream.length
decreasing_by
  all_goals exact length_readLine_lt ‹_›

/-- One call of the reader on a server that has written `stream` and may write more. -/
def read (stream : Bytes) : Option (Result Value × Bytes) := readFrom fromSlice false none stream

/-- One call of the reader on a server that has closed its output behind `stream`. -/
def readEnded (stream : Bytes) : Result Value × Bytes :=
  (readFrom fromSlice true none stream).getD (closedStdout, [])

/-- The results of repeated calls. -/
def reads : Nat → Bytes → List (Result Value)
  | 0, _ => []
  | count + 1, stream =>
      (readEnded fromSlice stream).1 :: reads count (readEnded fromSlice stream).2

end

section Lines

/-- A line that opens a JSON object and has a colon passes for a header line. -/
theorem Line.ofTrimmed_brace_colon {text : List Char} (colon : ':' ∈ '{' :: text) :
    Line.ofTrimmed ('{' :: text) = .ignored := by
  cases split : splitOnce [':'] ('{' :: text) with
  | none => exact absurd colon (splitOnce_eq_none.mp split)
  | some parts =>
      obtain ⟨name, value⟩ := parts
      obtain ⟨rest, rfl⟩ := splitOnce_cons (by decide) split
      have other : eqIgnoreAsciiCase ('{' :: rest) "content-length".toList = false := by
        refine decide_eq_false fun same => ?_
        have heads := congrArg List.head? same
        rw [toAsciiLowercase, List.map_cons, List.head?_cons] at heads
        exact absurd heads (by decide)
      simp only [Line.ofTrimmed, split, other]
      rfl

theorem Line.ofTrimmed_brace {text : List Char} (plain : ':' ∉ '{' :: text) :
    Line.ofTrimmed ('{' :: text) = .message ('{' :: text) := by
  simp only [Line.ofTrimmed, splitOnce_eq_none.mpr plain]
  rfl

theorem trim_newline (text : List Char) : trim (text ++ ['\n']) = trim text := by
  have white : isWhitespace '\n' = true := by decide
  by_cases blank : ∀ char ∈ text, isWhitespace char = true
  · have all : ∀ char ∈ text ++ ['\n'], isWhitespace char = true := by
      intro char member
      rcases List.mem_append.mp member with member | member
      · exact blank char member
      · exact (List.mem_singleton.mp member) ▸ white
    simp only [trim]
    rw [List.dropWhile_eq_nil_iff.mpr all, List.dropWhile_eq_nil_iff.mpr blank]
  · have kept : (text ++ ['\n']).dropWhile isWhitespace =
        text.dropWhile isWhitespace ++ ['\n'] := by
      rw [List.dropWhile_append, if_neg]
      intro empty
      exact blank (List.dropWhile_eq_nil_iff.mp (List.isEmpty_iff.mp empty))
    simp only [trim]
    rw [kept, List.reverse_append, List.reverse_singleton, List.singleton_append,
      List.dropWhile_cons_of_pos white]

theorem decode_line (text : String) : decode (utf8 text ++ [newline]) =
    some (text.toList ++ ['\n']) := by
  have joined : utf8 text ++ [newline] = utf8 (text ++ "\n") := by
    rw [utf8_eq_data, utf8_eq_data, String.toByteArray_append, ByteArray.data_append,
      Array.toList_append]
    rfl
  rw [decode, joined, fromUTF8?_utf8, Option.map_some, String.toList_append]
  rfl

theorem Line.ofBytes_text (text : String) :
    Line.ofBytes (utf8 text ++ [newline]) = Line.ofTrimmed (trim text.toList) := by
  rw [Line.ofBytes, decode_line]
  simp only [trim_newline]

theorem readLine_line {line : Bytes} (oneLine : newline ∉ line) (rest : Bytes) :
    readLine (line ++ [newline] ++ rest) = (line ++ [newline], rest) := by
  induction line with
  | nil => rfl
  | cons byte line ih =>
      rw [List.mem_cons, not_or] at oneLine
      simp only [List.cons_append]
      rw [readLine, if_neg (Ne.symm oneLine.1), ih oneLine.2]

variable {fromSlice : Bytes → Except String Value} {ended : Bool}

/-- What the reader does with a line of the server. -/
theorem readFrom_line {line : Bytes} (oneLine : newline ∉ line) (contentLength : Option Nat)
    (rest : Bytes) :
    readFrom fromSlice ended contentLength (line ++ [newline] ++ rest) =
      match Line.ofBytes (line ++ [newline]) with
      | .blank => readBody fromSlice ended contentLength rest
      | .contentLength length => readFrom fromSlice ended (some length) rest
      | .message text => some (fromJson fromSlice (utf8 (String.ofList text)), rest)
      | .ignored => readFrom fromSlice ended contentLength rest
      | .failed error => some (.error error, rest) := by
  rw [readFrom, readLine_line oneLine]
  simp

end Lines

/-- A message as a server may write it. -/
inductive Form where
  | line (text : String)
  | block (headers : List String) (blank : String) (body : Bytes)

namespace Form

/-- The header lines end with a line feed; a carriage return before it is part of the text. -/
def wire : Form → Bytes
  | .line text => utf8 text ++ [newline]
  | .block headers blank body =>
      headers.flatMap (fun header => utf8 header ++ [newline]) ++ (utf8 blank ++ [newline]) ++
        body

/-- A header line of a block with a body of `length` bytes. -/
structure HeaderFor (length : Nat) (header : String) : Prop where
  oneLine : newline ∉ utf8 header
  field : ∃ name value, splitOnce [':'] (trim header.toList) = some (name, value) ∧
    (eqIgnoreAsciiCase name "content-length".toList = true →
      parseUsize (trim value) = some length)

def IsContentLength (header : String) : Prop :=
  ∃ name value, splitOnce [':'] (trim header.toList) = some (name, value) ∧
    eqIgnoreAsciiCase name "content-length".toList = true

variable (fromSlice : Bytes → Except String Value)

/-- The text of an object on one line, or a header block with as many bytes of body as it says. -/
def Carries (value : Value) : Form → Prop
  | .line text => newline ∉ utf8 text ∧ (trim text.toList).head? = some '{' ∧
      fromSlice (utf8 (String.ofList (trim text.toList))) = .ok value
  | .block headers blank body => (∀ header ∈ headers, HeaderFor body.length header) ∧
      (∃ header ∈ headers, IsContentLength header) ∧ newline ∉ utf8 blank ∧
      trim blank.toList = [] ∧ fromSlice body = .ok value

/-- A message on one line whose text has a colon. -/
def hasColon : Form → Bool
  | .line text => decide (':' ∈ trim text.toList)
  | .block _ _ _ => false

end Form

structure Message where
  value : Value
  form : Form

def wire (messages : List Message) : Bytes := messages.flatMap fun message => message.form.wire

section Framing

variable {fromSlice : Bytes → Except String Value} {ended : Bool}

variable (fromSlice ended) in
theorem readFrom_header {length : Nat} {header : String} (field : Form.HeaderFor length header)
    (contentLength : Option Nat) (rest : Bytes) :
    ∃ next, readFrom fromSlice ended contentLength (utf8 header ++ [newline] ++ rest) =
        readFrom fromSlice ended next rest ∧
      (next = contentLength ∨ next = some length) ∧
      (Form.IsContentLength header → next = some length) := by
  obtain ⟨oneLine, name, value, split, parsed⟩ := field
  have filled : trim header.toList ≠ [] := by
    intro empty
    rw [empty] at split
    exact absurd split (by simp [splitOnce, Offsets.seek])
  rw [readFrom_line oneLine, Line.ofBytes_text, Line.ofTrimmed, if_neg filled, split]
  by_cases isLength : eqIgnoreAsciiCase name "content-length".toList = true
  · refine ⟨some length, ?_, .inr rfl, fun _ => rfl⟩
    simp only [isLength, parsed isLength, if_true]
  · refine ⟨contentLength, ?_, .inl rfl, ?_⟩
    · simp only [isLength]
      rfl
    · rintro ⟨name', value', split', isLength'⟩
      rw [split, Option.some.injEq, Prod.mk.injEq] at split'
      exact absurd (split'.1 ▸ isLength') isLength

theorem readFrom_headers {length : Nat} {headers : List String}
    (fields : ∀ header ∈ headers, Form.HeaderFor length header) (contentLength : Option Nat)
    (known : contentLength = some length ∨ ∃ header ∈ headers, Form.IsContentLength header)
    (rest : Bytes) :
    readFrom fromSlice ended contentLength
        (headers.flatMap (fun header => utf8 header ++ [newline]) ++ rest) =
      readFrom fromSlice ended (some length) rest := by
  induction headers generalizing contentLength with
  | nil =>
      rcases known with rfl | ⟨header, member, -⟩
      · rfl
      · exact absurd member List.not_mem_nil
  | cons header headers ih =>
      obtain ⟨next, step, either, own⟩ := readFrom_header fromSlice ended
        (fields header List.mem_cons_self) contentLength
        (headers.flatMap (fun header => utf8 header ++ [newline]) ++ rest)
      rw [List.flatMap_cons, List.append_assoc, step]
      refine ih (fun other member => fields other (List.mem_cons_of_mem header member)) next ?_
      rcases known with known | ⟨other, member, isLength⟩
      · rcases either with either | either
        · exact .inl (either.trans known)
        · exact .inl either
      · rcases List.mem_cons.mp member with rfl | member
        · exact .inl (own isLength)
        · exact .inr ⟨other, member, isLength⟩

/-- The reader gives the object of a header block and stops behind its body. -/
theorem readFrom_block {value : Value} {headers : List String} {blank : String} {body : Bytes}
    (carries : Form.Carries fromSlice value (.block headers blank body)) (rest : Bytes) :
    readFrom fromSlice ended none ((Form.block headers blank body).wire ++ rest) =
      some (.ok value, rest) := by
  obtain ⟨fields, isLength, oneLine, white, parsed⟩ := carries
  have wire : (Form.block headers blank body).wire ++ rest =
      headers.flatMap (fun header => utf8 header ++ [newline]) ++
        (utf8 blank ++ [newline] ++ (body ++ rest)) := by
    simp [Form.wire]
  rw [wire, readFrom_headers fields none (.inr isLength), readFrom_line oneLine,
    Line.ofBytes_text, white]
  simp [Line.ofTrimmed, readBody, fromJson, parsed]

/-- A message on one line is read if it has no colon, and is skipped as a header otherwise. -/
theorem readFrom_text {value : Value} {text : String}
    (carries : Form.Carries fromSlice value (.line text)) (rest : Bytes) :
    readFrom fromSlice ended none ((Form.line text).wire ++ rest) =
      if (Form.line text).hasColon then readFrom fromSlice ended none rest
      else some (.ok value, rest) := by
  obtain ⟨oneLine, brace, parsed⟩ := carries
  obtain ⟨inner, opened⟩ := List.head?_eq_some_iff.mp brace
  rw [Form.wire, readFrom_line oneLine, Line.ofBytes_text]
  rw [opened] at parsed ⊢
  by_cases colon : ':' ∈ '{' :: inner
  · rw [Line.ofTrimmed_brace_colon colon]
    simp only [Form.hasColon, opened, colon, decide_true, if_true]
  · rw [Line.ofTrimmed_brace colon]
    simp only [Form.hasColon, opened, colon, decide_false, fromJson, parsed]
    rfl

variable (ended) in
theorem readFrom_message {message : Message}
    (carries : message.form.Carries fromSlice message.value) (rest : Bytes) :
    readFrom fromSlice ended none (message.form.wire ++ rest) =
      if message.form.hasColon then readFrom fromSlice ended none rest
      else some (.ok message.value, rest) := by
  obtain ⟨value, form⟩ := message
  cases form with
  | line text => exact readFrom_text carries rest
  | block headers blank body => exact readFrom_block carries rest

end Framing

section Reads

variable {fromSlice : Bytes → Except String Value}

theorem readEnded_nil : readEnded fromSlice [] = (closedStdout, []) := by
  rw [readEnded, readFrom]
  simp [readLine]

theorem reads_nil (count : Nat) : reads fromSlice count [] =
    List.replicate count closedStdout := by
  induction count with
  | zero => rfl
  | succ count ih => rw [reads, readEnded_nil, ih, List.replicate_succ]

/-- The messages that the reader does not skip. -/
def delivered (messages : List Message) : List (Result Value) :=
  (messages.filter fun message : Message => !message.form.hasColon).map
    fun message : Message => .ok message.value

/-- Repeated calls give the messages that are not skipped, then the end of the output. -/
theorem reads_wire {messages : List Message}
    (carried : ∀ message ∈ messages, message.form.Carries fromSlice message.value)
    (count : Nat) :
    reads fromSlice count (wire messages) =
      (delivered messages ++ List.replicate count closedStdout).take count := by
  induction messages generalizing count with
  | nil => simp [wire, delivered, reads_nil]
  | cons message messages ih =>
      have later := ih fun other member => carried other (List.mem_cons_of_mem message member)
      cases count with
      | zero => rfl
      | succ count =>
          have step := readFrom_message true (carried message List.mem_cons_self)
            (wire messages)
          have wireCons : wire (message :: messages) = message.form.wire ++ wire messages := rfl
          cases colon : message.form.hasColon with
          | true =>
              rw [colon, if_pos rfl] at step
              have same : readEnded fromSlice (wire (message :: messages)) =
                  readEnded fromSlice (wire messages) := by
                rw [wireCons, readEnded, step, readEnded]
              have unread : reads fromSlice (count + 1) (wire (message :: messages)) =
                  reads fromSlice (count + 1) (wire messages) := by
                rw [reads, same, reads]
              rw [unread, later]
              simp [delivered, colon]
          | false =>
              rw [colon, if_neg (by decide)] at step
              have same : readEnded fromSlice (wire (message :: messages)) =
                  (.ok message.value, wire messages) := by
                rw [wireCons, readEnded, step, Option.getD_some]
              have kept : delivered (message :: messages) =
                  .ok message.value :: delivered messages := by
                simp [delivered, colon]
              have enough : count ≤
                  (delivered messages ++ List.replicate count closedStdout).length := by
                simp
              rw [reads, same, later, kept, List.cons_append, List.take_succ_cons,
                List.replicate_succ', ← List.append_assoc, List.take_append_of_le_length enough]

/-- Repeated calls return exactly the objects of the server, in order, if and only if no
object came on a line of its own with a colon in it. Every JSON-RPC object has one. -/
theorem reads_eq_messages {messages : List Message}
    (carried : ∀ message ∈ messages, message.form.Carries fromSlice message.value) :
    reads fromSlice messages.length (wire messages) =
        messages.map (fun message => .ok message.value) ↔
      ∀ message ∈ messages, message.form.hasColon = false := by
  rw [reads_wire carried]
  constructor
  · intro same message member
    have short : messages.length ≤ (delivered messages).length := by
      by_contra less
      have missing : closedStdout ∈
          messages.map (fun message : Message => .ok message.value) := by
        rw [← same, List.take_append]
        refine List.mem_append_right _ ?_
        rw [List.take_replicate]
        exact List.mem_replicate.mpr ⟨by omega, rfl⟩
      obtain ⟨other, -, wrong⟩ := List.mem_map.mp missing
      exact absurd wrong (by simp [closedStdout])
    rw [delivered, List.length_map] at short
    have all := List.length_filter_eq_length_iff.mp
      (Nat.le_antisymm (List.length_filter_le _ messages) short)
    simpa using all message member
  · intro plain
    have all : delivered messages = messages.map (fun message => .ok message.value) := by
      rw [delivered, List.filter_eq_self.mpr]
      intro message member
      simp [plain message member]
    rw [all, List.take_append_of_le_length (by simp), List.take_of_length_le (by simp)]

end Reads

namespace Demo.Framing

def text : String := "\x7b\"jsonrpc\":\"2.0\",\"id\":1,\"result\":null\x7d"

def value : Value := .object
  [("jsonrpc", .string "2.0"), ("id", .number (.posInt 1)), ("result", .null)]

/-- A parser that knows two texts. -/
def fromSlice (bytes : Bytes) : Except String Value :=
  if bytes = utf8 text then .ok value
  else if bytes = utf8 "\x7b\x7d" then .ok (.object [])
  else .error "expected value"

def block : Form := .block ["Content-Length: 38\r"] "\r" (utf8 text)

theorem carries_block : block.Carries fromSlice value := by
  refine ⟨?_, ⟨_, List.mem_cons_self, ?_⟩, ?_, by decide, if_pos rfl⟩
  · intro header member
    obtain rfl := List.mem_singleton.mp member
    have size : (utf8 text).length = 38 := by
      rw [utf8_eq_flatMap]
      decide
    refine ⟨by rw [utf8_eq_flatMap]; decide, "Content-Length".toList, " 38".toList, by decide, ?_⟩
    rw [size]
    decide
  · exact ⟨"Content-Length".toList, " 38".toList, by decide, by decide⟩
  · rw [utf8_eq_flatMap]
    decide

theorem carries_line : (Form.line text).Carries fromSlice value := by
  have trimmed : trim text.toList = text.toList := by decide
  refine ⟨by rw [utf8_eq_flatMap]; decide, by rw [trimmed]; decide, ?_⟩
  rw [trimmed, String.ofList_toList]
  exact if_pos rfl

theorem carries_plain : (Form.line "\x7b\x7d").Carries fromSlice (.object []) := by
  have trimmed : trim "\x7b\x7d".toList = "\x7b\x7d".toList := by decide
  have other : utf8 "\x7b\x7d" ≠ utf8 text := by
    intro same
    exact absurd (utf8_injective same) (by decide)
  refine ⟨by rw [utf8_eq_flatMap]; decide, by rw [trimmed]; decide, ?_⟩
  rw [trimmed, String.ofList_toList, fromSlice, if_neg other, if_pos rfl]

/-- Two objects in blocks and, between them, one without a colon on a line. -/
def mixed : List Message := [⟨value, block⟩, ⟨.object [], .line "\x7b\x7d"⟩, ⟨value, block⟩]

end Demo.Framing

theorem reads_eq_messages_block :
    reads Demo.Framing.fromSlice 3 (wire Demo.Framing.mixed) =
      [.ok Demo.Framing.value, .ok (.object []), .ok Demo.Framing.value] := by
  have carried : ∀ message ∈ Demo.Framing.mixed,
      message.form.Carries Demo.Framing.fromSlice message.value := by
    intro message member
    simp only [Demo.Framing.mixed, List.mem_cons, List.not_mem_nil, or_false] at member
    rcases member with rfl | rfl | rfl
    · exact Demo.Framing.carries_block
    · exact Demo.Framing.carries_plain
    · exact Demo.Framing.carries_block
  exact (reads_eq_messages carried).mpr (by decide)

/-- A JSON-RPC object on a line of its own is skipped. -/
theorem reads_ne_messages_line : ¬ ∀ messages : List Message,
    (∀ message ∈ messages, message.form.Carries Demo.Framing.fromSlice message.value) →
    reads Demo.Framing.fromSlice messages.length (wire messages) =
      messages.map (fun message => .ok message.value) := by
  intro always
  have carried : ∀ message ∈ [(⟨Demo.Framing.value, .line Demo.Framing.text⟩ : Message)],
      message.form.Carries Demo.Framing.fromSlice message.value := by
    intro message member
    obtain rfl := List.mem_singleton.mp member
    exact Demo.Framing.carries_line
  have given := always _ carried
  have colon : (Form.line Demo.Framing.text).hasColon = true := by decide
  rw [reads_wire carried] at given
  simp [delivered, colon, closedStdout] at given

end OpsCodex.Extensions.Mcp
