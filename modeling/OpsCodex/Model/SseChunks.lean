import OpsCodex.Model.SseDecoder

/-! When the events of the event stream depend on how the stream is cut into chunks. -/

set_option autoImplicit false

namespace OpsCodex.Model.Sse

open Encoding.Utf8 Delimited

/-- Cut a stream at each frame end, LF LF or CRLF CRLF, whichever comes first: a frame with a
data line that ends in CRLF CRLF is followed by another data line before the next LF LF. -/
inductive Mixed : Bytes → Prop
  | here {before next rest : Bytes} (first : FirstAfter crlfEnd before)
      (joined : FirstAfter lfEnd (before ++ crlfEnd ++ next)) (data : dataOf before ≠ [])
      (more : dataOf next ≠ []) : Mixed (before ++ crlfEnd ++ next ++ lfEnd ++ rest)
  | crlf {before rest : Bytes} (first : FirstAfter crlfEnd before)
      (missing : ¬ lfEnd <:+: before) (later : Mixed rest) : Mixed (before ++ crlfEnd ++ rest)
  | lf {before rest : Bytes} (first : FirstAfter lfEnd before)
      (missing : ¬ crlfEnd <:+: before ++ lfEnd) (later : Mixed rest) :
      Mixed (before ++ lfEnd ++ rest)

/-! ## Where the two frame ends meet -/

section

variable {before after rest next text : Bytes}

theorem lf_infix_return :
    lfEnd <:+: before ++ 13 :: rest ↔ lfEnd <:+: before ∨ lfEnd <:+: rest := by
  induction before with
  | nil => simp [lfEnd, List.infix_cons_iff]
  | cons byte before ih =>
      have begins : lfEnd <+: byte :: (before ++ 13 :: rest) ↔ lfEnd <+: byte :: before := by
        cases before with
        | nil => simp [lfEnd]
        | cons => simp [lfEnd]
      rw [List.cons_append, List.infix_cons_iff, ih, begins, List.infix_cons_iff, or_assoc]

theorem lf_infix_crlf :
    lfEnd <:+: before ++ crlfEnd ++ rest ↔ lfEnd <:+: before ∨ lfEnd <:+: 10 :: rest := by
  have shape : before ++ crlfEnd ++ rest = before ++ 13 :: ([10] ++ 13 :: 10 :: rest) := by
    simp [crlfEnd]
  have alone : ¬ lfEnd <:+: [10] := by decide
  rw [shape, lf_infix_return, lf_infix_return]
  simp only [alone, false_or]

/-- A frame that ends in CRLF CRLF lies behind an LF LF, before it, or shares a byte with it. -/
theorem ends_cases (same : before ++ crlfEnd ++ rest = after ++ lfEnd ++ text) :
    lfEnd <:+: before ∨
      (∃ next, after = before ++ crlfEnd ++ next ∧ rest = next ++ lfEnd ++ text) ∨
      (after = before ++ [13, 10, 13] ∧ rest = 10 :: text) := by
  rw [List.append_assoc, List.append_assoc, List.append_eq_append_iff] at same
  rcases same with ⟨part, rfl, same⟩ | ⟨part, rfl, same⟩
  · right
    -- The LF LF begins inside the CRLF CRLF: only the last byte of the one fits the other.
    rcases part with - | ⟨first, - | ⟨second, - | ⟨third, - | ⟨fourth, next⟩⟩⟩⟩
    · simp [crlfEnd, lfEnd] at same
    · simp [crlfEnd, lfEnd] at same
    · simp [crlfEnd, lfEnd] at same
    · simp only [crlfEnd, lfEnd, List.cons_append, List.nil_append, List.cons.injEq,
        true_and] at same
      obtain ⟨rfl, rfl, rfl, rfl⟩ := same
      exact .inr ⟨rfl, rfl⟩
    · simp only [crlfEnd, List.cons_append, List.nil_append, List.cons.injEq] at same
      obtain ⟨rfl, rfl, rfl, rfl, rfl⟩ := same
      exact .inl ⟨next, by simp [crlfEnd], by simp⟩
  · left
    rcases part with - | ⟨first, - | ⟨second, part⟩⟩
    · simp [crlfEnd, lfEnd] at same
    · simp [crlfEnd, lfEnd] at same
    · simp only [lfEnd, List.cons_append, List.nil_append, List.cons.injEq] at same
      obtain ⟨rfl, rfl, -⟩ := same
      exact ⟨after, part, by simp [lfEnd]⟩

theorem firstAfter_crlf_newline :
    FirstAfter crlfEnd (10 :: before) ↔ FirstAfter crlfEnd before := by
  rw [firstAfter_cons]
  simp [crlfEnd]

theorem firstAfter_lf_newline (other : ¬ [10] <+: before ++ lfEnd ++ rest)
    (first : FirstAfter lfEnd before) : FirstAfter lfEnd (10 :: before) := by
  refine firstAfter_cons.mpr ⟨fun begins => other ?_, first⟩
  have begins : [10] <+: before ++ [10] := (List.cons_prefix_cons.mp begins).2
  have shape : before ++ lfEnd ++ rest = before ++ [10] ++ 10 :: rest := by simp [lfEnd]
  rw [shape]
  exact begins.trans (List.prefix_append _ _)

theorem lf_infix_newline (other : ¬ [10] <+: text) (missing : ¬ lfEnd <:+: text) :
    ¬ lfEnd <:+: 10 :: text := by
  rw [List.infix_cons_iff, not_or]
  exact ⟨fun begins => other (List.cons_prefix_cons.mp begins).2, missing⟩

theorem crlf_infix_newline : crlfEnd <:+: 10 :: text ↔ crlfEnd <:+: text := by
  rw [List.infix_cons_iff]
  simp [crlfEnd]

end

/-! ## A line feed in front -/

theorem eventsOf_newline (text : Bytes) : eventsOf (10 :: text) = eventsOf text := by
  generalize size : text.length = length
  induction length using Nat.strong_induction_on generalizing text with
  | _ length ih =>
      by_cases starts : [10] <+: text
      · obtain ⟨rest, rfl⟩ := starts
        have ended : eventsOf ([] ++ lfEnd ++ rest) = eventOf [] ++ eventsOf rest :=
          eventsOf_lf (firstAfter_nil (by decide))
        have earlier := ih rest.length (by rw [← size, List.length_append]; simp) rest rfl
        exact (ended.trans rfl).trans earlier.symm
      · by_cases ends : lfEnd <:+: text
        · obtain ⟨before, rest, first, rfl⟩ := exists_firstAfter (by decide) ends
          have moved := firstAfter_lf_newline starts first
          rw [eventsOf_lf first, ← eventOf_newline, ← eventsOf_lf moved]
          rfl
        · have missing := lf_infix_newline starts ends
          by_cases returns : crlfEnd <:+: text
          · obtain ⟨before, rest, first, rfl⟩ := exists_firstAfter (by decide) returns
            have moved := firstAfter_crlf_newline.mpr first
            rw [eventsOf_crlf first ends, ← eventOf_newline, ← eventsOf_crlf moved missing]
            rfl
          · rw [eventsOf_last ends returns, ← eventOf_newline,
              eventsOf_last missing (mt crlf_infix_newline.mp returns)]

section

variable {before rest text : Bytes}

theorem crlf_after_newline (same : 10 :: text = before ++ crlfEnd ++ rest) :
    ∃ front, before = 10 :: front ∧ text = front ++ crlfEnd ++ rest := by
  cases before with
  | nil => cases same
  | cons byte front =>
      injection same with byteSame same
      exact ⟨front, by rw [byteSame], same⟩

/-- A line feed in front takes part in the mixing only as the first half of an LF LF. -/
theorem Mixed.newline_cases (mixed : Mixed (10 :: text)) :
    Mixed text ∨ ∃ rest, text = 10 :: rest ∧ Mixed rest := by
  generalize same : 10 :: text = stream at mixed
  cases mixed with
  | @here before next rest first joined data more =>
      rw [List.append_assoc _ _ rest, List.append_assoc _ next] at same
      obtain ⟨front, rfl, rfl⟩ := crlf_after_newline same
      rw [dataOf_newline] at data
      have mixed : Mixed (front ++ crlfEnd ++ next ++ lfEnd ++ rest) :=
        .here (firstAfter_crlf_newline.mp first) (firstAfter_cons.mp joined).2 data more
      rw [List.append_assoc _ _ rest, List.append_assoc _ next] at mixed
      exact .inl mixed
  | @crlf before rest first missing later =>
      obtain ⟨front, rfl, rfl⟩ := crlf_after_newline same
      rw [List.infix_cons_iff, not_or] at missing
      exact .inl (.crlf (firstAfter_crlf_newline.mp first) missing.2 later)
  | @lf before rest first missing later =>
      cases before with
      | nil =>
          injection same with _ same
          exact .inr ⟨rest, same, later⟩
      | cons byte front =>
          injection same with byteSame same
          subst same
          rw [List.cons_append, List.infix_cons_iff, not_or] at missing
          exact .inl (.lf (firstAfter_cons.mp first).2 missing.2 later)

theorem Mixed.newline_of_other (mixed : Mixed text) (other : ¬ [10] <+: text) :
    Mixed (10 :: text) := by
  cases mixed with
  | @here before next rest first joined data more =>
      rw [← dataOf_newline] at data
      exact .here (firstAfter_crlf_newline.mpr first) (firstAfter_lf_newline other joined) data
        more
  | @crlf before rest first missing later =>
      have moved : ¬ lfEnd <:+: 10 :: before := by
        refine lf_infix_newline (fun begins => other ?_) missing
        rw [List.append_assoc]
        exact begins.trans (List.prefix_append _ _)
      exact .crlf (firstAfter_crlf_newline.mpr first) moved later
  | @lf before rest first missing later =>
      have moved : ¬ crlfEnd <:+: 10 :: before ++ lfEnd :=
        mt crlf_infix_newline.mp missing
      exact .lf (firstAfter_lf_newline other first) moved later

end

theorem mixed_newline (text : Bytes) : Mixed (10 :: text) ↔ Mixed text := by
  generalize size : text.length = length
  induction length using Nat.strong_induction_on generalizing text with
  | _ length ih =>
      constructor
      · intro mixed
        rcases mixed.newline_cases with mixed | ⟨rest, rfl, later⟩
        · exact mixed
        · exact (ih rest.length (by rw [← size]; simp) rest rfl).mpr later
      · intro mixed
        by_cases starts : [10] <+: text
        · obtain ⟨rest, rfl⟩ := starts
          have later :=
            (ih rest.length (by rw [← size, List.length_append]; simp) rest rfl).mp mixed
          have mixed : Mixed ([] ++ lfEnd ++ rest) :=
            .lf (firstAfter_nil (by decide)) (by decide) later
          exact mixed
        · exact mixed.newline_of_other starts

section

variable {before rest buffer : Bytes}

theorem Mixed.of_lf (first : FirstAfter lfEnd before) (later : Mixed rest) :
    Mixed (before ++ lfEnd ++ rest) := by
  generalize size : before.length = length
  induction length using Nat.strong_induction_on generalizing before with
  | _ length ih =>
      by_cases returns : crlfEnd <:+: before ++ lfEnd
      · obtain ⟨front, back, frontFirst, same⟩ := exists_firstAfter (by decide) returns
        have shape : front ++ crlfEnd ++ back = before ++ lfEnd ++ [] := by
          rw [← same, List.append_nil]
        rcases ends_cases shape with inside | ⟨next, rfl, rfl⟩ | ⟨rfl, rfl⟩
        · have whole : front <+: before ++ lfEnd := by
            rw [same, List.append_assoc]
            exact List.prefix_append _ _
          have shorter : front <+: before ++ [10] := by
            refine List.prefix_of_prefix_length_le whole ⟨[10], by simp [lfEnd]⟩ ?_
            have sizes := congrArg List.length same
            simp only [List.length_append, lfEnd, crlfEnd, List.length_cons,
              List.length_nil] at sizes ⊢
            omega
          exact absurd (inside.trans shorter.isInfix) first
        · have missing : ¬ lfEnd <:+: front := fun inside => first.not_infix
            (List.infix_append_of_infix_left (List.infix_append_of_infix_left inside))
          by_cases both : dataOf front ≠ [] ∧ dataOf next ≠ []
          · exact .here frontFirst first both.1 both.2
          · have after : Mixed (next ++ lfEnd ++ rest) := by
              refine ih next.length ?_ first.of_append rfl
              rw [← size, List.length_append, List.length_append]
              exact Nat.lt_add_of_pos_left (Nat.add_pos_right _ (by decide))
            have mixed := Mixed.crlf frontFirst missing after
            rw [← List.append_assoc, ← List.append_assoc] at mixed
            exact mixed
        · have missing : ¬ lfEnd <:+: front := fun inside => first.not_infix
            (List.infix_append_of_infix_left inside)
          have written : front ++ [13, 10, 13] ++ lfEnd ++ rest =
              front ++ crlfEnd ++ 10 :: rest := by simp [lfEnd, crlfEnd]
          rw [written]
          exact .crlf frontFirst missing ((mixed_newline rest).mpr later)
      · exact .lf first returns later

/-- A frame that ends in CRLF CRLF and is cut off early adds the events it adds in the end. -/
theorem eventsOf_crlf_step (first : FirstAfter crlfEnd before) (missing : ¬ lfEnd <:+: before)
    (valid : Valid (before ++ crlfEnd ++ rest)) (apart : ¬ Mixed (before ++ crlfEnd ++ rest)) :
    eventsOf (before ++ crlfEnd ++ rest) = eventOf before ++ eventsOf rest := by
  by_cases ends : lfEnd <:+: before ++ crlfEnd ++ rest
  · obtain ⟨whole, text, joined, same⟩ := exists_firstAfter (by decide) ends
    obtain ⟨validBefore, validRest⟩ := valid_crlf.mp valid
    rcases ends_cases same with inside | ⟨next, rfl, rfl⟩ | ⟨rfl, rfl⟩
    · exact absurd inside missing
    · have only : dataOf before = [] ∨ dataOf next = [] := by
        by_contra both
        rw [not_or] at both
        rw [same] at apart
        exact apart (.here first joined both.1 both.2)
      rw [same, eventsOf_lf joined, eventsOf_lf joined.of_append,
        (eventOf_crlf_iff validBefore (valid_lf.mp validRest).1).mpr only, List.append_assoc]
    · have returned : eventOf (before ++ [13, 10, 13]) = eventOf before := by
        rw [eventOf, eventOf, dataOf_returns validBefore]
      rw [same, eventsOf_lf joined, eventsOf_newline, returned]
  · exact eventsOf_crlf first ends

/-- What a buffer is cut into does not change the events of the stream that begins with it. -/
theorem cuts_online (buffer later : Bytes) (valid : Valid (buffer ++ later))
    (apart : ¬ Mixed (buffer ++ later)) :
    (cuts buffer).1.flatMap eventOf ++ eventsOf ((cuts buffer).2 ++ later) =
      eventsOf (buffer ++ later) ∧ ¬ Mixed ((cuts buffer).2 ++ later) := by
  induction buffer using frame_induction with
  | lf before rest first ih =>
      rw [List.append_assoc] at valid apart
      obtain ⟨same, kept⟩ := ih (valid_lf.mp valid).2 fun mixed => apart (.of_lf first mixed)
      rw [cuts_lf first]
      refine ⟨?_, kept⟩
      rw [List.append_assoc _ rest, eventsOf_lf first, List.flatMap_cons, List.append_assoc, same]
  | crlf before rest first missing ih =>
      have clean : ¬ lfEnd <:+: before := fun inside => missing
        (List.infix_append_of_infix_left (List.infix_append_of_infix_left inside))
      rw [List.append_assoc] at valid apart
      obtain ⟨same, kept⟩ := ih (valid_crlf.mp valid).2 fun mixed =>
        apart (.crlf first clean mixed)
      rw [cuts_crlf first missing]
      refine ⟨?_, kept⟩
      rw [List.append_assoc _ rest, eventsOf_crlf_step first clean valid apart,
        List.flatMap_cons, List.append_assoc, same]
  | last rest lf crlf =>
      rw [cuts_none lf crlf]
      exact ⟨rfl, apart⟩

theorem eventsFrom_of_apart (chunks : List Bytes) (settled : cuts buffer = ([], buffer))
    (valid : Valid (buffer ++ chunks.flatten)) (apart : ¬ Mixed (buffer ++ chunks.flatten)) :
    eventsFrom buffer chunks = eventsOf (buffer ++ chunks.flatten) := by
  induction chunks generalizing buffer with
  | nil =>
      rw [List.flatten_nil, List.append_nil, eventsOf, settled]
      rfl
  | cons chunk chunks ih =>
      rw [List.flatten_cons, ← List.append_assoc] at valid apart ⊢
      obtain ⟨same, kept⟩ := cuts_online _ _ valid apart
      rw [eventsFrom, ih (cuts_rest _) ((valid_cuts _).mp valid).2 kept, same]

theorem cuts_nil : cuts [] = ([], []) := cuts_none (by decide) (by decide)

theorem cuts_crlf_chunk (first : FirstAfter crlfEnd before) (missing : ¬ lfEnd <:+: before) :
    cuts (before ++ crlfEnd) = ([before], []) := by
  have clean : ¬ lfEnd <:+: before ++ crlfEnd ++ [] := by
    rw [lf_infix_crlf, not_or]
    exact ⟨missing, by decide⟩
  have whole := cuts_crlf first clean
  rw [List.append_nil, cuts_nil] at whole
  exact whole

theorem cuts_lf_chunk (first : FirstAfter lfEnd before) :
    cuts (before ++ lfEnd) = ([before], []) := by
  have whole : cuts (before ++ lfEnd ++ []) = _ := cuts_lf first
  rw [List.append_nil, cuts_nil] at whole
  exact whole

theorem eventsFrom_chunk {chunk : Bytes} (chunks : List Bytes)
    (cut : cuts chunk = ([before], [])) :
    eventsFrom [] (chunk :: chunks) = eventOf before ++ eventsFrom [] chunks := by
  rw [eventsFrom, List.nil_append, cut, List.flatMap_cons, List.flatMap_nil, List.append_nil]

theorem eventsFrom_whole (stream : Bytes) : eventsFrom [] [stream] = eventsOf stream := rfl

/-- Frame ends that mix let two ways of cutting the stream give different events. -/
theorem Mixed.exists_chunks {stream : Bytes} (mixed : Mixed stream) (valid : Valid stream) :
    ∃ first second : List Bytes, first.flatten = stream ∧ second.flatten = stream ∧
      eventsFrom [] first ≠ eventsFrom [] second := by
  have extend {chunk before rest : Bytes} (cut : cuts chunk = ([before], []))
      (ih : ∃ first second : List Bytes, first.flatten = rest ∧ second.flatten = rest ∧
        eventsFrom [] first ≠ eventsFrom [] second) :
      ∃ first second : List Bytes, first.flatten = chunk ++ rest ∧
        second.flatten = chunk ++ rest ∧ eventsFrom [] first ≠ eventsFrom [] second := by
    obtain ⟨first, second, rfl, same, different⟩ := ih
    refine ⟨chunk :: first, chunk :: second, rfl, by rw [List.flatten_cons, same], ?_⟩
    rw [eventsFrom_chunk _ cut, eventsFrom_chunk _ cut]
    exact fun equal => different (List.append_cancel_left equal)
  induction mixed with
  | @here before next rest first joined data more =>
      have missing : ¬ lfEnd <:+: before := fun inside => joined.not_infix
        (List.infix_append_of_infix_left (List.infix_append_of_infix_left inside))
      refine ⟨[_], [before ++ crlfEnd, next ++ lfEnd ++ rest], List.append_nil _, by simp, ?_⟩
      rw [eventsFrom_whole, eventsFrom_chunk _ (cuts_crlf_chunk first missing), eventsFrom_whole,
        eventsOf_lf joined, eventsOf_lf joined.of_append, ← List.append_assoc]
      obtain ⟨validBefore, validNext⟩ := valid_crlf.mp (valid_lf.mp valid).1
      intro equal
      rcases (eventOf_crlf_iff validBefore validNext).mp (List.append_cancel_right equal) with
        empty | empty
      · exact data empty
      · exact more empty
  | crlf first missing later ih =>
      exact extend (cuts_crlf_chunk first missing) (ih (valid_crlf.mp valid).2)
  | lf first missing later ih =>
      exact extend (cuts_lf_chunk first) (ih (valid_lf.mp valid).2)

end

/-! ## Chunks -/

variable (utf8Error : Bytes → String)

theorem decodeStream_valid {stream : Bytes} (chunks : List Bytes)
    (written : chunks.flatten = stream) (valid : Valid stream) :
    decodeStream utf8Error chunks = .ok (eventsFrom [] chunks) :=
  run_valid [] chunks (written ▸ valid)

theorem decodeStream_invalid {stream : Bytes} (chunks : List Bytes)
    (written : chunks.flatten = stream) (invalid : ¬ Valid stream) :
    ∃ error, decodeStream utf8Error chunks = .error error :=
  run_invalid [] chunks (written ▸ invalid)

/-- The decoded events do not depend on the chunks if and only if the stream is not UTF-8 or
does not mix its frame ends around data. -/
theorem decodeStream_independent_iff (stream : Bytes) :
    (∀ first second : List Bytes, first.flatten = stream → second.flatten = stream →
      ∀ events, decodeStream utf8Error first = .ok events ↔
        decodeStream utf8Error second = .ok events) ↔
      ¬ Valid stream ∨ ¬ Mixed stream := by
  constructor
  · intro same
    by_contra both
    rw [not_or, not_not, not_not] at both
    obtain ⟨valid, mixed⟩ := both
    obtain ⟨first, second, firstWritten, secondWritten, different⟩ := mixed.exists_chunks valid
    have decoded := (same first second firstWritten secondWritten _).mp
      (decodeStream_valid utf8Error first firstWritten valid)
    rw [decodeStream_valid utf8Error second secondWritten valid] at decoded
    exact different (Except.ok.inj decoded).symm
  · intro condition first second firstWritten secondWritten events
    by_cases valid : Valid stream
    · have apart := condition.resolve_left (not_not_intro valid)
      have decoded (chunks : List Bytes) (written : chunks.flatten = stream) :
          decodeStream utf8Error chunks = .ok (eventsOf stream) := by
        have events := eventsFrom_of_apart chunks cuts_nil
          (by rw [List.nil_append, written]; exact valid)
          (by rw [List.nil_append, written]; exact apart)
        rw [decodeStream_valid utf8Error chunks written valid, events, List.nil_append, written]
      rw [decoded first firstWritten, decoded second secondWritten]
    · obtain ⟨error, failed⟩ := decodeStream_invalid utf8Error first firstWritten valid
      obtain ⟨other, failedToo⟩ := decodeStream_invalid utf8Error second secondWritten valid
      rw [failed, failedToo]
      constructor
      · intro decoded
        cases decoded
      · intro decoded
        cases decoded

def dataA : Bytes := encode ['d', 'a', 't', 'a', ':', ' ', 'a']

def dataB : Bytes := encode ['d', 'a', 't', 'a', ':', ' ', 'b']

theorem decodeStream_depends_on_chunks :
    [dataA ++ crlfEnd ++ dataB ++ lfEnd].flatten = [dataA ++ crlfEnd, dataB ++ lfEnd].flatten ∧
      decodeStream (fun _ => "") [dataA ++ crlfEnd ++ dataB ++ lfEnd] =
        .ok [['a', '\n', 'b']] ∧
      decodeStream (fun _ => "") [dataA ++ crlfEnd, dataB ++ lfEnd] = .ok [['a'], ['b']] := by
  have linesA : dataOf dataA = [['a']] := by
    rw [dataA, dataOf_encode]
    decide
  have linesB : dataOf dataB = [['b']] := by
    rw [dataB, dataOf_encode]
    decide
  have validA : Valid dataA := ⟨_, rfl⟩
  have validB : Valid dataB := ⟨_, rfl⟩
  have firstA : FirstAfter crlfEnd dataA := by
    unfold FirstAfter
    decide
  have firstB : FirstAfter lfEnd dataB := by
    unfold FirstAfter
    decide
  have joined : FirstAfter lfEnd (dataA ++ crlfEnd ++ dataB) := by
    unfold FirstAfter
    decide
  have valid : Valid (dataA ++ crlfEnd ++ dataB ++ lfEnd ++ []) :=
    valid_lf.mpr ⟨valid_crlf.mpr ⟨validA, validB⟩, valid_nil⟩
  have eventAB : eventOf (dataA ++ crlfEnd ++ dataB) = [['a', '\n', 'b']] := by
    rw [eventOf, dataOf_crlf validA validB, linesA, linesB]
    decide
  refine ⟨rfl, ?_, ?_⟩
  · rw [decodeStream_valid _ [_] rfl valid, eventsFrom_chunk _ (cuts_lf_chunk joined), eventAB]
    rfl
  · have missing : ¬ lfEnd <:+: dataA := by decide
    rw [decodeStream_valid _ [_, _] (by simp) valid,
      eventsFrom_chunk _ (cuts_crlf_chunk firstA missing),
      eventsFrom_chunk _ (cuts_lf_chunk firstB), eventOf, eventOf, linesA, linesB]
    rfl

end OpsCodex.Model.Sse
