import OpsCodex.Evidence.Exposure

/-! Texts that a redaction leaves as they are. No pass undoes what an earlier one does, so all
passes leave a text as it is only if each of them does. -/

set_option autoImplicit false

namespace OpsCodex.Evidence.Redact

open OpsCodex.Json Offsets
open OpsCodex.Strings (isWhitespace)

/-- The first bearer token of a text, if it is long enough to be redacted, reads as redacted. -/
def BearerSettled (text : Text) : Prop :=
  ∀ parts ∈ seek (beginsFolded bearer) text, bearerLong (parts.2.drop bearer.length) →
    parts.2.take bearer.length = "Bearer ".toList ∧
      bearerRun (parts.2.drop bearer.length) = redacted

/-- The first value that a key is assigned is the mark and nothing else. -/
def ValueSettled (key text : Text) : Prop :=
  ∀ parts ∈ seek (isAssigned key) text,
    (valueOf (parts.2.drop key.length)).takeWhile isValueChar = redacted

/-- A text in which a redaction finds nothing, or only its own marks. -/
structure Settled (text : Text) : Prop where
  block : ¬ ShowsBlock text
  token : BearerSettled text
  value : ∀ key ∈ secretKeys, ValueSettled key text

instance : DecidablePred BearerSettled := fun text =>
  inferInstanceAs (Decidable (∀ parts ∈ seek (beginsFolded bearer) text, _))

instance (key : Text) : DecidablePred (ValueSettled key) := fun text =>
  inferInstanceAs (Decidable (∀ parts ∈ seek (isAssigned key) text, _))

theorem settled_iff {text : Text} : Settled text ↔
    ¬ ShowsBlock text ∧ BearerSettled text ∧ ∀ key ∈ secretKeys, ValueSettled key text :=
  ⟨fun settled => ⟨settled.block, settled.token, settled.value⟩,
    fun ⟨block, token, value⟩ => ⟨block, token, value⟩⟩

instance : DecidablePred Settled := fun _ => decidable_of_iff _ settled_iff.symm

section Weight

/-- What a text weighs: one for every mark, two for every other character. -/
def weight : Text → Nat
  | [] => 0
  | first :: rest =>
      if redacted <+: first :: rest then 1 + weight (rest.drop 9) else 2 + weight rest
termination_by text => text.length
decreasing_by
  · simp only [List.length_drop, List.length_cons]
    omega
  · exact Nat.lt_succ_self _

/-- No mark begins in one text and ends in the next. -/
def Unbridged (before after : Text) : Prop :=
  ∀ lead rest, redacted = lead ++ rest → lead ≠ [] → rest ≠ [] → lead <:+ before →
    ¬ rest <+: after

variable {before after text : Text} {char : Char}

theorem Unbridged.suffix {front : Text} (unbridged : Unbridged before after)
    (suffix : front <:+ before) : Unbridged front after :=
  fun lead rest whole some' more inner => unbridged lead rest whole some' more (inner.trans suffix)

theorem unbridged_of_last (other : char ∉ redacted) (front after : Text) :
    Unbridged (front ++ [char]) after := by
  intro lead rest whole some' _ suffix
  obtain ⟨skipped, ends⟩ := suffix
  rcases List.eq_nil_or_concat' lead with nothing | ⟨inner, last, rfl⟩
  · exact absurd nothing some'
  · rw [← List.append_assoc] at ends
    cases (List.append_inj' ends rfl).2
    refine absurd ?_ other
    rw [whole]
    simp

theorem unbridged_of_head (plain : ∀ char ∈ after.head?, char ∉ redacted) (before : Text) :
    Unbridged before after := by
  intro lead rest whole _ more _ ⟨behind, begins'⟩
  obtain ⟨first, rest, rfl⟩ := List.exists_cons_of_ne_nil more
  subst begins'
  refine plain first rfl ?_
  rw [whole]
  simp

/-- Behind a run of characters that a mark is made of, none of them follows. -/
theorem head?_dropWhile_notMem_redacted {kept : Char → Bool} (whole : redacted.all kept = true)
    (text : Text) : ∀ char ∈ (text.dropWhile kept).head?, char ∉ redacted := by
  intro char head member
  have stops := List.head?_dropWhile_not kept text
  rw [Option.mem_def.mp head] at stops
  simp [List.all_eq_true.mp whole char member] at stops

theorem weight_append (unbridged : Unbridged before after) :
    weight (before ++ after) = weight before + weight after := by
  induction before using weight.induct with
  | case1 => rw [List.nil_append, weight, Nat.zero_add]
  | case2 first rest begins' ih =>
      have whole : redacted <+: first :: rest ++ after :=
        begins'.trans (List.prefix_append _ _)
      have long : 9 ≤ rest.length := Nat.le_of_succ_le_succ begins'.length_le
      have suffix : rest.drop 9 <:+ first :: rest :=
        (List.drop_suffix 9 rest).trans (List.suffix_cons first rest)
      rw [List.cons_append] at whole
      rw [List.cons_append, weight, if_pos whole, weight, if_pos begins',
        List.drop_append_of_le_length long, ih (unbridged.suffix suffix)]
      omega
  | case3 first rest other ih =>
      have whole : ¬ redacted <+: first :: (rest ++ after) := by
        rintro ⟨behind, begins'⟩
        rw [← List.cons_append] at begins'
        rcases List.append_eq_append_iff.mp begins' with ⟨more, same, -⟩ | ⟨more, same, inner⟩
        · exact other ⟨more, same.symm⟩
        · by_cases nothing : more = []
          · subst nothing
            rw [List.append_nil] at same
            exact other ⟨[], by rw [same, List.append_nil]⟩
          · exact unbridged (first :: rest) more same (List.cons_ne_nil _ _) nothing
              (List.suffix_refl _) ⟨behind, inner.symm⟩
      rw [List.cons_append, weight, if_neg whole, weight, if_neg other,
        ih (unbridged.suffix (List.suffix_cons first rest))]
      omega

theorem weight_redacted_append (after : Text) : weight (redacted ++ after) = 1 + weight after := by
  have begins' : redacted <+: redacted ++ after := List.prefix_append _ _
  have shape : redacted ++ after = '[' :: ("REDACTED]".toList ++ after) := rfl
  rw [shape] at begins' ⊢
  rw [weight, if_pos begins']
  rfl

/-- Nothing weighs less than a mark. -/
theorem weight_pos (some' : text ≠ []) : 1 ≤ weight text ∧ (weight text = 1 → text = redacted) := by
  obtain ⟨first, rest, rfl⟩ := List.exists_cons_of_ne_nil some'
  rw [weight]
  split
  · rename_i begins'
    refine ⟨Nat.le_add_right _ _, fun one => ?_⟩
    obtain ⟨behind, same⟩ := begins'
    have left : rest.drop 9 = behind := by
      have dropped := congrArg (List.drop redacted.length) same
      rw [List.drop_left] at dropped
      exact dropped.symm
    rw [left] at one
    cases behind with
    | nil => rw [← same, List.append_nil]
    | cons char behind =>
        rw [weight] at one
        split at one <;> omega
  · exact ⟨by omega, fun one => by omega⟩

theorem weight_of_short (short : text.length < 10) : weight text = 2 * text.length := by
  induction text using weight.induct with
  | case1 => rw [weight, List.length_nil]
  | case2 first rest begins' ih =>
      have long : 10 ≤ (first :: rest).length := begins'.length_le
      omega
  | case3 first rest other ih =>
      rw [List.length_cons] at short
      rw [weight, if_neg other, ih (by omega), List.length_cons]
      omega

end Weight

section Passes

variable {text output : Text} {first : Char} {key lead : Text}

/-- A value behind a key becomes a mark, or was one. -/
theorem weight_maskAssignment (borderless : Borderless (first :: key)) (text : Text) :
    weight (maskAssignment first key text).1 ≤ weight text ∧
      (weight (maskAssignment first key text).1 = weight text →
        (maskAssignment first key text).1 = text) := by
  obtain ⟨-, same⟩ | ⟨front, name, between, part, after, whole, -, rest⟩ :=
    maskAssignment_cases borderless text
  · rw [same]
    exact ⟨Nat.le_refl _, fun _ => rfl⟩
  · obtain ⟨signed, valued, ends, -, output⟩ := rest
    rcases List.eq_nil_or_concat' between with rfl | ⟨spaces, last, rfl⟩
    · exact absurd rfl signed.2.1
    have sign := signed.2.2 last (by simp)
    have other : last ∉ redacted := by
      intro member
      have none' : (redacted.all fun char =>
          !(isWhitespace char || char == '=' || char == ':')) = true := by decide
      have plain := List.all_eq_true.mp none' last member
      rcases sign with space | rfl | rfl
      · simp [space] at plain
      · simp at plain
      · simp at plain
    have behind : ∀ char ∈ after.head?, char ∉ redacted := by
      have plain := head?_dropWhile_notMem_redacted (by decide : redacted.all isValueChar = true)
        (part ++ after)
      rwa [ends] at plain
    obtain ⟨least, only⟩ := weight_pos (show part ≠ [] by
      obtain ⟨own, rest, rfl, -⟩ := valued
      exact List.cons_ne_nil _ _)
    have joined (part : Text) : front ++ (name ++ (spaces ++ [last] ++ (part ++ after))) =
        (front ++ (name ++ spaces)) ++ [last] ++ (part ++ after) := by
      simp only [List.append_assoc]
    have weighs (part : Text) :
        weight (front ++ (name ++ (spaces ++ [last] ++ (part ++ after)))) =
          weight ((front ++ (name ++ spaces)) ++ [last]) + weight (part ++ after) := by
      rw [joined, weight_append (unbridged_of_last other _ _)]
    rw [output, whole, weighs, weighs, weight_redacted_append,
      weight_append (unbridged_of_head behind part)]
    refine ⟨by omega, fun same => ?_⟩
    rw [only (by omega)]

/-- A token long enough to be redacted is named anew, and a mark stands for it. -/
theorem maskBearer_of_long {before name rest : Text}
    (found : seek (beginsFolded bearer) text = some (before, name ++ rest))
    (led : name.map Char.toLower = bearer) (long : bearerLong rest) :
    (maskBearer text).1 = before ++ ("Bearer ".toList ++ (redacted ++
      rest.dropWhile fun char => !isWhitespace char)) := by
  have seven : bearer.length = name.length := by rw [← led, List.length_map]
  rw [bearerLong, bearerRun] at long
  rw [maskBearer, found]
  simp only [seven, List.drop_left]
  rw [if_pos long, List.append_assoc]
  rfl

theorem maskBearer_of_short {before name rest : Text}
    (found : seek (beginsFolded bearer) text = some (before, name ++ rest))
    (led : name.map Char.toLower = bearer) (short : ¬ bearerLong rest) :
    (maskBearer text).1 = text := by
  have seven : bearer.length = name.length := by rw [← led, List.length_map]
  rw [bearerLong, bearerRun] at short
  rw [maskBearer, found]
  simp only [seven, List.drop_left]
  rw [if_neg short]

/-- However the name of a token is written, it weighs the same. -/
theorem weight_bearer {name : Text} (led : name.map Char.toLower = bearer) (before rest : Text) :
    weight (before ++ (name ++ rest)) = weight before + 14 + weight rest := by
  have seven : name.length = 7 := by
    rw [← List.length_map (f := Char.toLower), led]
    rfl
  rcases List.eq_nil_or_concat' name with rfl | ⟨letters, last, rfl⟩
  · cases seven
  have other (char : Char) (folded : char.toLower = 'b' ∨ char.toLower = ' ') :
      char ∉ redacted := by
    intro member
    have none' : (redacted.all fun char =>
        char.toLower != 'b' && char.toLower != ' ') = true := by decide
    have plain := List.all_eq_true.mp none' char member
    rcases folded with letter | space
    · simp [letter] at plain
    · simp [space] at plain
  have lower : letters.map Char.toLower ++ [last.toLower] = "bearer".toList ++ [' '] :=
    List.map_append.symm.trans led
  have ends : last.toLower = ' ' := (List.cons.inj (List.append_inj' lower rfl).2).1
  have start : ∀ char ∈ (letters ++ [last] ++ rest).head?, char ∉ redacted := by
    intro char head
    obtain ⟨more, same⟩ := List.head?_eq_some_iff.mp head
    have folded := congrArg (List.map Char.toLower) same
    rw [List.map_append, led] at folded
    exact other char (.inl (List.cons.inj folded).1.symm)
  have light : weight (letters ++ [last]) = 14 := by
    rw [weight_of_short (by omega), seven]
  rw [weight_append (unbridged_of_head start before),
    weight_append (unbridged_of_last (other last (.inr ends)) letters rest), light]
  omega

/-- The pass for bearer tokens makes a text no heavier. -/
theorem weight_maskBearer_le (text : Text) : weight (maskBearer text).1 ≤ weight text := by
  cases found : seek (beginsFolded bearer) text with
  | none =>
      rw [maskBearer, found]
  | some parts =>
      obtain ⟨before, here⟩ := parts
      obtain ⟨whole, name, rest, rfl, led, -⟩ := seek_begun found
      by_cases long : bearerLong rest
      · have run := weight_append (unbridged_of_head
          (head?_dropWhile_notMem_redacted
            (by decide : (redacted.all fun char => !isWhitespace char) = true) rest)
          (rest.takeWhile fun char => !isWhitespace char))
        rw [List.takeWhile_append_dropWhile] at run
        have least := (weight_pos (show (rest.takeWhile fun char => !isWhitespace char) ≠ [] by
          intro nothing
          have none' : bearerRun rest = [] := nothing
          rw [bearerLong, none'] at long
          cases long)).1
        rw [maskBearer_of_long found led long, whole, weight_bearer (by decide),
          weight_redacted_append, weight_bearer led, run]
        omega
      · rw [maskBearer_of_short found led long]

/-- A text without a token keeps its characters in the pass for the prefix. -/
theorem maskPrefixed_of_hidden {minRest : Nat} {text : Text}
    (hidden : ¬ ShowsToken (first :: lead) minRest text) :
    (maskPrefixed first lead minRest text).1 = text := by
  cases found : seek (begins (first :: lead)) text with
  | none => rw [maskPrefixed_none minRest found]
  | some parts =>
      obtain ⟨before, here⟩ := parts
      obtain ⟨whole, -⟩ := cut_begins found
      have shorter := length_drop_seek_lt (List.cons_ne_nil first lead) length_le_of_begins found
      rw [maskPrefixed_some minRest found]
      generalize here.drop (first :: lead).length = rest at *
      split
      · rename_i long
        exact absurd ⟨before, first :: lead, rest, whole, List.map_id _, long⟩ hidden
      · have later : ¬ ShowsToken (first :: lead) minRest rest := by
          intro shown
          refine hidden ?_
          rw [whole]
          exact (Shows.append (first :: lead) shown).append before
        rw [maskPrefixed_of_hidden later, whole, List.append_assoc]
termination_by text.length

theorem count_le_of_masked (masked : Masked text output) :
    output.count '-' ≤ text.count '-' := by
  refine masked.comes (fun text => output.count '-' ≤ text.count '-') ?_ (Nat.le_refl _)
  rintro _ _ ⟨before, part, after, -, rfl, rfl⟩ le
  have none' : redacted.count '-' = 0 := by decide
  simp only [List.count_append, none'] at le ⊢
  omega

theorem count_maskBearer_le (text : Text) :
    (maskBearer text).1.count '-' ≤ text.count '-' := by
  rcases maskBearer_cases text with same | ⟨before, part, after, rfl, -, -, output⟩
  · rw [same]
  · have none' : "Bearer [REDACTED]".toList.count '-' = 0 := by decide
    rw [output]
    simp only [List.count_append, none']
    omega

/-- The pass for private keys takes the dashes of the markers away. -/
theorem count_maskPem (uncrossed : pemCrossed text = false) :
    (maskPem text).1.count '-' ≤ text.count '-' ∧
      ((maskPem text).1 = text ↔ ¬ ShowsBlock text) ∧
        ((maskPem text).1 ≠ text → (maskPem text).1.count '-' < text.count '-') := by
  obtain ⟨nothing, same, -⟩ | ⟨before, between, after, whole, output, -, -⟩ :=
    maskPem_cases uncrossed
  · rw [same]
    exact ⟨Nat.le_refl _, iff_of_true rfl nothing, fun other => absurd rfl other⟩
  · have fewer : (maskPem text).1.count '-' < text.count '-' := by
      have counts : pemBegin.count '-' = 5 ∧ pemMark.count '-' = 0 ∧
          "END ".toList.count '-' = 0 ∧ pemEnd.count '-' = 5 := by decide
      rw [output, whole]
      simp only [List.count_append, counts]
      omega
    have shown : ShowsBlock text := by
      rw [whole]
      exact ⟨before, pemBegin, _, rfl, List.map_id _, between, pemEnd, after, rfl,
        List.map_id _, trivial⟩
    refine ⟨Nat.le_of_lt fewer, iff_of_false (fun same => ?_) (not_not_intro shown),
      fun _ => fewer⟩
    rw [same] at fewer
    exact Nat.lt_irrefl _ fewer

/-- The pass for bearer tokens leaves a text as it is just where its first token is settled. -/
theorem maskBearer_eq_self_iff (text : Text) :
    (maskBearer text).1 = text ↔ BearerSettled text := by
  rw [BearerSettled]
  cases found : seek (beginsFolded bearer) text with
  | none =>
      rw [maskBearer, found]
      exact iff_of_true rfl (fun parts member => absurd member (Option.not_mem_none _))
  | some parts =>
      obtain ⟨before, here⟩ := parts
      obtain ⟨whole, name, rest, rfl, led, nameEq, restEq⟩ := seek_begun found
      simp only [Option.mem_def, Option.some.injEq, forall_eq', ← nameEq, ← restEq]
      by_cases long : bearerLong rest
      · have own : bearerRun rest ++ rest.dropWhile (fun char => !isWhitespace char) = rest :=
          List.takeWhile_append_dropWhile
        rw [maskBearer_of_long found led long, whole]
        constructor
        · intro same _
          have letters := congrArg List.length led
          rw [List.length_map] at letters
          obtain ⟨named, behind⟩ := List.append_inj (List.append_cancel_left same) letters.symm
          exact ⟨named.symm, (List.append_cancel_right (behind.trans own.symm)).symm⟩
        · intro settled
          obtain ⟨rfl, run⟩ := settled long
          rw [← run, own]
      · rw [maskBearer_of_short found led long]
        exact iff_of_true rfl fun long' => absurd long' long

/-- The pass for a key leaves a text as it is just where its first value is settled. -/
theorem maskAssignment_eq_self_iff (borderless : Borderless (first :: key)) (text : Text) :
    (maskAssignment first key text).1 = text ↔ ValueSettled (first :: key) text := by
  rw [ValueSettled]
  obtain ⟨nothing, same⟩ | ⟨front, name, between, part, after, whole, folded, rest⟩ :=
    maskAssignment_cases borderless text
  · rw [same, seek_isAssigned_none nothing]
    exact iff_of_true rfl fun parts member => absurd member (Option.not_mem_none _)
  · obtain ⟨signed, valued, ends, least, output⟩ := rest
    have run : (part ++ after).takeWhile isValueChar = part := by
      have own := List.takeWhile_append_dropWhile (p := isValueChar) (l := part ++ after)
      rw [ends] at own
      exact List.append_cancel_right own
    have long : name.length = (first :: key).length := by rw [← folded, List.length_map]
    rw [output, seek_isAssigned whole folded signed valued least]
    simp only [Option.mem_def, Option.some.injEq, forall_eq', ← long, List.drop_left,
      signed.1 _ (valued.append _), run]
    rw [whole]
    constructor
    · intro same
      have inner := List.append_cancel_left (List.append_cancel_left
        (List.append_cancel_left same))
      exact (List.append_cancel_right inner).symm
    · rintro rfl
      rfl

end Passes

section Redaction

variable {text : Text} {masks : List (Text → Text × Bool)}

theorem runMasks_eq_self (each : ∀ mask ∈ masks, (mask text).1 = text) :
    (runMasks masks text).1 = text := by
  induction masks with
  | nil => rfl
  | cons mask masks ih =>
      rw [runMasks, each mask List.mem_cons_self]
      exact ih fun other member => each other (List.mem_cons_of_mem _ member)

theorem count_runMasks_le
    (each : ∀ mask ∈ masks, ∀ text : Text, (mask text).1.count '-' ≤ text.count '-')
    (text : Text) : (runMasks masks text).1.count '-' ≤ text.count '-' := by
  induction masks generalizing text with
  | nil => exact Nat.le_refl _
  | cons mask masks ih =>
      exact (ih (fun other member => each other (List.mem_cons_of_mem _ member)) _).trans
        (each mask List.mem_cons_self text)

/-- Passes that make a text lighter wherever they change it leave it as it is only if each of
them does. -/
theorem weight_runMasks (each : ∀ mask ∈ masks, ∀ text : Text,
      weight (mask text).1 ≤ weight text ∧ (weight (mask text).1 = weight text →
        (mask text).1 = text)) (text : Text) :
    weight (runMasks masks text).1 ≤ weight text ∧
      (weight (runMasks masks text).1 = weight text → ∀ mask ∈ masks, (mask text).1 = text) := by
  induction masks generalizing text with
  | nil => exact ⟨Nat.le_refl _, fun _ _ member => absurd member List.not_mem_nil⟩
  | cons mask masks ih =>
      obtain ⟨below, same⟩ := each mask List.mem_cons_self text
      obtain ⟨below', same'⟩ :=
        ih (fun other member => each other (List.mem_cons_of_mem _ member)) (mask text).1
      refine ⟨below'.trans below, fun equal other member => ?_⟩
      rw [runMasks] at equal
      have own := same (Nat.le_antisymm below (equal ▸ below'))
      rcases List.mem_cons.mp member with rfl | member
      · exact own
      · rw [own] at same' equal
        exact same' equal other member

theorem masks_keyParts : Redact.masks = [maskPrefixed 's' "k-".toList 20,
    maskPrefixed 'A' "KIA".toList 16, maskBearer] ++
      keyParts.map fun parts => maskAssignment parts.1 parts.2 := rfl

theorem plain_of_mem_keyMasks {mask : Text → Text × Bool}
    (member : mask ∈ keyParts.map fun parts => maskAssignment parts.1 parts.2) :
    ∃ parts ∈ keyParts, Plain parts ∧ maskAssignment parts.1 parts.2 = mask := by
  obtain ⟨parts, own, rfl⟩ := List.mem_map.mp member
  exact ⟨parts, own, plain_keyParts parts own, rfl⟩

/-- The passes behind the one for private keys add no dashes. -/
theorem count_masks_le (text : Text) :
    (runMasks Redact.masks text).1.count '-' ≤ text.count '-' := by
  refine count_runMasks_le (fun mask member text => ?_) text
  rw [masks_keyParts] at member
  rcases List.mem_append.mp member with first | key
  · simp only [List.mem_cons, List.not_mem_nil, or_false] at first
    rcases first with rfl | rfl | rfl
    · exact count_le_of_masked (maskPrefixed_redacts (by decide) _ _ _)
    · exact count_le_of_masked (maskPrefixed_redacts (by decide) _ _ _)
    · exact count_maskBearer_le text
  · obtain ⟨parts, -, plain, rfl⟩ := plain_of_mem_keyMasks key
    exact count_le_of_masked (maskAssignment_masked plain text)

/-- A text without tokens of a fixed shape is left as it is just where it is settled. -/
theorem mask_eq_self_iff (uncrossed : pemCrossed text = false)
    (apiKey : ¬ ShowsToken "sk-".toList 20 text) (accessKey : ¬ ShowsToken "AKIA".toList 16 text) :
    (mask text).1 = text ↔ Settled text := by
  obtain ⟨-, block, fewer⟩ := count_maskPem uncrossed
  have api : (maskPrefixed 's' "k-".toList 20 text).1 = text := maskPrefixed_of_hidden apiKey
  have access : (maskPrefixed 'A' "KIA".toList 16 text).1 = text :=
    maskPrefixed_of_hidden accessKey
  constructor
  · intro same
    have whole : (runMasks Redact.masks (maskPem text).1).1 = text := same
    have kept : (maskPem text).1 = text := by
      by_contra changed
      have later := count_masks_le (maskPem text).1
      rw [whole] at later
      exact absurd (fewer changed) (Nat.not_lt.mpr later)
    have ran : (runMasks (keyParts.map fun parts => maskAssignment parts.1 parts.2)
        (maskBearer text).1).1 = text := by
      rw [kept, masks_keyParts] at whole
      simp only [List.cons_append, List.nil_append, runMasks, api, access] at whole
      exact whole
    obtain ⟨below, only⟩ := weight_runMasks (by
      intro mask member text
      obtain ⟨parts, -, plain, rfl⟩ := plain_of_mem_keyMasks member
      exact weight_maskAssignment plain.1 text) (maskBearer text).1
    rw [ran] at below only
    have light := weight_maskBearer_le text
    have each := only (Nat.le_antisymm below light)
    have bearer : (maskBearer text).1 = text := (runMasks_eq_self each).symm.trans ran
    refine ⟨block.mp kept, (maskBearer_eq_self_iff text).mp bearer, fun key member => ?_⟩
    rw [secretKeys_eq] at member
    obtain ⟨parts, own, rfl⟩ := List.mem_map.mp member
    rw [bearer] at each
    exact (maskAssignment_eq_self_iff (plain_keyParts parts own).1 text).mp
      (each _ (List.mem_map_of_mem own))
  · intro settled
    refine runMasks_eq_self fun mask member => ?_
    rcases List.mem_cons.mp member with rfl | member
    · exact block.mpr settled.block
    · rw [masks_keyParts] at member
      rcases List.mem_append.mp member with first | key
      · simp only [List.mem_cons, List.not_mem_nil, or_false] at first
        rcases first with rfl | rfl | rfl
        · exact api
        · exact access
        · exact (maskBearer_eq_self_iff text).mpr settled.token
      · obtain ⟨parts, own, plain, rfl⟩ := plain_of_mem_keyMasks key
        refine (maskAssignment_eq_self_iff plain.1 text).mpr (settled.value _ ?_)
        rw [secretKeys_eq]
        exact List.mem_map_of_mem own

/-- Redacting what a redaction has left leaves it as it is just where it is settled. -/
theorem redactText_eq_self_iff {input kept again : String} {changed changed' : Bool}
    (once : redactText input = some (kept, changed))
    (twice : redactText kept = some (again, changed')) :
    again = kept ↔ Settled kept.toList := by
  obtain ⟨apiKey, accessKey⟩ := redactText_tokens once
  rw [redactText_eq] at twice
  split at twice
  · cases twice
  · rename_i uncrossed
    cases twice
    rw [← mask_eq_self_iff (Bool.eq_false_iff.mpr uncrossed) apiKey accessKey]
    constructor
    · intro same
      exact (String.toList_ofList).symm.trans (congrArg String.toList same)
    · intro same
      rw [same, String.ofList_toList]

/-- A string that is settled once it is redacted. -/
def Settles (text : String) : Prop := ∀ kept ∈ redactText text, Settled kept.1.toList

instance : DecidablePred Settles := fun text =>
  inferInstanceAs (Decidable (∀ kept ∈ redactText text, _))

mutual

/-- Redacting a redacted value leaves it as it is just where each shown string is settled by
its redaction. -/
theorem redactValue_eq_self_iff : ∀ {value : Value} {once twice : Value × Bool},
    redactValue value = some once → redactValue once.1 = some twice →
      (twice.1 = once.1 ↔ ∀ text ∈ shownLeaves value, Settles text)
  | .string own, once, twice, first, second => by
      obtain ⟨⟨kept, changed⟩, redacts, same⟩ := Option.bind_eq_some_iff.mp first
      cases same
      obtain ⟨⟨again, changed'⟩, redacts', same⟩ := Option.bind_eq_some_iff.mp second
      cases same
      simp only [Value.string.injEq, shownLeaves, List.mem_singleton, forall_eq, Settles, redacts,
        Option.mem_def, Option.some.injEq, forall_eq']
      exact redactText_eq_self_iff redacts redacts'
  | .array items, once, twice, first, second => by
      obtain ⟨⟨kept, changed⟩, redacts, same⟩ := Option.bind_eq_some_iff.mp first
      cases same
      obtain ⟨⟨again, changed'⟩, redacts', same⟩ := Option.bind_eq_some_iff.mp second
      cases same
      rw [Value.array.injEq]
      exact redactItems_eq_self_iff redacts redacts'
  | .object fields, once, twice, first, second => by
      obtain ⟨⟨kept, changed⟩, redacts, same⟩ := Option.bind_eq_some_iff.mp first
      cases same
      obtain ⟨⟨again, changed'⟩, redacts', same⟩ := Option.bind_eq_some_iff.mp second
      cases same
      rw [Value.object.injEq]
      exact redactFields_eq_self_iff redacts redacts'
  | .null, once, twice, first, second => by
      cases first
      cases second
      exact iff_of_true rfl fun _ member => absurd member List.not_mem_nil
  | .bool _, once, twice, first, second => by
      cases first
      cases second
      exact iff_of_true rfl fun _ member => absurd member List.not_mem_nil
  | .number _, once, twice, first, second => by
      cases first
      cases second
      exact iff_of_true rfl fun _ member => absurd member List.not_mem_nil

theorem redactItems_eq_self_iff : ∀ {items : List Value} {once twice : List Value × Bool},
    redactItems items = some once → redactItems once.1 = some twice →
      (twice.1 = once.1 ↔ ∀ text ∈ shownItemLeaves items, Settles text)
  | [], once, twice, first, second => by
      cases first
      cases second
      exact iff_of_true rfl fun _ member => absurd member List.not_mem_nil
  | item :: items, once, twice, first, second => by
      obtain ⟨head, redacts, first⟩ := Option.bind_eq_some_iff.mp first
      obtain ⟨rest, later, same⟩ := Option.bind_eq_some_iff.mp first
      cases same
      obtain ⟨head', redacts', second⟩ := Option.bind_eq_some_iff.mp second
      obtain ⟨rest', later', same⟩ := Option.bind_eq_some_iff.mp second
      cases same
      rw [shownItemLeaves, List.forall_mem_append, List.cons.injEq]
      exact and_congr (redactValue_eq_self_iff redacts redacts')
        (redactItems_eq_self_iff later later')

theorem redactFields_eq_self_iff : ∀ {fields : List (String × Value)}
    {once twice : List (String × Value) × Bool},
    redactFields fields = some once → redactFields once.1 = some twice →
      (twice.1 = once.1 ↔ ∀ text ∈ shownFieldLeaves fields, Settles text)
  | [], once, twice, first, second => by
      cases first
      cases second
      exact iff_of_true rfl fun _ member => absurd member List.not_mem_nil
  | (key, value) :: fields, once, twice, first, second => by
      rw [redactFields] at first
      rw [shownFieldLeaves]
      split at first
      · rename_i sensitive
        obtain ⟨rest, later, same⟩ := Option.bind_eq_some_iff.mp first
        cases same
        rw [redactFields, if_pos sensitive] at second
        obtain ⟨rest', later', same⟩ := Option.bind_eq_some_iff.mp second
        cases same
        rw [if_pos sensitive, List.cons.injEq, and_iff_right rfl]
        exact redactFields_eq_self_iff later later'
      · rename_i shown
        obtain ⟨head, redacts, first⟩ := Option.bind_eq_some_iff.mp first
        obtain ⟨rest, later, same⟩ := Option.bind_eq_some_iff.mp first
        cases same
        rw [redactFields, if_neg shown] at second
        obtain ⟨head', redacts', second⟩ := Option.bind_eq_some_iff.mp second
        obtain ⟨rest', later', same⟩ := Option.bind_eq_some_iff.mp second
        cases same
        rw [if_neg shown, List.forall_mem_append, List.cons.injEq, Prod.mk.injEq,
          and_iff_right rfl]
        exact and_congr (redactValue_eq_self_iff redacts redacts')
          (redactFields_eq_self_iff later later')

end

end Redaction

end OpsCodex.Evidence.Redact
