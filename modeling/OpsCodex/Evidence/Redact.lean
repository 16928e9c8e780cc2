import OpsCodex.Json
import OpsCodex.Sequence.Offsets
import OpsCodex.Strings

/-! Redaction of tool output, at the byte offsets that its searches compute. What has no
result is a panic. -/

set_option autoImplicit false

namespace OpsCodex.Evidence

open OpsCodex.Json Offsets
open OpsCodex.Strings (isWhitespace toAsciiLowercase)

abbrev Text := List Char

namespace Redact

def redacted : Text := "[REDACTED]".toList

def byteLen (text : Text) : Nat := width Char.utf8Size text

def isTokenChar (char : Char) : Bool := char.isAlphanum || char == '_' || char == '-'

def isValueChar (char : Char) : Bool :=
  !isWhitespace char && char != ',' && char != ';' && char != '"'

def isSensitiveKey (key : String) : Bool :=
  ["password", "secret", "token", "api_key", "apikey", "authorization", "private_key"].contains
    (String.ofList (toAsciiLowercase key.toList))

def redactPem (output : Text) : Option (Text × Bool) :=
  match find Char.utf8Size "-----BEGIN ".toList output,
      find Char.utf8Size "-----END ".toList output with
  | some start, some stop => do
      let rest ← slice Char.utf8Size output stop
      let stop := match find Char.utf8Size "-----".toList rest with
        | some offset => stop + offset + 5
        | none => byteLen output
      let output ← replaceRange Char.utf8Size output start stop "[REDACTED_PRIVATE_KEY]".toList
      return (output, true)
  | _, _ => return (output, false)

/-- The loop over the occurrences of a prefix; running out of fuel counts as a panic. -/
def replacePrefixedFrom (lead : Text) (minRest : Nat) :
    Nat → Text → Nat → Bool → Option (Text × Bool)
  | 0, _, _, _ => none
  | fuel + 1, output, searchFrom, changed => do
      let ahead ← slice Char.utf8Size output searchFrom
      match find Char.utf8Size lead ahead with
      | none => return (output, changed)
      | some relative =>
          let start := searchFrom + relative
          let restStart := start + byteLen lead
          let rest ← slice Char.utf8Size output restStart
          let restLen := (rest.takeWhile isTokenChar).length
          if minRest ≤ restLen then
            let stop := restStart + nth Char.utf8Size rest restLen
            let output ← replaceRange Char.utf8Size output start stop redacted
            replacePrefixedFrom lead minRest fuel output (start + byteLen redacted) true
          else replacePrefixedFrom lead minRest fuel output restStart changed

def replacePrefixed (lead : Text) (minRest : Nat) (output : Text) : Option (Text × Bool) :=
  replacePrefixedFrom lead minRest (byteLen output + 1) output 0 false

def redactBearer (output : Text) : Option (Text × Bool) :=
  let lower := toAsciiLowercase output
  match find Char.utf8Size "bearer ".toList lower with
  | none => return (output, false)
  | some index => do
      let restStart := index + byteLen "bearer ".toList
      let rest ← slice Char.utf8Size output restStart
      let restLen := (rest.takeWhile fun char => !isWhitespace char).length
      if 8 < restLen then
        let stop := restStart + nth Char.utf8Size rest restLen
        let output ← replaceRange Char.utf8Size output index stop "Bearer [REDACTED]".toList
        return (output, true)
      else return (output, false)

/-- The loop over the occurrences of a key, which ends at the first value. -/
def redactAssignmentFrom (lower key : Text) : Nat → Text → Nat → Option (Text × Bool)
  | 0, _, _ => none
  | fuel + 1, output, searchFrom => do
      let ahead ← slice Char.utf8Size lower searchFrom
      match find Char.utf8Size key ahead with
      | none => return (output, false)
      | some relative =>
          let start := searchFrom + relative
          let afterKey := start + byteLen key
          match slice Char.utf8Size output afterKey with
          | none => return (output, false)
          | some rest =>
              let trimmed := rest.dropWhile isWhitespace
              let skipped := byteLen rest - byteLen trimmed
              match trimmed with
              | [] => return (output, false)
              | first :: _ =>
                  if first ≠ '=' ∧ first ≠ ':' then
                    redactAssignmentFrom lower key fuel output afterKey
                  else
                    let valueStart := afterKey + skipped + 1
                    let value := (slice Char.utf8Size output valueStart).getD []
                    let valueTrimmed := value.dropWhile isWhitespace
                    let valueSkip := byteLen value - byteLen valueTrimmed
                    let valueLen := (valueTrimmed.takeWhile isValueChar).length
                    if 0 < valueLen then
                      let absStart := valueStart + valueSkip
                      let absEnd := absStart + nth Char.utf8Size valueTrimmed valueLen
                      let output ← replaceRange Char.utf8Size output absStart absEnd redacted
                      return (output, true)
                    else redactAssignmentFrom lower key fuel output afterKey

def redactAssignment (key output : Text) : Option (Text × Bool) :=
  redactAssignmentFrom (toAsciiLowercase output) key (byteLen output + 1) output 0

/-- The passes of a redaction, in their order. -/
def passes : List (Text → Option (Text × Bool)) := [
  redactPem,
  replacePrefixed "sk-".toList 20,
  replacePrefixed "AKIA".toList 16,
  redactBearer,
  redactAssignment "password".toList,
  redactAssignment "secret".toList,
  redactAssignment "api_key".toList,
  redactAssignment "api-key".toList,
  redactAssignment "token".toList]

def runPasses : List (Text → Option (Text × Bool)) → Text → Option (Text × Bool)
  | [], output => some (output, false)
  | pass :: passes, output => do
      let (output, changed) ← pass output
      let (output, later) ← runPasses passes output
      return (output, changed || later)

def redactText (input : String) : Option (String × Bool) :=
  (runPasses passes input.toList).map fun result => (String.ofList result.1, result.2)

example : redactText "key sk-abcdefghijklmnopqrstuvwxyz." = some ("key [REDACTED].", true) := by
  decide +kernel

end Redact

end OpsCodex.Evidence
