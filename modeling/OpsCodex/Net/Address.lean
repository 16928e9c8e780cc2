import Mathlib.Data.Vector.Defs
import OpsCodex.Sequence.Reading

/-! Network addresses and their texts, as the standard library reads them. -/

set_option autoImplicit false

namespace OpsCodex.Net

open Reading

structure Ipv4Addr where
  one : UInt8
  two : UInt8
  three : UInt8
  four : UInt8
  deriving DecidableEq, Repr

structure Ipv6Addr where
  segments : Vector UInt16 8
  deriving DecidableEq, Repr

inductive IpAddr where
  | v4 (ip : Ipv4Addr)
  | v6 (ip : Ipv6Addr)
  deriving DecidableEq, Repr

inductive SocketAddr where
  | v4 (ip : Ipv4Addr) (port : UInt16)
  | v6 (ip : Ipv6Addr) (port : UInt16) (scopeId : UInt32)
  deriving DecidableEq, Repr

def Ipv6Addr.localhost : Ipv6Addr := ⟨#v[0, 0, 0, 0, 0, 0, 0, 1]⟩

def IpAddr.isLoopback : IpAddr → Bool
  | .v4 ip => ip.one = 127
  | .v6 ip => ip = .localhost

def SocketAddr.ip : SocketAddr → IpAddr
  | .v4 ip _ => .v4 ip
  | .v6 ip _ _ => .v6 ip

def SocketAddr.port : SocketAddr → UInt16
  | .v4 _ port => port
  | .v6 _ port _ => port

/-! ## Readers -/

abbrev Parser := Reader Char

def toDigit (radix : Nat) (char : Char) : Option Nat :=
  let code := char.toNat
  let digit :=
    if 48 ≤ code ∧ code ≤ 57 then code - 48
    else if 65 ≤ code ∧ code ≤ 90 then code - 55
    else if 97 ≤ code ∧ code ≤ 122 then code - 87
    else radix
  if digit < radix then some digit else none

def readGivenChar (target : Char) : Parser Unit
  | [] => none
  | char :: text => if char = target then some ((), text) else none

/-- The separator is only read in front of a later element. -/
def readSeparator {Value : Type} (separator : Char) (index : Nat) (inner : Parser Value) :
    Parser Value :=
  if 0 < index then do
    readGivenChar separator
    inner
  else inner

def readDigits (radix : Nat) : List Char → List Nat × List Char
  | [] => ([], [])
  | char :: text =>
      match toDigit radix char with
      | some digit => (digit :: (readDigits radix text).1, (readDigits radix text).2)
      | none => ([], char :: text)

def checked (bound value : Nat) : Option Nat := if value < bound then some value else none

/-- One step of the loop without a limit on the digits. -/
def pushDigit (bound radix result digit : Nat) : Option Nat := do
  let result ← checked bound (result * radix)
  checked bound (result + digit)

/-- A number below a bound: all digits there are, at most so many if that is limited. -/
def readNumber (bound radix : Nat) (maxDigits : Option Nat) (allowZeroPrefix : Bool) :
    Parser Nat := fun text =>
  let digits := (readDigits radix text).1
  let result := match maxDigits with
    | some maxDigits =>
        if maxDigits < digits.length then none
        else checked bound (digits.foldl (fun result digit => result * radix + digit) 0)
    | none => digits.foldlM (pushDigit bound radix) 0
  if digits = [] then none
  else if !allowZeroPrefix && text.head? = some '0' && 1 < digits.length then none
  else result.map fun result => (result, (readDigits radix text).2)

def readOctet (index : Nat) : Parser UInt8 :=
  readSeparator '.' index do
    let octet ← readNumber 256 10 (some 3) false
    pure (UInt8.ofNat octet)

def readIpv4Addr : Parser Ipv4Addr := do
  let one ← readOctet 0
  let two ← readOctet 1
  let three ← readOctet 2
  let four ← readOctet 3
  pure { one, two, three, four }

def fromBeBytes (high low : UInt8) : UInt16 := UInt16.ofNat (256 * high.toNat + low.toNat)

/-- An IPv4 address that ends an IPv6 address, where at least two groups are left. -/
def readEmbedded (limit index : Nat) : Parser (Option Ipv4Addr) :=
  if index < limit - 1 then attempt (readSeparator ':' index readIpv4Addr) else pure none

/-- The groups of an IPv6 address up to a limit, of which some are left to read, and whether an
IPv4 address ends them. -/
def readGroups (limit : Nat) : Nat → Parser (List UInt16 × Bool)
  | 0 => pure ([], false)
  | left + 1 => do
      let index := limit - (left + 1)
      let ipv4 ← readEmbedded limit index
      match ipv4 with
      | some ip => pure ([fromBeBytes ip.one ip.two, fromBeBytes ip.three ip.four], true)
      | none => do
          let group ← attempt (readSeparator ':' index (readNumber 65536 16 (some 4) true))
          match group with
          | some group => do
              let later ← readGroups limit left
              pure (UInt16.ofNat group :: later.1, later.2)
          | none => pure ([], false)

/-- The head from the front and the tail up to the end, with zeros in between. -/
def Ipv6Addr.ofGroups (head tail : List UInt16) : Ipv6Addr where
  segments := Vector.ofFn fun place =>
    if 8 - tail.length ≤ place.val then tail.getD (place.val - (8 - tail.length)) 0
    else head.getD place.val 0

def readIpv6Addr : Parser Ipv6Addr := do
  let head ← readGroups 8 8
  if head.1.length = 8 then pure (.ofGroups head.1 [])
  else if head.2 then StateT.lift none
  else do
    readGivenChar ':'
    readGivenChar ':'
    let limit := 8 - (head.1.length + 1)
    let tail ← readGroups limit limit
    pure (.ofGroups head.1 tail.1)

def readIpAddr : Parser IpAddr := do
  let ipv4 ← attempt readIpv4Addr
  match ipv4 with
  | some ip => pure (.v4 ip)
  | none => do
      let ip ← readIpv6Addr
      pure (.v6 ip)

def readPort : Parser UInt16 := do
  readGivenChar ':'
  let port ← readNumber 65536 10 none true
  pure (UInt16.ofNat port)

def readScopeId : Parser UInt32 := do
  readGivenChar '%'
  let scope ← readNumber 4294967296 10 none true
  pure (UInt32.ofNat scope)

def readSocketAddrV4 : Parser SocketAddr := do
  let ip ← readIpv4Addr
  let port ← readPort
  pure (.v4 ip port)

def readSocketAddrV6 : Parser SocketAddr := do
  readGivenChar '['
  let ip ← readIpv6Addr
  let scopeId ← attempt readScopeId
  readGivenChar ']'
  let port ← readPort
  pure (.v6 ip port (scopeId.getD 0))

def readSocketAddr : Parser SocketAddr := do
  let address ← attempt readSocketAddrV4
  match address with
  | some address => pure address
  | none => readSocketAddrV6

def IpAddr.parse (text : List Char) : Option IpAddr := whole readIpAddr text

def SocketAddr.parse (text : List Char) : Option SocketAddr := whole readSocketAddr text

/-! ## Where the readers stop -/

section

variable {stops : Char → Prop} {radix : Nat}

theorem readGivenChar_same (target : Char) (text : List Char) :
    readGivenChar target (target :: text) = some ((), text) := by
  rw [readGivenChar, if_pos rfl]

theorem readGivenChar_other {target char : Char} (other : char ≠ target) (text : List Char) :
    readGivenChar target (char :: text) = none := by
  rw [readGivenChar, if_neg other]

theorem readGivenChar_stopsAt {target : Char} (other : ∀ char, stops char → char ≠ target) :
    StopsAt stops (readGivenChar target) := by
  intro text char rest stop
  cases text with
  | nil => exact readGivenChar_other (other char stop) rest
  | cons first text =>
      rw [List.cons_append, readGivenChar, readGivenChar]
      split
      · rfl
      · rfl

theorem readDigits_append {char : Char} (stop : toDigit radix char = none)
    (text rest : List Char) :
    readDigits radix (text ++ char :: rest) =
      ((readDigits radix text).1, (readDigits radix text).2 ++ char :: rest) := by
  induction text with
  | nil => simp only [List.nil_append, readDigits, stop]
  | cons first text ih =>
      rw [List.cons_append, readDigits, readDigits, ih]
      cases toDigit radix first with
      | none => rfl
      | some digit => rfl

theorem readDigits_ne_nil {text : List Char} (some' : (readDigits radix text).1 ≠ []) :
    text ≠ [] := by
  rintro rfl
  exact some' rfl

theorem readNumber_stopsAt {bound : Nat} {maxDigits : Option Nat} {allowZeroPrefix : Bool}
    (noDigit : ∀ char, stops char → toDigit radix char = none) :
    StopsAt stops (readNumber bound radix maxDigits allowZeroPrefix) := by
  intro text char rest stop
  unfold readNumber
  rw [readDigits_append (noDigit char stop)]
  by_cases empty : (readDigits radix text).1 = []
  · rw [if_pos empty, if_pos empty]
    rfl
  · have head : (text ++ char :: rest).head? = text.head? := by
      obtain ⟨first, tail, rfl⟩ := List.exists_cons_of_ne_nil (readDigits_ne_nil empty)
      rfl
    rw [if_neg empty, if_neg empty, head]
    split
    · rfl
    · rw [Option.map_map]
      rfl

theorem readSeparator_stopsAt {Value : Type} {separator : Char} {index : Nat}
    {inner : Parser Value} (other : ∀ char, stops char → char ≠ separator)
    (stopsAt : StopsAt stops inner) : StopsAt stops (readSeparator separator index inner) :=
  .ite (.bind (readGivenChar_stopsAt other) fun _ => stopsAt) stopsAt

theorem readIpv4Addr_stopsAt (noDigit : ∀ char, stops char → toDigit 10 char = none)
    (noDot : ∀ char, stops char → char ≠ '.') : StopsAt stops readIpv4Addr := by
  have octet (index : Nat) : StopsAt stops (readOctet index) :=
    readSeparator_stopsAt noDot (.bind (readNumber_stopsAt noDigit) fun _ => .pure _)
  exact .bind (octet 0) fun _ => .bind (octet 1) fun _ => .bind (octet 2) fun _ =>
    .bind (octet 3) fun _ => .pure _

/-- The characters that stand in no part of an IPv6 address. -/
structure Outside (char : Char) : Prop where
  noDigit : toDigit 10 char = none
  noHexDigit : toDigit 16 char = none
  noDot : char ≠ '.'
  noColon : char ≠ ':'

variable (outside : ∀ char, stops char → Outside char)
include outside

theorem readGroups_stopsAt (limit left : Nat) : StopsAt stops (readGroups limit left) := by
  have ipv4 : StopsAt stops readIpv4Addr :=
    readIpv4Addr_stopsAt (fun char stop => (outside char stop).noDigit)
      fun char stop => (outside char stop).noDot
  have noColon : ∀ char, stops char → char ≠ ':' := fun char stop => (outside char stop).noColon
  induction left with
  | zero => exact .pure _
  | succ left ih =>
      rw [readGroups]
      refine .bind ?_ fun found => ?_
      · exact .ite (.attempt (readSeparator_stopsAt noColon ipv4)) (.pure _)
      · cases found with
        | some ip => exact .pure _
        | none =>
            have group : StopsAt stops (readNumber 65536 16 (some 4) true) :=
              readNumber_stopsAt fun char stop => (outside char stop).noHexDigit
            refine .bind (.attempt (readSeparator_stopsAt noColon group)) fun found => ?_
            cases found with
            | none => exact .pure _
            | some group => exact .bind ih fun _ => .pure _

theorem readIpv6Addr_stopsAt : StopsAt stops readIpv6Addr := by
  have colon : StopsAt stops (readGivenChar ':') :=
    readGivenChar_stopsAt fun char stop => (outside char stop).noColon
  refine .bind (readGroups_stopsAt outside 8 8) fun head => ?_
  refine .ite (.pure _) (.ite .lift_none ?_)
  exact .bind colon fun _ => .bind colon fun _ =>
    .bind (readGroups_stopsAt outside _ _) fun _ => .pure _

end

/-! ## Where no address begins -/

section

variable {first : Char} (text : List Char)

theorem readNumber_noDigit {bound radix : Nat} {maxDigits : Option Nat} {allowZeroPrefix : Bool}
    (noDigit : toDigit radix first = none) :
    readNumber bound radix maxDigits allowZeroPrefix (first :: text) = none := by
  have empty : (readDigits radix (first :: text)).1 = [] := by
    rw [readDigits, noDigit]
  unfold readNumber
  rw [if_pos empty]

variable (outside : Outside first)
include outside

theorem readIpv4Addr_outside : readIpv4Addr (first :: text) = none := by
  have octet : readOctet 0 (first :: text) = none := by
    rw [readOctet, readSeparator, if_neg (Nat.lt_irrefl 0)]
    exact bind_eq_none (readNumber_noDigit text outside.noDigit)
  exact bind_eq_none octet

theorem readIpv6Addr_outside : readIpv6Addr (first :: text) = none := by
  have embedded : readEmbedded 8 0 (first :: text) = some (none, first :: text) := by
    rw [readEmbedded, if_pos (by decide), readSeparator, if_neg (Nat.lt_irrefl 0)]
    exact attempt_of_none (readIpv4Addr_outside text outside)
  have group : attempt (readSeparator ':' 0 (readNumber 65536 16 (some 4) true)) (first :: text) =
      some (none, first :: text) := by
    rw [readSeparator, if_neg (Nat.lt_irrefl 0)]
    exact attempt_of_none (readNumber_noDigit text outside.noHexDigit)
  have head : readGroups 8 8 (first :: text) = some (([], false), first :: text) := by
    rw [readGroups]
    exact (bind_eq_some embedded).trans (bind_eq_some group)
  have colon := readGivenChar_other outside.noColon text
  exact (bind_eq_some head).trans (bind_eq_none colon)

end

section

variable {text : List Char}

theorem readIpAddr_of_v4 {ip : Ipv4Addr} {left : List Char}
    (read : readIpv4Addr text = some (ip, left)) : readIpAddr text = some (.v4 ip, left) :=
  bind_eq_some (attempt_of_some read)

theorem readIpAddr_of_none (failed : readIpv4Addr text = none) :
    readIpAddr text = (readIpv6Addr text).map fun read => (.v6 read.1, read.2) := by
  rw [readIpAddr, bind_eq_some (attempt_of_none failed)]
  cases read : readIpv6Addr text with
  | none => exact bind_eq_none read
  | some found => exact bind_eq_some read

/-- An address that is a whole text, and which reader finds it. -/
theorem readIpAddr_cases {address : IpAddr} (read : readIpAddr text = some (address, [])) :
    (∃ ip, address = .v4 ip ∧ readIpv4Addr text = some (ip, [])) ∨
      ∃ ip, address = .v6 ip ∧ readIpv4Addr text = none ∧ readIpv6Addr text = some (ip, []) := by
  cases ipv4 : readIpv4Addr text with
  | some found =>
      obtain ⟨ip, left⟩ := found
      rw [readIpAddr_of_v4 ipv4] at read
      cases read
      exact .inl ⟨ip, rfl, rfl⟩
  | none =>
      rw [readIpAddr_of_none ipv4] at read
      obtain ⟨⟨ip, left⟩, ipv6, same⟩ := Option.map_eq_some_iff.mp read
      cases same
      exact .inr ⟨ip, rfl, rfl, ipv6⟩

end

/-! ## The text of a port -/

def portText (port : UInt16) : List Char := Nat.toDigits 10 port.toNat

theorem toDigit_digitChar {digit : Nat} (small : digit < 10) :
    toDigit 10 digit.digitChar = some digit := by
  have code := Nat.toNat_digitChar_of_lt_ten small
  have range : 48 ≤ 48 + digit ∧ 48 + digit ≤ 57 := by omega
  simp only [toDigit, code, if_pos range, Nat.add_sub_cancel_left, if_pos small]

theorem readDigits_whole_append {text rest : List Char}
    (read : (readDigits 10 text).2 = []) :
    readDigits 10 (text ++ rest) =
      ((readDigits 10 text).1 ++ (readDigits 10 rest).1, (readDigits 10 rest).2) := by
  induction text with
  | nil => rfl
  | cons char text ih =>
      rw [readDigits] at read
      rw [List.cons_append, readDigits, readDigits]
      cases digit : toDigit 10 char with
      | none =>
          rw [digit] at read
          cases read
      | some value =>
          rw [digit] at read
          rw [ih read]
          rfl

theorem pushDigit_of_lt {bound result digit : Nat} (small : result * 10 + digit < bound) :
    pushDigit bound 10 result digit = some (result * 10 + digit) := by
  have product : checked bound (result * 10) = some (result * 10) := if_pos (by omega)
  have sum : checked bound (result * 10 + digit) = some (result * 10 + digit) := if_pos small
  rw [pushDigit, product]
  exact sum

/-- The digits of a number are read as that number. -/
theorem readDigits_toDigits {number bound : Nat} (small : number < bound) :
    (readDigits 10 (Nat.toDigits 10 number)).2 = [] ∧
      (readDigits 10 (Nat.toDigits 10 number)).1.foldlM (pushDigit bound 10) 0 =
        some number := by
  induction number using Nat.strongRecOn with
  | ind number ih =>
      by_cases single : number < 10
      · have read := toDigit_digitChar single
        rw [Nat.toDigits_of_lt_base single, readDigits, read]
        have pushed : pushDigit bound 10 0 number = some (0 * 10 + number) :=
          pushDigit_of_lt (by omega)
        refine ⟨rfl, ?_⟩
        rw [readDigits, List.foldlM_cons, pushed, Nat.zero_mul, Nat.zero_add]
        rfl
      · obtain ⟨read, value⟩ := ih (number / 10) (by omega) (by omega)
        have last := toDigit_digitChar (Nat.mod_lt number (by decide : 0 < 10))
        have only : readDigits 10 [(number % 10).digitChar] = ([number % 10], []) := by
          rw [readDigits, last]
          rfl
        rw [Nat.toDigits_of_base_le (by decide) (by omega), readDigits_whole_append read, only]
        refine ⟨rfl, ?_⟩
        have parts : number / 10 * 10 + number % 10 = number := by omega
        have pushed : pushDigit bound 10 (number / 10) (number % 10) =
            some (number / 10 * 10 + number % 10) := pushDigit_of_lt (by omega)
        rw [List.foldlM_append, value, Option.bind_eq_bind, Option.bind_some, List.foldlM_cons,
          pushed, parts]
        rfl

theorem readPort_portText (port : UInt16) : readPort (':' :: portText port) = some (port, []) := by
  obtain ⟨read, value⟩ := readDigits_toDigits port.toNat_lt
  have nonempty : (readDigits 10 (portText port)).1 ≠ [] := by
    intro empty
    cases text : portText port with
    | nil => exact Nat.toDigits_ne_nil text
    | cons char later =>
        have left := read
        rw [portText] at text
        rw [portText, text, readDigits] at empty
        rw [text, readDigits] at left
        split at empty
        · cases empty
        · rename_i missing
          rw [missing] at left
          cases left
  have number : readNumber 65536 10 none true (portText port) = some (port.toNat, []) := by
    unfold readNumber
    rw [if_neg nonempty]
    have whole : (readDigits 10 (portText port)).2 = [] := read
    have total : (readDigits 10 (portText port)).1.foldlM (pushDigit 65536 10) 0 =
        some port.toNat := value
    rw [whole, total]
    rfl
  have colon := readGivenChar_same ':' (portText port)
  rw [readPort, bind_eq_some colon, bind_eq_some number, UInt16.ofNat_toNat]
  rfl

end OpsCodex.Net
