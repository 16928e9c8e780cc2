import OpsCodex.Extensions.McpFraming
import OpsCodex.Net.Address

/-! The host the server binds to: what the configuration accepts, and the address it is. -/

set_option autoImplicit false

namespace OpsCodex.Ops

open OpsCodex.Net Reading
open OpsCodex.Strings (eqIgnoreAsciiCase trim)

def trimMatches (drops : Char → Bool) (text : List Char) : List Char :=
  ((text.dropWhile drops).reverse.dropWhile drops).reverse

/-- The host without white space and brackets around it. -/
def bareHost (host : String) : List Char :=
  trimMatches (fun char => char = '[' || char = ']') (trim host.toList)

def localhost : List Char := ['l', 'o', 'c', 'a', 'l', 'h', 'o', 's', 't']

def isLoopbackBindHost (host : String) : Bool :=
  if eqIgnoreAsciiCase (bareHost host) localhost then true
  else ((IpAddr.parse (bareHost host)).map IpAddr.isLoopback).getD false

/-- The check of `server.host` in the configuration. -/
def validateServerHost (host : String) : Result Unit :=
  if !isLoopbackBindHost host then
    .error (.protocol
      "without TLS, server.host must be a loopback address (127.0.0.1, localhost, or ::1)")
  else .ok ()

def denyNonLoopbackBind (host : String) : Result Unit :=
  if isLoopbackBindHost host then .ok ()
  else
    .error (.protocol
      "without TLS, OpsCodex can only bind loopback (127.0.0.1, localhost, or ::1)")

/-- What the configuration accepts is what may be bound. -/
theorem validateServerHost_iff_deny (host : String) :
    validateServerHost host = .ok () ↔ denyNonLoopbackBind host = .ok () := by
  rw [validateServerHost, denyNonLoopbackBind]
  cases isLoopbackBindHost host with
  | true => exact Iff.rfl
  | false => exact iff_of_false (fun accepted => nomatch accepted) fun bound => nomatch bound

def parseListenAddr (host : String) (port : UInt16) : Result SocketAddr := do
  denyNonLoopbackBind host
  let dotted := bareHost host ++ ':' :: portText port
  match SocketAddr.parse dotted with
  | some address => .ok address
  | none =>
      match SocketAddr.parse ('[' :: bareHost host ++ ']' :: ':' :: portText port) with
      | some address => .ok address
      | none => .error (.protocol ("invalid listen address " ++ String.ofList dotted ++
          ": invalid socket address syntax"))

/-! ## Hosts that are addresses -/

section

variable {host : List Char} {port : UInt16}

theorem outside_bracket : ∀ char, char = ']' → Outside char := by
  rintro char rfl
  exact ⟨by decide, by decide, by decide, by decide⟩

theorem readIpv4Addr_stopsAt_colon : StopsAt (· = ':') readIpv4Addr := by
  refine readIpv4Addr_stopsAt ?_ ?_
  · rintro char rfl
    decide
  · rintro char rfl
    decide

theorem readSocketAddr_of_v4 {text left : List Char} {address : SocketAddr}
    (read : readSocketAddrV4 text = some (address, left)) :
    readSocketAddr text = some (address, left) :=
  bind_eq_some (attempt_of_some read)

theorem readSocketAddr_of_none {text : List Char} (noV4 : readIpv4Addr text = none) :
    readSocketAddr text = readSocketAddrV6 text :=
  bind_eq_some (attempt_of_none (bind_eq_none noV4))

theorem parse_v4 {ip : Ipv4Addr} (read : readIpv4Addr host = some (ip, [])) :
    SocketAddr.parse (host ++ ':' :: portText port) = some (.v4 ip port) := by
  have address := readIpv4Addr_stopsAt_colon.eq_some read rfl (portText port)
  have found : readSocketAddrV4 (host ++ ':' :: portText port) = some (.v4 ip port, []) :=
    (bind_eq_some address).trans (bind_eq_some (readPort_portText port))
  exact whole_of_eq_some (readSocketAddr_of_v4 found)

/-- Without a bracket in front only an IPv4 address can be read. -/
theorem parse_none {text : List Char} (noV4 : readIpv4Addr text = none)
    (bare : text.head? ≠ some '[') : SocketAddr.parse text = none := by
  have bracket : readGivenChar '[' text = none := by
    cases text with
    | nil => rfl
    | cons char text => exact readGivenChar_other (fun same => bare (congrArg some same)) text
  exact whole_of_eq_none ((readSocketAddr_of_none noV4).trans (bind_eq_none bracket))

theorem readIpv4Addr_bracket (text : List Char) : readIpv4Addr ('[' :: text) = none :=
  readIpv4Addr_outside text ⟨by decide, by decide, by decide, by decide⟩

theorem parse_v6 {ip : Ipv6Addr} (read : readIpv6Addr host = some (ip, [])) :
    SocketAddr.parse ('[' :: host ++ ']' :: ':' :: portText port) = some (.v6 ip port 0) := by
  have opened := readGivenChar_same '[' (host ++ ']' :: ':' :: portText port)
  have address := (readIpv6Addr_stopsAt outside_bracket).eq_some read rfl (':' :: portText port)
  have noScope : readScopeId (']' :: ':' :: portText port) = none :=
    bind_eq_none (readGivenChar_other (by decide) _)
  have scope := attempt_of_none noScope
  have closed := readGivenChar_same ']' (':' :: portText port)
  have found : readSocketAddrV6 ('[' :: (host ++ ']' :: ':' :: portText port)) =
      some (.v6 ip port 0, []) :=
    (bind_eq_some opened).trans <| (bind_eq_some address).trans <| (bind_eq_some scope).trans <|
      (bind_eq_some closed).trans (bind_eq_some (readPort_portText port))
  exact whole_of_eq_some ((readSocketAddr_of_none (readIpv4Addr_bracket _)).trans found)

/-- In brackets only an IPv6 address can be read. -/
theorem parse_bracketed_none {text : List Char} (noV6 : readIpv6Addr text = none) :
    SocketAddr.parse ('[' :: text) = none := by
  have opened := readGivenChar_same '[' text
  have failed : readSocketAddrV6 ('[' :: text) = none :=
    (bind_eq_some opened).trans (bind_eq_none noV6)
  exact whole_of_eq_none ((readSocketAddr_of_none (readIpv4Addr_bracket _)).trans failed)

theorem head?_trimMatches {drops : Char → Bool} {text : List Char} {char : Char}
    (first : (trimMatches drops text).head? = some char) : drops char = false := by
  have shorter : trimMatches drops text <+: text.dropWhile drops := by
    have suffix := List.dropWhile_suffix (l := (text.dropWhile drops).reverse) drops
    rw [← List.reverse_prefix, List.reverse_reverse] at suffix
    exact suffix
  have head : (text.dropWhile drops).head? = some char := by
    obtain ⟨rest, whole⟩ := shorter
    rw [← whole, List.head?_append, first]
    rfl
  have kept := List.head?_dropWhile_not drops text
  rw [head] at kept
  exact kept

end

/-! ## Accepted hosts -/

section

variable {host : String} (port : UInt16)

theorem toLower_eq_l {char : Char} (lower : char.toLower = 'l') : char = 'l' ∨ char = 'L' := by
  unfold Char.toLower at lower
  split at lower
  · rename_i upper
    have code := congrArg (fun char => char.val.toNat) lower
    have last := UInt32.le_iff_toNat_le.mp upper.2
    have bound : ('Z'.val).toNat = 90 := rfl
    have offset : ('a'.val - 'A'.val).toNat = 32 := rfl
    have target : ('l'.val).toNat = 108 := rfl
    have name : ('L'.val).toNat = 76 := rfl
    simp only [UInt32.toNat_add] at code
    exact .inr (Char.ext (UInt32.toNat_inj.mp (by omega)))
  · exact .inl lower

theorem parseListenAddr_rejected (rejected : isLoopbackBindHost host = false) :
    ∃ error, parseListenAddr host port = .error error := by
  have denied : denyNonLoopbackBind host = .error (.protocol
      "without TLS, OpsCodex can only bind loopback (127.0.0.1, localhost, or ::1)") := by
    rw [denyNonLoopbackBind, rejected]
    rfl
  rw [parseListenAddr, denied]
  exact ⟨_, rfl⟩

theorem parseListenAddr_address {address : IpAddr}
    (parsed : IpAddr.parse (bareHost host) = some address) (loopback : address.isLoopback = true)
    (other : eqIgnoreAsciiCase (bareHost host) localhost = false) :
    ∃ found, parseListenAddr host port = .ok found ∧ found.ip = address ∧ found.port = port := by
  have accepted : isLoopbackBindHost host = true := by
    rw [isLoopbackBindHost, other, parsed]
    exact loopback
  have denied : denyNonLoopbackBind host = .ok () := if_pos accepted
  rcases readIpAddr_cases (whole_eq_some parsed) with ⟨ip, rfl, read⟩ | ⟨ip, rfl, noV4, read⟩
  · refine ⟨.v4 ip port, ?_, rfl, rfl⟩
    rw [parseListenAddr, denied]
    simp only [bind, Except.bind, parse_v4 read]
  · have bare : (bareHost host ++ ':' :: portText port).head? ≠ some '[' := by
      intro first
      cases bare : bareHost host with
      | nil =>
          rw [bare] at first
          have colon : ':' = '[' := Option.some.inj first
          exact absurd colon (by decide)
      | cons char rest =>
          rw [bare] at first
          have char' : (bareHost host).head? = some '[' := by
            rw [bare]
            exact first
          exact absurd (head?_trimMatches char') (by decide)
    have dotted := readIpv4Addr_stopsAt_colon.eq_none noV4 rfl (portText port)
    refine ⟨.v6 ip port 0, ?_, rfl, rfl⟩
    rw [parseListenAddr, denied]
    simp only [bind, Except.bind, parse_none dotted bare, parse_v6 read]

/-- The name `localhost` is no address, with brackets or without. -/
theorem parseListenAddr_localhost
    (named : eqIgnoreAsciiCase (bareHost host) localhost = true) :
    ∃ error, parseListenAddr host port = .error error := by
  have same := of_decide_eq_true named
  cases bare : bareHost host with
  | nil =>
      rw [bare] at same
      cases same
  | cons first rest =>
      rw [bare] at same
      have outside : Outside first := by
        rcases toLower_eq_l (List.cons.inj same).1 with rfl | rfl
        · exact ⟨by decide, by decide, by decide, by decide⟩
        · exact ⟨by decide, by decide, by decide, by decide⟩
      have noBracket : first ≠ '[' := by
        rcases toLower_eq_l (List.cons.inj same).1 with rfl | rfl
        · decide
        · decide
      have dotted : SocketAddr.parse (first :: rest ++ ':' :: portText port) = none :=
        parse_none (readIpv4Addr_outside _ outside) fun head => noBracket (Option.some.inj head)
      have bracketed : SocketAddr.parse ('[' :: (first :: rest) ++ ']' :: ':' :: portText port) =
          none := parse_bracketed_none (readIpv6Addr_outside _ outside)
      have accepted : denyNonLoopbackBind host = .ok () := by
        rw [denyNonLoopbackBind, isLoopbackBindHost, named]
        rfl
      rw [parseListenAddr, accepted]
      simp only [bind, Except.bind, bare, dotted, bracketed]
      exact ⟨_, rfl⟩

end

/-- An accepted host can be listened on if and only if it is not the name `localhost`. -/
theorem parseListenAddr_iff (host : String) (port : UInt16) :
    ((isLoopbackBindHost host = true → ∃ address, parseListenAddr host port = .ok address ∧
        address.ip.isLoopback = true ∧ address.port = port) ∧
      (isLoopbackBindHost host = false → ∃ error, parseListenAddr host port = .error error)) ↔
      eqIgnoreAsciiCase (bareHost host) localhost = false := by
  constructor
  · rintro ⟨listens, -⟩
    cases named : eqIgnoreAsciiCase (bareHost host) localhost with
    | false => rfl
    | true =>
        have accepted : isLoopbackBindHost host = true := by
          rw [isLoopbackBindHost, named]
          rfl
        obtain ⟨address, found, -⟩ := listens accepted
        obtain ⟨error, failed⟩ := parseListenAddr_localhost port named
        rw [failed] at found
        cases found
  · intro other
    refine ⟨fun accepted => ?_, parseListenAddr_rejected port⟩
    rw [isLoopbackBindHost, other] at accepted
    cases parsed : IpAddr.parse (bareHost host) with
    | none =>
        rw [parsed] at accepted
        cases accepted
    | some address =>
        rw [parsed] at accepted
        obtain ⟨found, listens, same, port'⟩ := parseListenAddr_address port parsed accepted other
        refine ⟨found, listens, ?_, port'⟩
        rw [same]
        exact accepted

/-- The name that the message of the check itself offers. -/
theorem parseListenAddr_localhost_fails :
    isLoopbackBindHost "localhost" = true ∧
      ∃ error, parseListenAddr "localhost" 3000 = .error error := by
  have named : eqIgnoreAsciiCase (bareHost "localhost") localhost = true := by decide
  exact ⟨if_pos named, parseListenAddr_localhost 3000 named⟩

end OpsCodex.Ops
