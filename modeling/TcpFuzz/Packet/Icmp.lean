import TcpFuzz.Packet.Build

/-! `icmp_packet.c`: type and code names, the ICMP header and the echoed prefix of the quoted packet. -/

namespace TcpFuzz
open Bytes

structure IcmpCodeInfo where
  codeByte : Nat
  codeString : String

structure IcmpTypeInfo where
  typeByte : Nat
  typeString : String
  codeTable : Option (List IcmpCodeInfo) := none

def icmpv4UnreachableCodes : List IcmpCodeInfo :=
  [⟨0, "net_unreachable"⟩, ⟨1, "host_unreachable"⟩, ⟨2, "protocol_unreachable"⟩, ⟨3, "port_unreachable"⟩,
   ⟨4, "frag_needed"⟩, ⟨5, "source_route_failed"⟩, ⟨6, "net_unknown"⟩, ⟨7, "host_unknown"⟩,
   ⟨8, "source_host_isolated"⟩, ⟨9, "net_prohibited"⟩, ⟨10, "host_prohibited"⟩,
   ⟨11, "net_unreachable_for_tos"⟩, ⟨12, "host_unreachable_for_tos"⟩, ⟨13, "packet_filtered"⟩,
   ⟨14, "precedence_violation"⟩, ⟨15, "precedence_cutoff"⟩]

def icmpv4Types : List IcmpTypeInfo :=
  [{ typeByte := 0, typeString := "echo_reply" },
   { typeByte := 3, typeString := "unreachable", codeTable := some icmpv4UnreachableCodes },
   { typeByte := 4, typeString := "source_quench" },
   { typeByte := 5, typeString := "redirect" },
   { typeByte := 8, typeString := "echo_request" },
   { typeByte := 11, typeString := "time_exceeded" },
   { typeByte := 12, typeString := "parameter_problem" },
   { typeByte := 13, typeString := "timestamp_request" },
   { typeByte := 14, typeString := "timestamp_reply" },
   { typeByte := 15, typeString := "information_request" },
   { typeByte := 16, typeString := "information_reply" },
   { typeByte := 17, typeString := "address_mask_request" },
   { typeByte := 18, typeString := "address_mask_reply" }]

def icmpv6UnreachableCodes : List IcmpCodeInfo :=
  [⟨0, "net_unreachable"⟩, ⟨0, "no_route"⟩, ⟨1, "admin_prohibited"⟩, ⟨2, "not_neighbour"⟩,
   ⟨3, "address_unreachable"⟩, ⟨4, "port_unreachable"⟩]

def icmpv6TimeExceedCodes : List IcmpCodeInfo :=
  [⟨0, "exceeded_hop_limit"⟩, ⟨1, "exceeded_frag_time"⟩]

def icmpv6ParamprobCodes : List IcmpCodeInfo :=
  [⟨0, "header_field"⟩, ⟨1, "unknown_next_header"⟩, ⟨2, "unknown_option"⟩]

def icmpv6Types : List IcmpTypeInfo :=
  [{ typeByte := 1, typeString := "unreachable", codeTable := some icmpv6UnreachableCodes },
   { typeByte := 2, typeString := "packet_too_big" },
   { typeByte := 3, typeString := "time_exceeded", codeTable := some icmpv6TimeExceedCodes },
   { typeByte := 4, typeString := "parameter_problem", codeTable := some icmpv6ParamprobCodes },
   { typeByte := 128, typeString := "echo_request" },
   { typeByte := 129, typeString := "echo_reply" }]

def isSpace (c : Char) : Bool := c = ' ' ∨ ('\t' ≤ c ∧ c ≤ '\r')

/-- The `%d` conversion of `sscanf`: a `long` that saturates, cut down to an `int`. -/
def scanInt (s : List Char) : Option Int :=
  let s := s.dropWhile isSpace
  let (negative, s) := match s with
    | '-' :: rest => (true, rest)
    | '+' :: rest => (false, rest)
    | _ => (false, s)
  let digits := s.takeWhile Char.isDigit
  if digits = [] then none
  else
    let magnitude : Int := Nat.ofDigitChars 10 digits 0
    let value := max (-2 ^ 63) (min (2 ^ 63 - 1) (if negative then -magnitude else magnitude))
    some ((value + 2 ^ 31) % 2 ^ 32 - 2 ^ 31)

/-- `sscanf` with a literal text in front of one `%d`. -/
def scanAfter (lead s : String) : Option Int :=
  if lead.toList.isPrefixOf s.toList then scanInt (s.toList.drop lead.toList.length) else none

def findIcmpType (table : List IcmpTypeInfo) (name : String) : Option IcmpTypeInfo :=
  table.foldl (fun found info => if name = info.typeString then some info else found) none

def findIcmpCode (table : List IcmpCodeInfo) (name : String) : Option IcmpCodeInfo :=
  table.foldl (fun found info => if name = info.codeString then some info else found) none

def isValidU8 (x : Int) : Prop := 0 ≤ x ∧ x ≤ 255
def isValidU16 (x : Int) : Prop := 0 ≤ x ∧ x ≤ 65535
def isValidU32 (x : Int) : Prop := 0 ≤ x ∧ x ≤ 4294967295

instance (x : Int) : Decidable (isValidU8 x) := inferInstanceAs (Decidable (_ ∧ _))
instance (x : Int) : Decidable (isValidU16 x) := inferInstanceAs (Decidable (_ ∧ _))
instance (x : Int) : Decidable (isValidU32 x) := inferInstanceAs (Decidable (_ ∧ _))

/-- The type number, minus one if it stays unknown, and the codes of a type from the table. -/
def icmpTypeOf (family : AddressFamily) (typeString : String) : Int × Option (List IcmpCodeInfo) :=
  match scanAfter "type_" typeString with
  | some type => (type, none)
  | none =>
    match findIcmpType (match family with | .inet => icmpv4Types | .inet6 => icmpv6Types) typeString with
    | some info => (info.typeByte, info.codeTable)
    | none => (-1, none)

def icmpCodeOf (codeTable : Option (List IcmpCodeInfo)) : Option String → Int
  | none => 0
  | some codeString =>
    match scanAfter "code_" codeString with
    | some code => code
    | none => match codeTable.bind fun table => findIcmpCode table codeString with
      | some info => info.codeByte
      | none => -1

def parseIcmpTypeAndCode (family : AddressFamily) (typeString : String) (codeString : Option String) :
    Except String (Int × Int) :=
  let (type, codeTable) := icmpTypeOf family typeString
  if ¬isValidU8 type then
    .error ("bad ICMP type " ++ typeString)
  else
    let code := icmpCodeOf codeTable codeString
    if ¬isValidU8 code then
      .error ("bad ICMP code " ++ codeString.getD "(null)")
    else
      .ok (type, code)

def icmpProtocol : AddressFamily → Nat
  | .inet => 1
  | .inet6 => 58

def setIcmpv4Header (m : Mem) (icmp type code : Nat) (mtu : Int) (echoId : Nat) : Except String Mem :=
  let m := ((m.put8 icmp type).put8 (icmp + 1) code).putBe16 (icmp + 2) 0
  let echo (m : Mem) := if 0 < echoId then m.putBe16 (icmp + 4) echoId else m
  if 0 ≤ mtu then
    if type ≠ 3 ∨ code ≠ 4 then
      .error "ICMPv4 MTU is only valid for unreachable-frag_needed"
    else if ¬isValidU16 mtu then
      .error "ICMPv4 MTU out of 16-bit range"
    else
      .ok (echo (m.putBe16 (icmp + 6) mtu.toNat))
  else
    .ok (echo m)

def setIcmpv6Header (m : Mem) (icmp type code : Nat) (mtu : Int) (echoId : Nat) : Except String Mem :=
  let m := ((m.put8 icmp type).put8 (icmp + 1) code).putBe16 (icmp + 2) 0
  let echo (m : Mem) := if 0 < echoId then m.putBe16 (icmp + 4) echoId else m
  if 0 ≤ mtu then
    if type ≠ 2 ∨ code ≠ 0 then
      .error "ICMPv6 MTU is only valid for packet_too_big-0"
    else if ¬isValidU32 mtu then
      .error "ICMPv6 MTU out of 32-bit range"
    else
      .ok (echo (m.putBe32 (icmp + 4) mtu.toNat))
  else
    .ok (echo m)

def setPacketIcmpHeader (p : Packet) (icmp : Nat) (family : AddressFamily) (icmpBytes type code : Nat)
    (mtu : Int) (echoId : Nat) : Run (Except String Packet) :=
  match family with
  | .inet => do
    let p := { p with icmpv4 := some icmp }
    assertThat (p.icmpv6 = none)
    let p ← mustAppendHeader p .icmpv4 8 icmpBytes
    return (setIcmpv4Header p.buffer icmp type code mtu echoId).map fun m => { p with buffer := m }
  | .inet6 => do
    let p := { p with icmpv6 := some icmp }
    assertThat (p.icmpv4 = none)
    let p ← mustAppendHeader p .icmpv6 8 icmpBytes
    return (setIcmpv6Header p.buffer icmp type code mtu echoId).map fun m => { p with buffer := m }

def packetEchoedIpHeader (p : Packet) : Run Nat :=
  match p.icmpv4, p.icmpv6 with
  | some icmp, _ => .ok (icmp + 8)
  | none, some icmp => .ok (icmp + 8)
  | none, none => .error .assertion

def layer4HeaderLen (protocol : Nat) : Run Nat :=
  if protocol = 6 then .ok 20 else if protocol = 17 then .ok 8 else .error .assertion

/-- Where the TCP header echoed by an ICMP message starts, if a TCP packet is echoed. -/
def packetEchoedTcpHeader (p : Packet) : Run (Option Nat) :=
  match p.icmpv4, p.icmpv6 with
  | some icmp, _ => .ok (if ipv4Protocol p.buffer (icmp + 8) = 6 then some (icmp + 8 + 20) else none)
  | none, some icmp => .ok (if ipv6NextHeader p.buffer (icmp + 8) = 6 then some (icmp + 8 + 40) else none)
  | none, none => .error .assertion

def packetEchoedTcpSeq (p : Packet) : Run Nat := do
  let tcp ← requirePtr (← packetEchoedTcpHeader p)
  assertThat (tcp + 4 + 4 ≤ tcp + 8)
  return tcp + 4

structure IcmpArgs where
  family : AddressFamily
  direction : Direction
  typeString : String
  codeString : Option String
  protocol : Nat
  tcpStartSequence : UInt32
  payloadBytes : UInt32
  ipInfo : IpInfo
  mtu : Int
  echoId : Int

namespace IcmpArgs

def Echoes (a : IcmpArgs) : Prop := a.protocol = 6 ∨ a.protocol = 17

instance (a : IcmpArgs) : Decidable a.Echoes := inferInstanceAs (Decidable (_ ∨ _))

def echoedBytes (a : IcmpArgs) : Nat := if a.Echoes then ipHeaderMinLen a.family + 8 else 0

def icmpBytes (a : IcmpArgs) : Nat :=
  if a.Echoes then 8 + a.echoedBytes else if a.protocol = 255 then a.payloadBytes.toNat else 0

def ipBytes (a : IcmpArgs) : Nat :=
  if a.Echoes ∨ a.protocol = 255 then ipHeaderMinLen a.family + a.icmpBytes else 0

end IcmpArgs

def asInt (n : Nat) : Int := if n % 2 ^ 32 < 2 ^ 31 then n % 2 ^ 32 else n % 2 ^ 32 - 2 ^ 32

def setEchoedHeader (p : Packet) (a : IcmpArgs) : Run Packet :=
  if a.echoedBytes ≠ 0 then do
    let echoedIp ← packetEchoedIpHeader p
    let echoedIpBytes := ipHeaderMinLen a.family + (← layer4HeaderLen a.protocol) + a.payloadBytes.toNat
    let m ← setIpHeader p.buffer echoedIp a.family echoedIpBytes 0 0 0 a.protocol
    let p := { p with buffer := m }
    let p ← if a.protocol = 6 then do
        let seq ← packetEchoedTcpSeq p
        pure { p with buffer := p.buffer.putBe32 seq a.tcpStartSequence.toNat }
      else pure p
    return { p with echoedHeader := true }
  else
    .ok { p with echoedHeader := false }

def newIcmpPacket (allocated : Mem) (a : IcmpArgs) : Run (Except String Packet) := do
  if a.echoId < 0 ∨ 65535 < a.echoId then
    return .error "invalid echo_id, must be between 0 and 65535"
  assertThat (ipHeaderMinLen a.family % 4 = 0)
  if asInt a.icmpBytes < 8 then
    return .error ("icmp_bytes " ++ toString (asInt a.icmpBytes) ++ " smaller than icmp header length 8")
  match parseIcmpTypeAndCode a.family a.typeString a.codeString with
  | .error e => return .error e
  | .ok (type, code) =>
    assertThat (isValidU8 type)
    assertThat (isValidU8 code)
    -- `memset` with a negative length writes past the buffer
    if asInt a.ipBytes < 0 then
      Except.error Fault.invalidAccess
    let p := packetNew (allocated.zero 0 a.ipBytes) a.ipBytes
    let p := { p with direction := a.direction, tosChk := a.ipInfo.tos.check }
    let p ← setPacketIpHeader p a.family a.ipBytes a.ipInfo.tos.value.toNat a.ipInfo.flowLabel.toNat
      a.ipInfo.ttl.toNat (icmpProtocol a.family)
    let icmp := (← ipStart p) + ipHeaderMinLen a.family
    match ← setPacketIcmpHeader p icmp a.family a.icmpBytes type.toNat code.toNat a.mtu a.echoId.toNat with
    | .error e => return .error e
    | .ok p =>
      let p ← setEchoedHeader p a
      return .ok { p with ipBytes := a.ipBytes }

end TcpFuzz
