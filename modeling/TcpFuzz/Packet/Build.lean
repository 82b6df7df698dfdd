import TcpFuzz.Packet.Fields

/-! `ip_packet.c`, `tcp_packet.c` and `udp_packet.c`. A builder that refuses its arguments returns the error text;
lengths are computed as `int` and handed to the IP header as 16 bits. -/

namespace TcpFuzz
open Bytes

inductive AddressFamily where
  | inet | inet6
deriving DecidableEq, Repr

structure TosSpec where
  check : TosChk
  value : UInt8
deriving DecidableEq, Repr

structure IpInfo where
  tos : TosSpec
  flowLabel : UInt32
  ttl : UInt8
deriving DecidableEq, Repr

inductive EcnKeyword where
  | noEcn | ect0 | ect1 | ce | ect01
deriving DecidableEq, Repr

def EcnKeyword.tosSpec (k : EcnKeyword) : TosSpec where
  check := .ecn
  value := match k with
    | .noEcn => 0
    | .ect0 => 1
    | .ect1 => 2
    | .ce => 3
    | .ect01 => 4

def EcnKeyword.codepoint : EcnKeyword → Option Nat
  | .noEcn => some 0
  | .ect0 => some 2
  | .ect1 => some 1
  | .ce => some 3
  | .ect01 => none

def ttlCheckNone : Nat := 255

def setIpv4Header (m : Mem) (ip ipBytes tos ttl protocol : Nat) : Mem :=
  let m := m.put8 ip (4 * 16 + 5)
  let m := m.put8 (ip + 1) tos
  let m := m.putBe16 (ip + 2) ipBytes
  let m := m.putBe16 (ip + 4) 0
  let m := m.putBe16 (ip + 6) 0
  let m := m.put8 (ip + 8) (if ttl ≠ 0 then ttl else ttlCheckNone)
  let m := m.put8 (ip + 9) protocol
  let m := m.putBe16 (ip + 10) 0
  let m := m.putBe32 (ip + 12) 0
  m.putBe32 (ip + 16) 0

def setIpv6Header (m : Mem) (ip ipBytes tos flowLabel hopLimit protocol : Nat) : Run Mem := do
  let m := m.put8 ip (6 * 16 + tos / 16)
  let m := m.put8 (ip + 1) (tos % 16 * 16 + flowLabel / 65536 % 16)
  let m := m.putBe16 (ip + 2) (flowLabel % 65536)
  assertThat (40 ≤ ipBytes)
  let m := m.putBe16 (ip + 4) (ipBytes - 40)
  let m := m.put8 (ip + 6) protocol
  let m := m.put8 (ip + 7) (if hopLimit ≠ 0 then hopLimit else ttlCheckNone)
  let m := m.zero (ip + 8) 16
  return m.zero (ip + 24) 16

def u16 (n : Nat) : Nat := n % 65536

def setIpHeader (m : Mem) (ip : Nat) (family : AddressFamily) (ipBytes tos flowLabel ttl protocol : Nat) :
    Run Mem :=
  match family with
  | .inet => .ok (setIpv4Header m ip (u16 ipBytes) tos ttl protocol)
  | .inet6 => setIpv6Header m ip (u16 ipBytes) tos flowLabel ttl protocol

def ipHeaderMinLen : AddressFamily → Nat
  | .inet => 20
  | .inet6 => 40

/-- Append a header whose entry the caller fills in without looking for a null pointer. -/
def mustAppendHeader (p : Packet) (type : HeaderType) (headerBytes total : Nat) : Run Packet := do
  match ← packetAppendHeader p type headerBytes with
  | none => .error .invalidAccess
  | some (p, i) => return setTotalBytes p i total

def setPacketIpHeader (p : Packet) (family : AddressFamily) (ipBytes tos flowLabel ttl protocol : Nat) :
    Run Packet :=
  match family with
  | .inet => do
    let p := { p with ipv4 := some 0 }
    assertThat (p.ipv6 = none)
    let p ← mustAppendHeader p .ipv4 20 (u16 ipBytes)
    return { p with buffer := setIpv4Header p.buffer 0 (u16 ipBytes) tos ttl protocol }
  | .inet6 => do
    let p := { p with ipv6 := some 0 }
    assertThat (p.ipv4 = none)
    let p ← mustAppendHeader p .ipv6 40 (u16 ipBytes)
    return { p with buffer := ← setIpv6Header p.buffer 0 (u16 ipBytes) tos flowLabel ttl protocol }

def validTcpFlags : List Char := ['F', 'S', 'R', 'P', '.', 'E', 'W', 'C', 'U']

def invalidTcpFlag (flags : List Char) : Option Char := flags.find? fun c => c ∉ validTcpFlags

def tcpFlagBit (flag : Char) (flags : List Char) : Nat := if flag ∈ flags then 1 else 0

def tcpFlagsByte (flags : List Char) : Nat :=
  tcpFlagBit 'F' flags + 2 * tcpFlagBit 'S' flags + 4 * tcpFlagBit 'R' flags + 8 * tcpFlagBit 'P' flags +
    16 * tcpFlagBit '.' flags + 32 * tcpFlagBit 'U' flags + 64 * tcpFlagBit 'E' flags + 128 * tcpFlagBit 'W' flags

structure TcpArgs where
  family : AddressFamily
  direction : Direction
  ipInfo : IpInfo
  srcPort : UInt16
  dstPort : UInt16
  flags : List Char
  startSequence : UInt32
  tcpPayloadBytes : UInt16
  ackSequence : UInt32
  window : Int32
  urgPtr : UInt16
  tcpOptions : Option (List UInt8)

namespace TcpArgs

def optionBytes (a : TcpArgs) : List UInt8 := a.tcpOptions.getD []

def tcpHeaderBytes (a : TcpArgs) : Nat := 20 + a.optionBytes.length

def ipBytes (a : TcpArgs) : Nat := ipHeaderMinLen a.family + a.tcpHeaderBytes + a.tcpPayloadBytes.toNat

end TcpArgs

def setTcpHeader (m : Mem) (tcp : Nat) (a : TcpArgs) : Mem :=
  let m := m.putBe16 tcp a.srcPort.toNat
  let m := m.putBe16 (tcp + 2) a.dstPort.toNat
  let m := m.putBe32 (tcp + 4) a.startSequence.toNat
  let m := m.putBe32 (tcp + 8) a.ackSequence.toNat
  let m := m.put8 (tcp + 12) (a.tcpHeaderBytes / 4 * 16 + m.get8 (tcp + 12) % 16)
  let m := m.putBe16 (tcp + 14) (if a.window = -1 then 0 else (a.window.toInt % 65536).toNat)
  let m := m.putBe16 (tcp + 16) 0
  let m := m.putBe16 (tcp + 18) a.urgPtr.toNat
  let m := m.put8 (tcp + 13) (tcpFlagsByte a.flags)
  m.write (tcp + 20) a.optionBytes

def newTcpPacket (allocated : Mem) (a : TcpArgs) : Run (Except String Packet) := do
  if a.optionBytes.length % 4 ≠ 0 then
    return .error ("TCP options are not padded correctly to ensure TCP header is a multiple of 4 bytes: "
      ++ toString (a.optionBytes.length % 4) ++ " excess bytes")
  assertThat (a.tcpHeaderBytes % 4 = 0)
  assertThat (ipHeaderMinLen a.family % 4 = 0)
  if 60 < a.tcpHeaderBytes then
    return .error "TCP header too large"
  if 65536 < a.ipBytes then
    return .error "TCP segment too large"
  if let some c := invalidTcpFlag a.flags then
    return .error ("Invalid TCP flag: '" ++ String.singleton c ++ "'")
  let p := packetNew (allocated.zero 0 a.ipBytes) a.ipBytes
  let p := { p with direction := a.direction, tosChk := a.ipInfo.tos.check }
  let p ← setPacketIpHeader p a.family a.ipBytes a.ipInfo.tos.value.toNat a.ipInfo.flowLabel.toNat
    a.ipInfo.ttl.toNat 6
  let p ← mustAppendHeader p .tcp a.tcpHeaderBytes (a.tcpHeaderBytes + a.tcpPayloadBytes.toNat)
  let tcp := (← ipStart p) + ipHeaderMinLen a.family
  let p := { p with tcp := some tcp }
  if a.window = -1 ∧ a.direction = .inbound then
    return .error "window must be specified for inbound packets"
  return .ok { p with
    buffer := setTcpHeader p.buffer tcp a
    flags := { winNocheck := a.window = -1, optionsNocheck := a.tcpOptions.isNone }
    ipBytes := a.ipBytes }

structure UdpArgs where
  family : AddressFamily
  direction : Direction
  ipInfo : IpInfo
  udpPayloadBytes : UInt16
  srcPort : UInt16
  dstPort : UInt16

def UdpArgs.ipBytes (a : UdpArgs) : Nat := ipHeaderMinLen a.family + 8 + a.udpPayloadBytes.toNat

def setUdpHeader (m : Mem) (udp : Nat) (a : UdpArgs) : Mem :=
  let m := m.putBe16 udp a.srcPort.toNat
  let m := m.putBe16 (udp + 2) a.dstPort.toNat
  let m := m.putBe16 (udp + 4) (8 + a.udpPayloadBytes.toNat)
  m.putBe16 (udp + 6) 0

def newUdpPacket (allocated : Mem) (a : UdpArgs) : Run (Except String Packet) := do
  assertThat (ipHeaderMinLen a.family % 4 = 0)
  if 65536 < a.ipBytes then
    return .error "UDP datagram too large"
  let p := packetNew (allocated.zero 0 a.ipBytes) a.ipBytes
  let p := { p with direction := a.direction, tosChk := a.ipInfo.tos.check }
  let p ← setPacketIpHeader p a.family a.ipBytes a.ipInfo.tos.value.toNat a.ipInfo.flowLabel.toNat
    a.ipInfo.ttl.toNat 17
  let p ← mustAppendHeader p .udp 8 (8 + a.udpPayloadBytes.toNat)
  let udp := (← ipStart p) + ipHeaderMinLen a.family
  let p := { p with udp := some udp }
  return .ok { p with buffer := setUdpHeader p.buffer udp a, ipBytes := a.ipBytes }

end TcpFuzz
