import TcpFuzz.Packet.Fields

/-! `packet_parser.c`. The header parsers call each other, so they carry fuel; `parsePacket` supplies two more units
than the packet has bytes. -/

namespace TcpFuzz
open Bytes

inductive ParseResult where
  | ok
  | bad (error : String)
  | unknownL4
deriving DecidableEq, Repr

inductive PacketLayer where
  | layer2Ethernet | layer3Ip
deriving DecidableEq, Repr

def parseTcp (p : Packet) (layer4Start : Nat) (layer4Bytes : Int) (packetEnd : Nat) :
    Run (ParseResult × Packet) := do
  assertThat (0 ≤ layer4Bytes)
  if layer4Bytes < 20 then
    return (.bad "Truncated TCP header", p)
  let p := { p with tcp := some layer4Start }
  let tcpHeaderLen ← packetTcpHeaderLen p
  if tcpHeaderLen < 20 then
    return (.bad "TCP data offset too small", p)
  if layer4Bytes < tcpHeaderLen then
    return (.bad "TCP data offset too big", p)
  match ← packetAppendHeader p .tcp tcpHeaderLen with
  | none => return (.bad "Too many nested headers at TCP header", p)
  | some (p, i) =>
    let p := setTotalBytes p i layer4Bytes.toNat
    assertThat (layer4Start + layer4Bytes.toNat ≤ packetEnd)
    return (.ok, p)

def parseUdp (p : Packet) (layer4Start : Nat) (layer4Bytes : Int) (packetEnd : Nat) :
    Run (ParseResult × Packet) := do
  assertThat (0 ≤ layer4Bytes)
  if layer4Bytes < 8 then
    return (.bad "Truncated UDP header", p)
  let p := { p with udp := some layer4Start }
  let udpBytes := udpLen p.buffer layer4Start
  let udpHeaderLen := 8
  if udpBytes < udpHeaderLen then
    return (.bad "UDP datagram length too small for UDP header", p)
  if udpBytes < layer4Bytes then
    return (.bad "UDP datagram length too small", p)
  if layer4Bytes < udpBytes then
    return (.bad "UDP datagram length too big", p)
  match ← packetAppendHeader p .udp udpHeaderLen with
  | none => return (.bad "Too many nested headers at UDP header", p)
  | some (p, i) =>
    let p := setTotalBytes p i layer4Bytes.toNat
    assertThat (layer4Start + layer4Bytes.toNat ≤ packetEnd)
    return (.ok, p)

def parseIcmp (type : HeaderType) (truncated : String) (setPtr : Packet → Nat → Packet)
    (p : Packet) (layer4Start : Nat) (layer4Bytes : Int) (packetEnd : Nat) :
    Run (ParseResult × Packet) := do
  assertThat (0 ≤ layer4Bytes)
  if layer4Bytes < 8 then
    return (.bad truncated, p)
  let p := setPtr p layer4Start
  match ← packetAppendHeader p type 8 with
  | none => return (.bad "Too many nested headers at ICMP header", p)
  | some (p, i) =>
    let p := setTotalBytes p i layer4Bytes.toNat
    assertThat (layer4Start + layer4Bytes.toNat ≤ packetEnd)
    return (.ok, p)

def parseIcmpv4 (p : Packet) (layer4Start : Nat) (layer4Bytes : Int) (packetEnd : Nat) :
    Run (ParseResult × Packet) :=
  parseIcmp .icmpv4 "Truncated ICMPv4 header" (fun p start => { p with icmpv4 := some start })
    p layer4Start layer4Bytes packetEnd

def parseIcmpv6 (p : Packet) (layer4Start : Nat) (layer4Bytes : Int) (packetEnd : Nat) :
    Run (ParseResult × Packet) :=
  parseIcmp .icmpv6 "Truncated ICMPv6 header" (fun p start => { p with icmpv6 := some start })
    p layer4Start layer4Bytes packetEnd

/-- The label stack loop of `parse_mpls`: the first byte after the stack, or `none` when an
entry overflows the packet. -/
def mplsStackEnd (m : Mem) (packetEnd p : Nat) : Option Nat :=
  if packetEnd < p + 4 then none
  else if ¬mplsEntryStack m p ∧ p + 4 < packetEnd then mplsStackEnd m packetEnd (p + 4)
  else some (p + 4)
termination_by packetEnd - p

mutual

def parseIpv4 (fuel : Nat) (p : Packet) (headerStart packetEnd : Nat) : Run (ParseResult × Packet) :=
  match fuel with
  | 0 => .error .outOfFuel
  | fuel + 1 => do
    let isOuter := p.ipBytes = 0
    let ipHeaderBytes := ipv4HeaderLen p.buffer headerStart
    if ipHeaderBytes < 20 then
      return (.bad "IP header too short", p)
    if packetEnd < headerStart + ipHeaderBytes then
      return (.bad "Full IP header overflows packet", p)
    let ipTotalBytes := ipv4TotLen p.buffer headerStart
    if packetEnd < headerStart + ipTotalBytes then
      return (.bad "IP payload overflows packet", p)
    if ipTotalBytes < ipHeaderBytes then
      return (.bad "IP header bigger than datagram", p)
    -- IP_MF and IP_OFFMASK; the checksum is computed and ignored
    if ipv4FragOff p.buffer headerStart / 0x2000 % 2 ≠ 0 then
      return (.bad "More fragments remaining", p)
    if ipv4FragOff p.buffer headerStart % 0x2000 ≠ 0 then
      return (.bad "Non-zero fragment offset", p)
    match ← packetAppendHeader p .ipv4 ipHeaderBytes with
    | none => return (.bad "Too many nested headers at IPv4 header", p)
    | some (p, i) =>
      let p := setTotalBytes p i ipTotalBytes
      assertThat (headerStart + ipHeaderBytes ≤ packetEnd)
      let layer4Bytes : Int := (ipTotalBytes : Int) - ipHeaderBytes
      let layer4Protocol := ipv4Protocol p.buffer headerStart
      let (result, p) ← parseLayer4 fuel p (headerStart + ipHeaderBytes) layer4Protocol layer4Bytes packetEnd
      -- the innermost IP header is the primary one, the outermost gives the packet length
      let p := if p.ipv4 = none ∧ p.ipv6 = none then { p with ipv4 := some headerStart } else p
      let p := if isOuter then { p with ipBytes := ipTotalBytes } else p
      return (result, p)

def parseIpv6 (fuel : Nat) (p : Packet) (headerStart packetEnd : Nat) : Run (ParseResult × Packet) :=
  match fuel with
  | 0 => .error .outOfFuel
  | fuel + 1 => do
    let isOuter := p.ipBytes = 0
    let ipHeaderBytes := 40
    if packetEnd < headerStart + ipHeaderBytes then
      return (.bad "IPv6 header overflows packet", p)
    let ipTotalBytes := ipHeaderBytes + ipv6PayloadLen p.buffer headerStart
    if packetEnd < headerStart + ipTotalBytes then
      return (.bad "IPv6 payload overflows packet", p)
    assertThat (ipHeaderBytes ≤ ipTotalBytes)
    match ← packetAppendHeader p .ipv6 ipHeaderBytes with
    | none => return (.bad "Too many nested headers at IPv6 header", p)
    | some (p, i) =>
      let p := setTotalBytes p i ipTotalBytes
      assertThat (headerStart + ipHeaderBytes ≤ packetEnd)
      let layer4Bytes : Int := (ipTotalBytes : Int) - ipHeaderBytes
      let layer4Protocol := ipv6NextHeader p.buffer headerStart
      let (result, p) ← parseLayer4 fuel p (headerStart + ipHeaderBytes) layer4Protocol layer4Bytes packetEnd
      let p := if p.ipv4 = none ∧ p.ipv6 = none then { p with ipv6 := some headerStart } else p
      let p := if isOuter then { p with ipBytes := ipTotalBytes } else p
      return (result, p)

def parseGre (fuel : Nat) (p : Packet) (layer4Start : Nat) (layer4Bytes : Int) (packetEnd : Nat) :
    Run (ParseResult × Packet) :=
  match fuel with
  | 0 => .error .outOfFuel
  | fuel + 1 => do
    assertThat (0 ≤ layer4Bytes)
    if layer4Bytes < 4 then
      return (.bad "Truncated GRE header", p)
    if greVersion p.buffer layer4Start ≠ 0 then
      return (.bad "GRE header has unsupported version number", p)
    if greHasRouting p.buffer layer4Start then
      return (.bad "GRE header has unsupported routing info", p)
    let greHeaderLen ← greLen p.buffer layer4Start
    if greHeaderLen < 4 then
      return (.bad "GRE header length too small for GRE header", p)
    if layer4Bytes < greHeaderLen then
      return (.bad "GRE header length too big", p)
    assertThat (layer4Start + layer4Bytes.toNat ≤ packetEnd)
    match ← packetAppendHeader p .gre greHeaderLen with
    | none => return (.bad "Too many nested headers at GRE header", p)
    | some (p, i) =>
      let p := setTotalBytes p i layer4Bytes.toNat
      assertThat (layer4Start + greHeaderLen ≤ packetEnd)
      parseLayer3PacketByProto fuel p (greProto p.buffer layer4Start) (layer4Start + greHeaderLen) packetEnd

def parseMpls (fuel : Nat) (p : Packet) (headerStart packetEnd : Nat) : Run (ParseResult × Packet) :=
  match fuel with
  | 0 => .error .outOfFuel
  | fuel + 1 => do
    let mplsTotalBytes := packetEnd - headerStart
    match mplsStackEnd p.buffer packetEnd headerStart with
    | none => return (.bad "MPLS stack entry overflows packet", p)
    | some inner =>
      let mplsHeaderBytes := inner - headerStart
      assertThat (mplsHeaderBytes ≤ mplsTotalBytes)
      match ← packetAppendHeader p .mpls mplsHeaderBytes with
      | none => return (.bad "Too many nested headers at MPLS header", p)
      | some (p, i) =>
        let p := setTotalBytes p i mplsTotalBytes
        assertThat (inner ≤ packetEnd)
        parseLayer3Packet fuel p inner packetEnd

def parseLayer3PacketByProto (fuel : Nat) (p : Packet) (proto headerStart packetEnd : Nat) :
    Run (ParseResult × Packet) :=
  match fuel with
  | 0 => .error .outOfFuel
  | fuel + 1 =>
    if proto = 0x0800 then
      if packetEnd < headerStart + 20 then
        .ok (.bad "IPv4 header overflows packet", p)
      else if ipVersion p.buffer headerStart = 4 then
        parseIpv4 fuel p headerStart packetEnd
      else
        .ok (.bad ("Bad IP version (" ++ toString (ipVersion p.buffer headerStart) ++ ") for ETHERTYPE_IP"), p)
    else if proto = 0x86dd then
      if packetEnd < headerStart + 40 then
        .ok (.bad "IPv6 header overflows packet", p)
      else if ipVersion p.buffer headerStart = 6 then
        parseIpv6 fuel p headerStart packetEnd
      else
        .ok (.bad "Bad IP version for ETHERTYPE_IPV6", p)
    else if proto = 0x8847 ∨ proto = 0x8848 then
      parseMpls fuel p headerStart packetEnd
    else
      .ok (.unknownL4, p)

def parseLayer3Packet (fuel : Nat) (p : Packet) (headerStart packetEnd : Nat) :
    Run (ParseResult × Packet) :=
  match fuel with
  | 0 => .error .outOfFuel
  | fuel + 1 =>
    if packetEnd < headerStart + 20 then
      .ok (.bad "IP header overflows packet", p)
    else if ipVersion p.buffer headerStart = 4 then
      parseIpv4 fuel p headerStart packetEnd
    else if ipVersion p.buffer headerStart = 6 then
      parseIpv6 fuel p headerStart packetEnd
    else
      .ok (.bad "Unsupported IP version", p)

def parseLayer4 (fuel : Nat) (p : Packet) (layer4Start layer4Protocol : Nat) (layer4Bytes : Int)
    (packetEnd : Nat) : Run (ParseResult × Packet) :=
  match fuel with
  | 0 => .error .outOfFuel
  | fuel + 1 =>
    if layer4Protocol = 6 then
      parseTcp p layer4Start layer4Bytes packetEnd
    else if layer4Protocol = 17 then
      parseUdp p layer4Start layer4Bytes packetEnd
    else if layer4Protocol = 1 then
      parseIcmpv4 p layer4Start layer4Bytes packetEnd
    else if layer4Protocol = 58 then
      parseIcmpv6 p layer4Start layer4Bytes packetEnd
    else if layer4Protocol = 47 then
      parseGre fuel p layer4Start layer4Bytes packetEnd
    else if layer4Protocol = 4 then
      parseIpv4 fuel p layer4Start packetEnd
    else if layer4Protocol = 41 then
      parseIpv6 fuel p layer4Start packetEnd
    else
      .ok (.unknownL4, p)

end

def parseLayer2Packet (fuel : Nat) (p : Packet) (headerStart packetEnd : Nat) :
    Run (ParseResult × Packet) :=
  if packetEnd < headerStart + 14 then
    .ok (.bad "Ethernet header overflows packet", p)
  else
    parseLayer3PacketByProto fuel { p with l2HeaderBytes := 14 } (p.buffer.be16 (headerStart + 12))
      (headerStart + 14) packetEnd

def hexPadded (width n : Nat) : String :=
  String.ofList (List.leftpad width '0' (Nat.toDigits 16 n))

def hexDumpByte (m : Mem) (i : Nat) : String :=
  (if i % 16 = 0 then (if 0 < i then "\n" else "") ++ "0x" ++ hexPadded 4 i ++ ": " else "")
    ++ hexPadded 2 (m.get8 i) ++ " "

def hexDump (m : Mem) (bytes : Nat) : String :=
  String.join ((List.range bytes).map (hexDumpByte m)) ++ "\n"

def parseFromLayer (layer : PacketLayer) (fuel : Nat) (p : Packet) (packetEnd : Nat) :
    Run (ParseResult × Packet) :=
  match layer with
  | .layer2Ethernet => parseLayer2Packet fuel p 0 packetEnd
  | .layer3Ip => parseLayer3Packet fuel p 0 packetEnd

def parsePacket (p : Packet) (inBytes : Nat) (layer : PacketLayer) : Run (ParseResult × Packet) := do
  assertThat (inBytes ≤ p.bufferBytes)
  let (result, p) ← parseFromLayer layer (inBytes + 2) p inBytes
  match result with
  | .bad message =>
    return (.bad (message ++ ": packet of " ++ toString inBytes ++ " bytes:\n" ++ hexDump p.buffer inBytes), p)
  | result => return (result, p)

end TcpFuzz
