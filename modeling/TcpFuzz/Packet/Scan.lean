import TcpFuzz.Lib.Peek
import TcpFuzz.Packet.ParserCorrect

/-! The parser of `packet_parser.c` as a program that asks for the bytes it looks at. -/

namespace TcpFuzz
open Bytes Mem Peek

abbrev Scan := Peek Nat UInt8 Fault

def byteAt (i : Nat) : Scan Nat := do return (← look i).toNat

def be16At (i : Nat) : Scan Nat := do return (← byteAt i) * 256 + (← byteAt (i + 1))

def be32At (i : Nat) : Scan Nat := do return (← be16At i) * 65536 + (← be16At (i + 2))

def bytesAt (i : Nat) : Nat → Scan (List UInt8)
  | 0 => return []
  | n + 1 => do return (← look i) :: (← bytesAt (i + 1) n)

def scanTcp (p : Packet) (layer4Start : Nat) (layer4Bytes : Int) (packetEnd : Nat) : Scan (ParseResult × Packet) := do
  lift (assertThat (0 ≤ layer4Bytes))
  if layer4Bytes < 20 then
    return (.bad "Truncated TCP header", p)
  let p := { p with tcp := some layer4Start }
  let tcpHeaderLen := (← byteAt (layer4Start + 12)) / 16 * 4
  if tcpHeaderLen < 20 then
    return (.bad "TCP data offset too small", p)
  if layer4Bytes < tcpHeaderLen then
    return (.bad "TCP data offset too big", p)
  match ← lift (packetAppendHeader p .tcp tcpHeaderLen) with
  | none => return (.bad "Too many nested headers at TCP header", p)
  | some (p, i) =>
    let p := setTotalBytes p i layer4Bytes.toNat
    lift (assertThat (layer4Start + layer4Bytes.toNat ≤ packetEnd))
    return (.ok, p)

def scanUdp (p : Packet) (layer4Start : Nat) (layer4Bytes : Int) (packetEnd : Nat) : Scan (ParseResult × Packet) := do
  lift (assertThat (0 ≤ layer4Bytes))
  if layer4Bytes < 8 then
    return (.bad "Truncated UDP header", p)
  let p := { p with udp := some layer4Start }
  let udpBytes ← be16At (layer4Start + 4)
  let udpHeaderLen := 8
  if udpBytes < udpHeaderLen then
    return (.bad "UDP datagram length too small for UDP header", p)
  if udpBytes < layer4Bytes then
    return (.bad "UDP datagram length too small", p)
  if layer4Bytes < udpBytes then
    return (.bad "UDP datagram length too big", p)
  match ← lift (packetAppendHeader p .udp udpHeaderLen) with
  | none => return (.bad "Too many nested headers at UDP header", p)
  | some (p, i) =>
    let p := setTotalBytes p i layer4Bytes.toNat
    lift (assertThat (layer4Start + layer4Bytes.toNat ≤ packetEnd))
    return (.ok, p)

def scanIcmp (type : HeaderType) (truncated : String) (setPtr : Packet → Nat → Packet)
    (p : Packet) (layer4Start : Nat) (layer4Bytes : Int) (packetEnd : Nat) : Scan (ParseResult × Packet) := do
  lift (assertThat (0 ≤ layer4Bytes))
  if layer4Bytes < 8 then
    return (.bad truncated, p)
  let p := setPtr p layer4Start
  match ← lift (packetAppendHeader p type 8) with
  | none => return (.bad "Too many nested headers at ICMP header", p)
  | some (p, i) =>
    let p := setTotalBytes p i layer4Bytes.toNat
    lift (assertThat (layer4Start + layer4Bytes.toNat ≤ packetEnd))
    return (.ok, p)

def scanIcmpv4 (p : Packet) (layer4Start : Nat) (layer4Bytes : Int) (packetEnd : Nat) : Scan (ParseResult × Packet) :=
  scanIcmp .icmpv4 "Truncated ICMPv4 header" (fun p start => { p with icmpv4 := some start })
    p layer4Start layer4Bytes packetEnd

def scanIcmpv6 (p : Packet) (layer4Start : Nat) (layer4Bytes : Int) (packetEnd : Nat) : Scan (ParseResult × Packet) :=
  scanIcmp .icmpv6 "Truncated ICMPv6 header" (fun p start => { p with icmpv6 := some start })
    p layer4Start layer4Bytes packetEnd

def greLenOf (flags : Nat) : Nat :=
  4 + (if flags / 128 % 2 = 1 ∨ flags / 64 % 2 = 1 then 4 else 0) + (if flags / 32 % 2 = 1 then 4 else 0) +
    (if flags / 16 % 2 = 1 then 4 else 0)

def scanGreLen (gre : Nat) : Scan Nat := do
  let version := (← byteAt (gre + 1)) % 8
  lift (assertThat (version = 0))
  let flags ← byteAt gre
  lift (assertThat (¬flags / 64 % 2 = 1))
  return greLenOf flags

def scanStackEnd (packetEnd p : Nat) : Scan (Option Nat) :=
  if packetEnd < p + 4 then return none
  else do
    let entry ← be32At p
    if ¬entry / 256 % 2 = 1 ∧ p + 4 < packetEnd then scanStackEnd packetEnd (p + 4)
    else return some (p + 4)
termination_by packetEnd - p

mutual

def scanIpv4 (fuel : Nat) (p : Packet) (headerStart packetEnd : Nat) : Scan (ParseResult × Packet) :=
  match fuel with
  | 0 => fail .outOfFuel
  | fuel + 1 => do
    let isOuter := p.ipBytes = 0
    let ipHeaderBytes := (← byteAt headerStart) % 16 * 4
    if ipHeaderBytes < 20 then
      return (.bad "IP header too short", p)
    if packetEnd < headerStart + ipHeaderBytes then
      return (.bad "Full IP header overflows packet", p)
    let ipTotalBytes ← be16At (headerStart + 2)
    if packetEnd < headerStart + ipTotalBytes then
      return (.bad "IP payload overflows packet", p)
    if ipTotalBytes < ipHeaderBytes then
      return (.bad "IP header bigger than datagram", p)
    let fragOff ← be16At (headerStart + 6)
    if fragOff / 0x2000 % 2 ≠ 0 then
      return (.bad "More fragments remaining", p)
    if fragOff % 0x2000 ≠ 0 then
      return (.bad "Non-zero fragment offset", p)
    -- the checksum over the header, which is ignored
    let _ ← bytesAt headerStart ipHeaderBytes
    match ← lift (packetAppendHeader p .ipv4 ipHeaderBytes) with
    | none => return (.bad "Too many nested headers at IPv4 header", p)
    | some (p, i) =>
      let p := setTotalBytes p i ipTotalBytes
      lift (assertThat (headerStart + ipHeaderBytes ≤ packetEnd))
      let layer4Bytes : Int := (ipTotalBytes : Int) - ipHeaderBytes
      let layer4Protocol ← byteAt (headerStart + 9)
      let (result, p) ← scanLayer4 fuel p (headerStart + ipHeaderBytes) layer4Protocol layer4Bytes packetEnd
      let p := if p.ipv4 = none ∧ p.ipv6 = none then { p with ipv4 := some headerStart } else p
      let p := if isOuter then { p with ipBytes := ipTotalBytes } else p
      return (result, p)

def scanIpv6 (fuel : Nat) (p : Packet) (headerStart packetEnd : Nat) : Scan (ParseResult × Packet) :=
  match fuel with
  | 0 => fail .outOfFuel
  | fuel + 1 => do
    let isOuter := p.ipBytes = 0
    let ipHeaderBytes := 40
    if packetEnd < headerStart + ipHeaderBytes then
      return (.bad "IPv6 header overflows packet", p)
    let ipTotalBytes := ipHeaderBytes + (← be16At (headerStart + 4))
    if packetEnd < headerStart + ipTotalBytes then
      return (.bad "IPv6 payload overflows packet", p)
    lift (assertThat (ipHeaderBytes ≤ ipTotalBytes))
    match ← lift (packetAppendHeader p .ipv6 ipHeaderBytes) with
    | none => return (.bad "Too many nested headers at IPv6 header", p)
    | some (p, i) =>
      let p := setTotalBytes p i ipTotalBytes
      lift (assertThat (headerStart + ipHeaderBytes ≤ packetEnd))
      let layer4Bytes : Int := (ipTotalBytes : Int) - ipHeaderBytes
      let layer4Protocol ← byteAt (headerStart + 6)
      let (result, p) ← scanLayer4 fuel p (headerStart + ipHeaderBytes) layer4Protocol layer4Bytes packetEnd
      let p := if p.ipv4 = none ∧ p.ipv6 = none then { p with ipv6 := some headerStart } else p
      let p := if isOuter then { p with ipBytes := ipTotalBytes } else p
      return (result, p)

def scanGre (fuel : Nat) (p : Packet) (layer4Start : Nat) (layer4Bytes : Int) (packetEnd : Nat) :
    Scan (ParseResult × Packet) :=
  match fuel with
  | 0 => fail .outOfFuel
  | fuel + 1 => do
    lift (assertThat (0 ≤ layer4Bytes))
    if layer4Bytes < 4 then
      return (.bad "Truncated GRE header", p)
    let version := (← byteAt (layer4Start + 1)) % 8
    if version ≠ 0 then
      return (.bad "GRE header has unsupported version number", p)
    let flags ← byteAt layer4Start
    if flags / 64 % 2 = 1 then
      return (.bad "GRE header has unsupported routing info", p)
    let greHeaderLen ← scanGreLen layer4Start
    if greHeaderLen < 4 then
      return (.bad "GRE header length too small for GRE header", p)
    if layer4Bytes < greHeaderLen then
      return (.bad "GRE header length too big", p)
    lift (assertThat (layer4Start + layer4Bytes.toNat ≤ packetEnd))
    match ← lift (packetAppendHeader p .gre greHeaderLen) with
    | none => return (.bad "Too many nested headers at GRE header", p)
    | some (p, i) =>
      let p := setTotalBytes p i layer4Bytes.toNat
      lift (assertThat (layer4Start + greHeaderLen ≤ packetEnd))
      let proto ← be16At (layer4Start + 2)
      scanLayer3PacketByProto fuel p proto (layer4Start + greHeaderLen) packetEnd

def scanMpls (fuel : Nat) (p : Packet) (headerStart packetEnd : Nat) : Scan (ParseResult × Packet) :=
  match fuel with
  | 0 => fail .outOfFuel
  | fuel + 1 => do
    let mplsTotalBytes := packetEnd - headerStart
    match ← scanStackEnd packetEnd headerStart with
    | none => return (.bad "MPLS stack entry overflows packet", p)
    | some inner =>
      let mplsHeaderBytes := inner - headerStart
      lift (assertThat (mplsHeaderBytes ≤ mplsTotalBytes))
      match ← lift (packetAppendHeader p .mpls mplsHeaderBytes) with
      | none => return (.bad "Too many nested headers at MPLS header", p)
      | some (p, i) =>
        let p := setTotalBytes p i mplsTotalBytes
        lift (assertThat (inner ≤ packetEnd))
        scanLayer3Packet fuel p inner packetEnd

def scanLayer3PacketByProto (fuel : Nat) (p : Packet) (proto headerStart packetEnd : Nat) : Scan (ParseResult × Packet) :=
  match fuel with
  | 0 => fail .outOfFuel
  | fuel + 1 =>
    if proto = 0x0800 then
      if packetEnd < headerStart + 20 then
        return (.bad "IPv4 header overflows packet", p)
      else do
        let version := (← byteAt headerStart) / 16
        if version = 4 then scanIpv4 fuel p headerStart packetEnd
        else return (.bad ("Bad IP version (" ++ toString version ++ ") for ETHERTYPE_IP"), p)
    else if proto = 0x86dd then
      if packetEnd < headerStart + 40 then
        return (.bad "IPv6 header overflows packet", p)
      else do
        let version := (← byteAt headerStart) / 16
        if version = 6 then scanIpv6 fuel p headerStart packetEnd
        else return (.bad "Bad IP version for ETHERTYPE_IPV6", p)
    else if proto = 0x8847 ∨ proto = 0x8848 then
      scanMpls fuel p headerStart packetEnd
    else
      return (.unknownL4, p)

def scanLayer3Packet (fuel : Nat) (p : Packet) (headerStart packetEnd : Nat) : Scan (ParseResult × Packet) :=
  match fuel with
  | 0 => fail .outOfFuel
  | fuel + 1 =>
    if packetEnd < headerStart + 20 then
      return (.bad "IP header overflows packet", p)
    else do
      let version := (← byteAt headerStart) / 16
      if version = 4 then scanIpv4 fuel p headerStart packetEnd
      else if version = 6 then scanIpv6 fuel p headerStart packetEnd
      else return (.bad "Unsupported IP version", p)

def scanLayer4 (fuel : Nat) (p : Packet) (layer4Start layer4Protocol : Nat) (layer4Bytes : Int) (packetEnd : Nat) :
    Scan (ParseResult × Packet) :=
  match fuel with
  | 0 => fail .outOfFuel
  | fuel + 1 =>
    if layer4Protocol = 6 then
      scanTcp p layer4Start layer4Bytes packetEnd
    else if layer4Protocol = 17 then
      scanUdp p layer4Start layer4Bytes packetEnd
    else if layer4Protocol = 1 then
      scanIcmpv4 p layer4Start layer4Bytes packetEnd
    else if layer4Protocol = 58 then
      scanIcmpv6 p layer4Start layer4Bytes packetEnd
    else if layer4Protocol = 47 then
      scanGre fuel p layer4Start layer4Bytes packetEnd
    else if layer4Protocol = 4 then
      scanIpv4 fuel p layer4Start packetEnd
    else if layer4Protocol = 41 then
      scanIpv6 fuel p layer4Start packetEnd
    else
      return (.unknownL4, p)

end

def scanFromLayer (layer : PacketLayer) (fuel : Nat) (p : Packet) (packetEnd : Nat) : Scan (ParseResult × Packet) :=
  match layer with
  | .layer2Ethernet =>
    if packetEnd < 14 then
      return (.bad "Ethernet header overflows packet", p)
    else do
      let etherType ← be16At 12
      scanLayer3PacketByProto fuel { p with l2HeaderBytes := 14 } etherType 14 packetEnd
  | .layer3Ip => scanLayer3Packet fuel p 0 packetEnd

/-- The parser with the bytes it looks at, those of the dump in an error text included. -/
def scanPacket (p : Packet) (inBytes : Nat) (layer : PacketLayer) : Scan (ParseResult × Packet) := do
  lift (assertThat (inBytes ≤ p.bufferBytes))
  let (result, p) ← scanFromLayer layer (inBytes + 2) p inBytes
  match result with
  | .bad message =>
    let dumped ← bytesAt 0 inBytes
    return (.bad (message ++ ": packet of " ++ toString inBytes ++ " bytes:\n" ++ hexDump (ofList dumped) inBytes), p)
  | result => return (result, p)

section Reads

variable (m : Mem)

@[simp] theorem eval_byteAt (i : Nat) : (byteAt i).eval m = .ok (m.get8 i) := rfl
@[simp] theorem eval_be16At (i : Nat) : (be16At i).eval m = .ok (m.be16 i) := rfl
@[simp] theorem eval_be32At (i : Nat) : (be32At i).eval m = .ok (m.be32 i) := rfl

theorem eval_bytesAt (i n : Nat) : (bytesAt i n).eval m = .ok (m.bytes i n) := by
  induction n generalizing i with
  | zero => rfl
  | succ n ih =>
    simp only [bytesAt, eval_bind, eval_look, ok_bind, ih, eval_pure, bytes, List.range_succ_eq_map, List.map_cons,
      List.map_map, Nat.add_zero]
    congr 2
    exact List.map_congr_left fun k _ => congrArg m (by simp only [Nat.succ_eq_add_one]; omega)

theorem eval_scanGreLen (gre : Nat) : (scanGreLen gre).eval m = greLen m gre := by
  simp only [scanGreLen, eval_bind, eval_byteAt, ok_bind, eval_lift, eval_pure]
  rfl

theorem eval_scanStackEnd (stop p : Nat) : (scanStackEnd stop p).eval m = .ok (mplsStackEnd m stop p) := by
  fun_induction scanStackEnd stop p with
  | case1 p short => rw [mplsStackEnd, if_pos short]; rfl
  | case2 p fits ih =>
    rw [mplsStackEnd, if_neg fits, eval_bind, eval_be32At, ok_bind]
    by_cases more : ¬mplsEntryStack m p ∧ p + 4 < stop
    · rw [if_pos more, if_pos (show ¬m.be32 p / 256 % 2 = 1 ∧ p + 4 < stop from more), ih _ more]
    · rw [if_neg more, if_neg (show ¬(¬m.be32 p / 256 % 2 = 1 ∧ p + 4 < stop) from more)]
      rfl

end Reads

def withBuffer (m : Mem) (p : Packet) : Packet := { p with buffer := m }

/-- On the memory `m` the scan gives what the run does on a packet with these bytes. -/
def Follows (m : Mem) (scan : Scan (ParseResult × Packet)) (run : Run (ParseResult × Packet)) : Prop :=
  (scan.eval m).map (fun r => (r.1, withBuffer m r.2)) = run

namespace Follows

variable {m : Mem} {α : Type} {p : Packet}

theorem done (result : ParseResult) : Follows m (pure (result, p)) (.ok (result, withBuffer m p)) := rfl

theorem fail (fault : Fault) : Follows m (Peek.fail fault) (.error fault) := rfl

theorem read {x : Scan α} {a : α} (result : x.eval m = .ok a) {f : α → Scan (ParseResult × Packet)}
    {run : Run (ParseResult × Packet)} (rest : Follows m (f a) run) : Follows m (x >>= f) run := by
  unfold Follows
  rw [eval_bind, result, ok_bind]
  exact rest

theorem lift {x : Scan α} {y : Run α} (result : x.eval m = y) {f : α → Scan (ParseResult × Packet)}
    {g : α → Run (ParseResult × Packet)} (rest : ∀ a, Follows m (f a) (g a)) : Follows m (x >>= f) (y >>= g) := by
  unfold Follows
  rw [eval_bind, result]
  cases y with
  | error => rfl
  | ok a => exact rest a

theorem ite {c : Prop} [Decidable c] {x x' : Scan (ParseResult × Packet)} {y y' : Run (ParseResult × Packet)}
    (yes : c → Follows m x y) (no : ¬c → Follows m x' y') : Follows m (if c then x else x') (if c then y else y') := by
  split
  · exact yes ‹c›
  · exact no ‹¬c›

theorem append {type : HeaderType} {headerBytes : Nat} {f : Option (Packet × Nat) → Scan (ParseResult × Packet)}
    {g : Option (Packet × Nat) → Run (ParseResult × Packet)} (full : Follows m (f none) (g none))
    (added : ∀ q i, Follows m (f (some (q, i))) (g (some (withBuffer m q, i)))) :
    Follows m (Peek.lift (packetAppendHeader p type headerBytes) >>= f)
      (packetAppendHeader (withBuffer m p) type headerBytes >>= g) := by
  have same : packetAppendHeader (withBuffer m p) type headerBytes =
      (packetAppendHeader p type headerBytes).map (Option.map fun r => (withBuffer m r.1, r.2)) := by
    have count : packetHeaderCount (withBuffer m p) = packetHeaderCount p := rfl
    simp only [packetAppendHeader, run_pure, count]
    by_cases counted : packetHeaderCount p ≤ packetMaxHeaders
    · rw [assertThat_ok counted, ok_bind, ok_bind]
      by_cases full : packetHeaderCount p = packetMaxHeaders
      · rw [if_pos full, if_pos full]
        rfl
      · rw [if_neg full, if_neg full]
        by_cases big : p.bufferBytes < p.ipBytes + headerBytes
        · rw [if_pos big, if_pos (show (withBuffer m p).bufferBytes < (withBuffer m p).ipBytes + headerBytes from big)]
          rfl
        · rw [if_neg big, if_neg (show ¬(withBuffer m p).bufferBytes < (withBuffer m p).ipBytes + headerBytes from big)]
          rfl
    · rw [assertThat, if_neg counted]
      rfl
  unfold Follows
  rw [eval_bind, eval_lift, same]
  cases packetAppendHeader p type headerBytes with
  | error => rfl
  | ok r =>
    cases r with
    | none => exact full
    | some r => exact added r.1 r.2

theorem bind {scan : Scan (ParseResult × Packet)} {run : Run (ParseResult × Packet)} (first : Follows m scan run)
    {f : ParseResult × Packet → Scan (ParseResult × Packet)} {g : ParseResult × Packet → Run (ParseResult × Packet)}
    (rest : ∀ result q, Follows m (f (result, q)) (g (result, withBuffer m q))) : Follows m (scan >>= f) (run >>= g) := by
  unfold Follows at *
  rw [eval_bind, ← first]
  cases scan.eval m with
  | error => rfl
  | ok r => exact rest r.1 r.2

end Follows

theorem scanTcp_follows (m : Mem) (p : Packet) (start : Nat) (bytes : Int) (stop : Nat) :
    Follows m (scanTcp p start bytes stop) (parseTcp (withBuffer m p) start bytes stop) := by
  unfold scanTcp parseTcp
  refine .lift (eval_lift m _) fun _ => ?_
  refine .ite (fun _ => .done _) fun _ => ?_
  refine .read (eval_byteAt m _) ?_
  refine .ite (fun _ => .done _) fun _ => ?_
  refine .ite (fun _ => .done _) fun _ => ?_
  refine .append (.done _) fun q i => ?_
  exact .lift (eval_lift m _) fun _ => .done _

theorem scanUdp_follows (m : Mem) (p : Packet) (start : Nat) (bytes : Int) (stop : Nat) :
    Follows m (scanUdp p start bytes stop) (parseUdp (withBuffer m p) start bytes stop) := by
  unfold scanUdp parseUdp
  refine .lift (eval_lift m _) fun _ => ?_
  refine .ite (fun _ => .done _) fun _ => ?_
  refine .read (eval_be16At m _) ?_
  refine .ite (fun _ => .done _) fun _ => ?_
  refine .ite (fun _ => .done _) fun _ => ?_
  refine .ite (fun _ => .done _) fun _ => ?_
  refine .append (.done _) fun q i => ?_
  exact .lift (eval_lift m _) fun _ => .done _

theorem scanIcmp_follows {m : Mem} (type : HeaderType) (truncated : String) {setPtr : Packet → Nat → Packet}
    (kept : ∀ p start, setPtr (withBuffer m p) start = withBuffer m (setPtr p start))
    (p : Packet) (start : Nat) (bytes : Int) (stop : Nat) :
    Follows m (scanIcmp type truncated setPtr p start bytes stop)
      (parseIcmp type truncated setPtr (withBuffer m p) start bytes stop) := by
  unfold scanIcmp parseIcmp
  refine .lift (eval_lift m _) fun _ => ?_
  refine .ite (fun _ => .done _) fun _ => ?_
  rw [kept]
  refine .append (.done _) fun q i => ?_
  exact .lift (eval_lift m _) fun _ => .done _

/-- The scans with `fuel` units follow the parsers with as many. -/
structure ScanFollows (m : Mem) (fuel : Nat) : Prop where
  ipv4 : ∀ p start stop, Follows m (scanIpv4 fuel p start stop) (parseIpv4 fuel (withBuffer m p) start stop)
  ipv6 : ∀ p start stop, Follows m (scanIpv6 fuel p start stop) (parseIpv6 fuel (withBuffer m p) start stop)
  gre : ∀ p start bytes stop,
    Follows m (scanGre fuel p start bytes stop) (parseGre fuel (withBuffer m p) start bytes stop)
  mpls : ∀ p start stop, Follows m (scanMpls fuel p start stop) (parseMpls fuel (withBuffer m p) start stop)
  byProto : ∀ p proto start stop, Follows m (scanLayer3PacketByProto fuel p proto start stop)
    (parseLayer3PacketByProto fuel (withBuffer m p) proto start stop)
  layer3 : ∀ p start stop,
    Follows m (scanLayer3Packet fuel p start stop) (parseLayer3Packet fuel (withBuffer m p) start stop)
  layer4 : ∀ p start proto bytes stop, Follows m (scanLayer4 fuel p start proto bytes stop)
    (parseLayer4 fuel (withBuffer m p) start proto bytes stop)

theorem finish_follows {m : Mem} (result : ParseResult) (setPtr : Packet → Packet)
    (kept : ∀ q, setPtr (withBuffer m q) = withBuffer m (setPtr q)) (outer : Prop) [Decidable outer] (total : Nat)
    {r : Packet} :
    Follows m
      (let q := if r.ipv4 = none ∧ r.ipv6 = none then setPtr r else r
        let q := if outer then { q with ipBytes := total } else q
        pure (result, q))
      (let r := withBuffer m r
        let q := if r.ipv4 = none ∧ r.ipv6 = none then setPtr r else r
        let q := if outer then { q with ipBytes := total } else q
        .ok (result, q)) := by
  have primary : (if (withBuffer m r).ipv4 = none ∧ (withBuffer m r).ipv6 = none then setPtr (withBuffer m r)
      else withBuffer m r) = withBuffer m (if r.ipv4 = none ∧ r.ipv6 = none then setPtr r else r) := by
    by_cases free : r.ipv4 = none ∧ r.ipv6 = none
    · rw [if_pos free, if_pos (show (withBuffer m r).ipv4 = none ∧ (withBuffer m r).ipv6 = none from free), kept]
    · rw [if_neg free, if_neg (show ¬((withBuffer m r).ipv4 = none ∧ (withBuffer m r).ipv6 = none) from free)]
  simp only [primary]
  by_cases first : outer
  · rw [if_pos first, if_pos first]
    exact .done result
  · rw [if_neg first, if_neg first]
    exact .done result

section Recursion

variable {m : Mem} {fuel : Nat} (spec : ScanFollows m fuel) (p : Packet) (start stop : Nat)

include spec

theorem scanIpv4_follows :
    Follows m (scanIpv4 (fuel + 1) p start stop) (parseIpv4 (fuel + 1) (withBuffer m p) start stop) := by
  unfold scanIpv4 parseIpv4
  refine .read (eval_byteAt m _) ?_
  refine .ite (fun _ => .done _) fun _ => ?_
  refine .ite (fun _ => .done _) fun _ => ?_
  refine .read (eval_be16At m _) ?_
  refine .ite (fun _ => .done _) fun _ => ?_
  refine .ite (fun _ => .done _) fun _ => ?_
  refine .read (eval_be16At m _) ?_
  refine .ite (fun _ => .done _) fun _ => ?_
  refine .ite (fun _ => .done _) fun _ => ?_
  refine .read (eval_bytesAt m _ _) ?_
  refine .append (.done _) fun q i => ?_
  refine .lift (eval_lift m _) fun _ => ?_
  refine .read (eval_byteAt m _) ?_
  refine .bind (spec.layer4 _ _ _ _ _) fun result r => ?_
  exact finish_follows result (fun r => { r with ipv4 := some start }) (fun _ => rfl) _ _

theorem scanIpv6_follows :
    Follows m (scanIpv6 (fuel + 1) p start stop) (parseIpv6 (fuel + 1) (withBuffer m p) start stop) := by
  unfold scanIpv6 parseIpv6
  refine .ite (fun _ => .done _) fun _ => ?_
  refine .read (eval_be16At m _) ?_
  refine .ite (fun _ => .done _) fun _ => ?_
  refine .lift (eval_lift m _) fun _ => ?_
  refine .append (.done _) fun q i => ?_
  refine .lift (eval_lift m _) fun _ => ?_
  refine .read (eval_byteAt m _) ?_
  refine .bind (spec.layer4 _ _ _ _ _) fun result r => ?_
  exact finish_follows result (fun r => { r with ipv6 := some start }) (fun _ => rfl) _ _

theorem scanGre_follows (bytes : Int) :
    Follows m (scanGre (fuel + 1) p start bytes stop) (parseGre (fuel + 1) (withBuffer m p) start bytes stop) := by
  unfold scanGre parseGre
  refine .lift (eval_lift m _) fun _ => ?_
  refine .ite (fun _ => .done _) fun _ => ?_
  refine .read (eval_byteAt m _) ?_
  refine .ite (fun _ => .done _) fun _ => ?_
  refine .read (eval_byteAt m _) ?_
  refine .ite (fun _ => .done _) fun _ => ?_
  refine .lift (eval_scanGreLen m _) fun greHeaderLen => ?_
  refine .ite (fun _ => .done _) fun _ => ?_
  refine .ite (fun _ => .done _) fun _ => ?_
  refine .lift (eval_lift m _) fun _ => ?_
  refine .append (.done _) fun q i => ?_
  refine .lift (eval_lift m _) fun _ => ?_
  refine .read (eval_be16At m _) ?_
  exact spec.byProto _ _ _ _

theorem scanMpls_follows :
    Follows m (scanMpls (fuel + 1) p start stop) (parseMpls (fuel + 1) (withBuffer m p) start stop) := by
  unfold scanMpls parseMpls
  refine .read (eval_scanStackEnd m _ _) ?_
  show Follows m _ (match mplsStackEnd m stop start with | none => _ | some inner => _)
  cases mplsStackEnd m stop start with
  | none => exact .done _
  | some inner =>
    refine .lift (eval_lift m _) fun _ => ?_
    refine .append (.done _) fun q i => ?_
    refine .lift (eval_lift m _) fun _ => ?_
    exact spec.layer3 _ _ _

theorem scanLayer3PacketByProto_follows (proto : Nat) : Follows m (scanLayer3PacketByProto (fuel + 1) p proto start stop)
    (parseLayer3PacketByProto (fuel + 1) (withBuffer m p) proto start stop) := by
  unfold scanLayer3PacketByProto parseLayer3PacketByProto
  refine .ite (fun _ => ?_) fun _ => .ite (fun _ => ?_) fun _ => .ite (fun _ => spec.mpls _ _ _) fun _ => .done _
  · refine .ite (fun _ => .done _) fun _ => .read (eval_byteAt m _) ?_
    exact .ite (fun _ => spec.ipv4 _ _ _) fun _ => .done _
  · refine .ite (fun _ => .done _) fun _ => .read (eval_byteAt m _) ?_
    exact .ite (fun _ => spec.ipv6 _ _ _) fun _ => .done _

theorem scanLayer3Packet_follows :
    Follows m (scanLayer3Packet (fuel + 1) p start stop) (parseLayer3Packet (fuel + 1) (withBuffer m p) start stop) := by
  unfold scanLayer3Packet parseLayer3Packet
  refine .ite (fun _ => .done _) fun _ => .read (eval_byteAt m _) ?_
  exact .ite (fun _ => spec.ipv4 _ _ _) fun _ => .ite (fun _ => spec.ipv6 _ _ _) fun _ => .done _

theorem scanLayer4_follows (proto : Nat) (bytes : Int) : Follows m (scanLayer4 (fuel + 1) p start proto bytes stop)
    (parseLayer4 (fuel + 1) (withBuffer m p) start proto bytes stop) := by
  unfold scanLayer4 parseLayer4
  refine .ite (fun _ => scanTcp_follows m p start bytes stop) fun _ => ?_
  refine .ite (fun _ => scanUdp_follows m p start bytes stop) fun _ => ?_
  refine .ite (fun _ => scanIcmp_follows _ _ (fun _ _ => rfl) p start bytes stop) fun _ => ?_
  refine .ite (fun _ => scanIcmp_follows _ _ (fun _ _ => rfl) p start bytes stop) fun _ => ?_
  refine .ite (fun _ => spec.gre _ _ _ _) fun _ => ?_
  refine .ite (fun _ => spec.ipv4 _ _ _) fun _ => ?_
  exact .ite (fun _ => spec.ipv6 _ _ _) fun _ => .done _

end Recursion

theorem scanFollows (m : Mem) (fuel : Nat) : ScanFollows m fuel := by
  induction fuel with
  | zero =>
    constructor <;> intros <;>
      simp only [scanIpv4, parseIpv4, scanIpv6, parseIpv6, scanGre, parseGre, scanMpls, parseMpls,
        scanLayer3PacketByProto, parseLayer3PacketByProto, scanLayer3Packet, parseLayer3Packet, scanLayer4,
        parseLayer4] <;>
      exact .fail _
  | succ fuel spec =>
    exact ⟨scanIpv4_follows spec, scanIpv6_follows spec, fun p start bytes stop => scanGre_follows spec p start stop bytes,
      scanMpls_follows spec, fun p proto start stop => scanLayer3PacketByProto_follows spec p start stop proto,
      scanLayer3Packet_follows spec, fun p start proto bytes stop => scanLayer4_follows spec p start stop proto bytes⟩

theorem scanFromLayer_follows (m : Mem) (layer : PacketLayer) (fuel : Nat) (p : Packet) (stop : Nat) :
    Follows m (scanFromLayer layer fuel p stop) (parseFromLayer layer fuel (withBuffer m p) stop) := by
  have spec := scanFollows m fuel
  cases layer with
  | layer2Ethernet =>
    refine .ite (fun _ => .done _) fun _ => .read (eval_be16At m _) ?_
    exact spec.byProto _ _ _ _
  | layer3Ip => exact spec.layer3 _ _ _

theorem hexDump_congr {m m' : Mem} {n : Nat} (same : ∀ i < n, m' i = m i) : hexDump m' n = hexDump m n := by
  unfold hexDump
  congr 2
  refine List.map_congr_left fun i member => ?_
  simp only [hexDumpByte, get8, same i (List.mem_range.mp member)]

theorem ofList_bytes (m : Mem) {n i : Nat} (inside : i < n) : ofList (m.bytes 0 n) i = m i := by
  simp [ofList, bytes, List.getD_eq_getElem?_getD, inside]

theorem scanPacket_follows (m : Mem) (p : Packet) (inBytes : Nat) (layer : PacketLayer) :
    Follows m (scanPacket p inBytes layer) (parsePacket (withBuffer m p) inBytes layer) := by
  unfold scanPacket parsePacket
  refine .lift (eval_lift m _) fun _ => ?_
  refine .bind (scanFromLayer_follows m layer _ p inBytes) fun result q => ?_
  cases result with
  | bad message =>
    refine .read (eval_bytesAt m _ _) ?_
    rw [hexDump_congr fun i inside => ofList_bytes m inside]
    exact .done _
  | ok => exact .done _
  | unknownL4 => exact .done _

end TcpFuzz
