import TcpFuzz.Packet.InternetChecksum
import TcpFuzz.Packet.Lengths

/-! `checksum_packet` on the packets that the parser accepts: the checksums that it fills in verify, and nothing
else is stored. -/

namespace TcpFuzz
open Bytes Mem EndAroundCarry

variable {m : Mem} {stop pos bufferBytes inBytes : Nat} {last : Extent} {layer : PacketLayer} {q : Packet}

/-- The innermost IP header of a packet with the transport header behind it. -/
inductive InnerIp (m : Mem) (stop : Nat) : Extent → Extent → Prop where
  | ipv4 {p last} (header : Ipv4Header m stop p)
      (next : Wire m stop (.layer4 (ipv4Protocol m p) (ipv4TotLen m p - ipv4HeaderLen m p)) (p + ipv4HeaderLen m p) [last]) :
      InnerIp m stop ⟨.ipv4, p, ipv4HeaderLen m p, ipv4TotLen m p⟩ last
  | ipv6 {p last} (header : Ipv6Header m stop p)
      (next : Wire m stop (.layer4 (ipv6NextHeader m p) (ipv6PayloadLen m p)) (p + 40) [last]) :
      InnerIp m stop ⟨.ipv6, p, 40, 40 + ipv6PayloadLen m p⟩ last

/-- The headers end with an IP header and a transport header, or there is only the transport header. -/
def EndsInner (m : Mem) (stop : Nat) (es : List Extent) : Prop :=
  (∃ last, es = [last] ∧ last.type.IsTransport) ∨
    ∃ ip last, lastIp es = some ip ∧ es.getLast? = some last ∧ InnerIp m stop ip last

theorem EndsInner.around {e : Extent} {es : List Extent} (inner : EndsInner m stop es)
    (only : ∀ last, es = [last] → e.type.IsIp ∧ InnerIp m stop e last) : EndsInner m stop (e :: es) := by
  rcases inner with ⟨last, rfl, transport⟩ | ⟨ip, last, foundIp, foundLast, innerIp⟩
  · obtain ⟨isIp, innerIp⟩ := only last rfl
    refine .inr ⟨e, last, ?_, rfl, innerIp⟩
    rw [lastIp_cons, if_pos isIp]
    simp [lastIp, transport.not_isIp]
  · refine .inr ⟨ip, last, by rw [lastIp_cons, foundIp, Option.some_or], ?_, innerIp⟩
    cases es with
    | nil => cases foundLast
    | cons d ds => rw [List.getLast?_cons_cons, foundLast]

theorem Wire.single {x : Expect} (wire : Wire m stop x pos [last])
    (above : ∀ proto bytes, x ≠ .layer4 proto bytes) : False := by
  have two := (wire.network above).1
  simp at two

theorem Wire.endsInner {x : Expect} {es : List Extent} (wire : Wire m stop x pos es) :
    EndsInner m stop es := by
  induction wire with
  | ipv4 header next ih =>
    apply ih.around
    rintro last rfl
    exact ⟨.inl rfl, .ipv4 header next⟩
  | ipv6 header next ih =>
    apply ih.around
    rintro last rfl
    exact ⟨.inr rfl, .ipv6 header next⟩
  | mpls _ next ih | gre _ next ih =>
    apply ih.around
    rintro last rfl
    exact (next.single (by simp)).elim
  | tcp => exact .inl ⟨_, rfl, .inl rfl⟩
  | udp => exact .inl ⟨_, rfl, .inr (.inl rfl)⟩
  | icmpv4 => exact .inl ⟨_, rfl, .inr (.inr (.inl rfl))⟩
  | icmpv6 => exact .inl ⟨_, rfl, .inr (.inr (.inr rfl))⟩
  | layer3Ipv4 _ _ _ ih | layer3Ipv6 _ _ ih | etherIpv4 _ _ _ ih | etherIpv6 _ _ ih | etherMpls _ _ ih
  | ipip _ ih | ip6 _ ih => exact ih

/-- What the pointers of a packet say about its innermost headers. -/
structure Innermost (q : Packet) (stop : Nat) (ip last : Extent) : Prop where
  inner : InnerIp q.buffer stop ip last
  ipv4 : q.ipv4 = if ip.type = .ipv4 then some ip.start else none
  ipv6 : q.ipv6 = if ip.type = .ipv6 then some ip.start else none
  tcp : q.tcp = if last.type = .tcp then some last.start else none
  udp : q.udp = if last.type = .udp then some last.start else none
  icmpv4 : q.icmpv4 = if last.type = .icmpv4 then some last.start else none
  icmpv6 : q.icmpv6 = if last.type = .icmpv6 then some last.start else none

theorem accepted_innermost
    (buffered : inBytes ≤ bufferBytes) (accepted : parsePacket (packetNew m bufferBytes) inBytes layer = .ok (.ok, q)) :
    q.buffer = m ∧ ∃ ip last, Innermost q inBytes ip last := by
  have fresh := packetNew_fresh m bufferBytes
  obtain ⟨es, wire, fits, rfl⟩ := (parsePacket_ok_iff fresh buffered).mp accepted
  have data := recorded_metadata fresh ⟨rfl, rfl, rfl, rfl, rfl, rfl⟩ wire fits
  have buffer : (recorded layer (packetNew m bufferBytes) es).buffer = m := (parsed_frame wire.2.nested).1
  refine ⟨buffer, ?_⟩
  rcases wire.2.endsInner with ⟨last, rfl, _⟩ | ⟨ip, last, foundIp, foundLast, inner⟩
  · have two := data.atLeastTwo
    simp at two
  · obtain ⟨last', foundLast', _, tcp, udp, icmpv4, icmpv6⟩ := data.transport
    obtain ⟨ip', foundIp', family⟩ := data.network
    obtain rfl : last' = last := Option.some.inj (foundLast'.symm.trans foundLast)
    obtain rfl : ip' = ip := Option.some.inj (foundIp'.symm.trans foundIp)
    refine ⟨ip', last', by rw [buffer]; exact inner, ?_, ?_, tcp, udp, icmpv4, icmpv6⟩
    · rcases family with ⟨type, some, none⟩ | ⟨type, some, none⟩
      · rw [some, if_pos type]
      · rw [none, if_neg (by simp [type])]
    · rcases family with ⟨type, some, none⟩ | ⟨type, some, none⟩
      · rw [none, if_neg (by simp [type])]
      · rw [some, if_pos type]

/-- What is summed up before a block of bytes, and the bytes that it stands for. They are read between
two offsets. -/
structure PseudoHeader (start stop : Nat) where
  sum : Mem → Nat
  bytes : Mem → List UInt8
  even : ∀ m, (bytes m).length % 2 = 0
  bound : ∀ m, sum m < 2 ^ 36
  totals : ∀ m, Totals (sum m) (bigEndianWords (bytes m))
  sum_congr : ∀ m m', (∀ j, start ≤ j → j < stop → m'.get8 j = m.get8 j) → sum m' = sum m
  bytes_congr : ∀ m m', (∀ j, start ≤ j → j < stop → m'.get8 j = m.get8 j) → bytes m' = bytes m

namespace PseudoHeader

def none : PseudoHeader 0 0 where
  sum _ := 0
  bytes _ := []
  even _ := rfl
  bound _ := by decide
  totals _ := .nil
  sum_congr _ _ _ := rfl
  bytes_congr _ _ _ := rfl

def ipv4 (ip : Nat) (protocol : UInt8) (len : UInt16) : PseudoHeader (ip + 12) (ip + 20) where
  sum m := tcpUdpV4HeaderChecksumPartial m ip protocol.toNat len.toNat
  bytes m := ipv4PseudoHeader (m.bytes (ip + 12) 4) (m.bytes (ip + 16) 4) protocol len
  even m := by simp [ipv4PseudoHeader, be16Bytes]
  bound m := (header_totals (by decide) (tcpUdpV4Header_bytes m ip protocol len)).2
  totals m := (header_totals (by decide) (tcpUdpV4Header_bytes m ip protocol len)).1
  sum_congr m m' same := tcpUdpV4HeaderChecksumPartial_congr same
  bytes_congr m m' same := by
    have src : m'.bytes (ip + 12) 4 = m.bytes (ip + 12) 4 := bytes_of_get8 fun j _ _ => same j (by omega) (by omega)
    have dst : m'.bytes (ip + 16) 4 = m.bytes (ip + 16) 4 := bytes_of_get8 fun j _ _ => same j (by omega) (by omega)
    rw [src, dst]

def ipv6 (ip : Nat) (nextHeader : UInt8) (len : UInt32) : PseudoHeader (ip + 8) (ip + 40) where
  sum m := tcpUdpV6HeaderChecksumPartial m ip nextHeader.toNat len.toNat
  bytes m := ipv6PseudoHeader (m.bytes (ip + 8) 16) (m.bytes (ip + 24) 16) nextHeader len
  even m := by simp [ipv6PseudoHeader]
  bound m := (header_totals (by decide) (tcpUdpV6Header_bytes m ip nextHeader len)).2
  totals m := (header_totals (by decide) (tcpUdpV6Header_bytes m ip nextHeader len)).1
  sum_congr m m' same := by
    have addresses : m'.bytes (ip + 8) 32 = m.bytes (ip + 8) 32 := bytes_of_get8 fun j _ _ => same j (by omega) (by omega)
    simp only [tcpUdpV6HeaderChecksumPartial, addresses]
  bytes_congr m m' same := by
    have src : m'.bytes (ip + 8) 16 = m.bytes (ip + 8) 16 := bytes_of_get8 fun j _ _ => same j (by omega) (by omega)
    have dst : m'.bytes (ip + 24) 16 = m.bytes (ip + 24) 16 := bytes_of_get8 fun j _ _ => same j (by omega) (by omega)
    rw [src, dst]

variable {start stop : Nat} (header : PseudoHeader start stop)

def checksum (l4 len : Nat) (m : Mem) : Nat := ipChecksumFold (ipChecksumPartial m l4 len (header.sum m))

def covered (l4 len : Nat) (m : Mem) : List UInt8 := header.bytes m ++ m.bytes l4 len

variable {m : Mem} {l4 len k : Nat}

theorem words (short : len < 2 ^ 16) :
    Totals (ipChecksumPartial m l4 len (header.sum m)) (bigEndianWords (header.covered l4 len m)) := by
  have bound := header.bound m
  have whole : Totals (ipChecksumPartial m l4 len (header.sum m)) _ := (header.totals m).block (by omega)
  rwa [← bigEndianWords_append (header.even m)] at whole

theorem checksum_eq (short : len < 2 ^ 16) : ntohs (header.checksum l4 len m) = internetChecksum (header.covered l4 len m) :=
  (header.words short).checksum

theorem fill_verifies (behind : stop ≤ l4 + 2 * k) (inside : 2 * k + 2 ≤ len) (short : len < 2 ^ 16) :
    internetChecksum (header.covered l4 len (fillCheck m (l4 + 2 * k) (header.checksum l4 len))) = 0 := by
  have bound := header.bound m
  have filled : header.sum (fillCheck m (l4 + 2 * k) (header.checksum l4 len)) = header.sum m :=
    header.sum_congr _ _ fun j _ _ => get8_fillCheck_ne m _ (.inl (by omega))
  have cleared : header.sum (m.putLe16 (l4 + 2 * k) 0) = header.sum m :=
    header.sum_congr _ _ fun j _ _ => get8_putLe16_ne m _ (.inl (by omega))
  have zero : header.checksum l4 len (fillCheck m (l4 + 2 * k) (header.checksum l4 len)) = 0 := by
    rw [checksum, filled]
    apply fillCheck_verifies inside (by omega)
    rw [checksum, cleared]
  rw [← header.checksum_eq short, zero]
  rfl

theorem ipv4_positive (ip : Nat) {protocol : UInt8} (len : UInt16) (protocolPos : 0 < protocol.toNat) (m : Mem) :
    0 < (bigEndianWords ((ipv4 ip protocol len).bytes m)).sum := by
  simp only [ipv4, ipv4PseudoHeader]
  rw [bigEndianWords_append (by simp), bigEndianWords_append (by simp), bigEndianWords, List.sum_append, List.sum_append,
    List.sum_cons]
  omega

theorem ipv6_positive (ip : Nat) {nextHeader : UInt8} (len : UInt32) (nextPos : 0 < nextHeader.toNat) (m : Mem) :
    0 < (bigEndianWords ((ipv6 ip nextHeader len).bytes m)).sum := by
  have last : (bigEndianWords [0, 0, 0, nextHeader]).sum = nextHeader.toNat := by simp [bigEndianWords]
  simp only [ipv6, ipv6PseudoHeader]
  rw [bigEndianWords_append (by simp), bigEndianWords_append (by simp), bigEndianWords_append (by simp),
    List.sum_append, List.sum_append, List.sum_append, last]
  omega

theorem checksum_ne_zero (short : len < 2 ^ 16) (positive : 0 < (bigEndianWords (header.bytes m)).sum) :
    internetChecksum (header.covered l4 len m) ≠ 0 ↔ ¬0xffff ∣ (bigEndianWords (header.covered l4 len m)).sum := by
  have words : Totals (ipChecksumPartial m l4 len (header.sum m)) _ := header.words short
  have whole : 0 < (bigEndianWords (header.covered l4 len m)).sum := by
    rw [covered, bigEndianWords_append (header.even m), List.sum_append]
    omega
  have largest : total 0x10000 (bigEndianWords (header.covered l4 len m)) = 0xffff ↔ _ :=
    total_eq_largest (by decide) words.small whole
  have below : total 0x10000 (bigEndianWords (header.covered l4 len m)) < 0x10000 :=
    (foldl_add (by decide) words.small (by decide)).1
  rw [internetChecksum, Ne, not_iff_not, ← largest]
  omega

end PseudoHeader

def layer4Covered (p : Packet) : Option (List UInt8) :=
  match p.ipv4, p.ipv6 with
  | some ip, _ =>
    let len := ipv4TotLen p.buffer ip - ipv4HeaderLen p.buffer ip
    match p.tcp, p.udp, p.icmpv4 with
    | some tcp, _, _ => some ((PseudoHeader.ipv4 ip 6 (UInt16.ofNat len)).covered tcp len p.buffer)
    | none, some udp, _ => some ((PseudoHeader.ipv4 ip 17 (UInt16.ofNat len)).covered udp len p.buffer)
    | none, none, some icmp => some (PseudoHeader.none.covered icmp len p.buffer)
    | none, none, none => none
  | none, some ip =>
    let len := ipv6PayloadLen p.buffer ip
    match p.tcp, p.udp, p.icmpv6 with
    | some tcp, _, _ => some ((PseudoHeader.ipv6 ip 6 (UInt32.ofNat len)).covered tcp len p.buffer)
    | none, some udp, _ => some ((PseudoHeader.ipv6 ip 17 (UInt32.ofNat len)).covered udp len p.buffer)
    | none, none, some icmp => some ((PseudoHeader.ipv6 ip 58 (UInt32.ofNat len)).covered icmp len p.buffer)
    | none, none, none => none
  | none, none => none

def datagramBytes (p : Packet) : Nat :=
  match p.ipv4, p.ipv6 with
  | some ip, _ => ipv4TotLen p.buffer ip
  | none, some ip => 40 + ipv6PayloadLen p.buffer ip
  | none, none => 0

/-- ICMP over the IP version that it belongs to. -/
def Supported (p : Packet) : Prop := (p.icmpv4.isSome → p.ipv4.isSome) ∧ (p.icmpv6.isSome → p.ipv6.isSome)

def checkWord (type : HeaderType) : Nat :=
  match type with
  | .tcp => 8
  | .udp => 3
  | _ => 1

def checksumFields (p : Packet) : List Nat :=
  (p.ipv4.map (· + 10)).toList ++ (p.tcp.map (· + 16)).toList ++ (p.udp.map (· + 6)).toList ++
    (p.icmpv4.map (· + 2)).toList ++ (p.icmpv6.map (· + 2)).toList

def headerFilled (p : Packet) : Mem :=
  match p.ipv4 with
  | some ip => setIpv4Check p.buffer ip
  | none => p.buffer

/-- What the transport checksum of a packet covers, and that it is filled in. -/
structure Layer4Check (q : Packet) (ip last : Extent) {start stop : Nat} (header : PseudoHeader start stop) (len : Nat) : Prop where
  behind : stop ≤ last.start + 2 * checkWord last.type
  inside : 2 * checkWord last.type + 2 ≤ len
  short : len < 2 ^ 16
  apart : ip.start + 12 ≤ start ∨ q.ipv4 = none ∨ stop = 0
  positive : last.type = .udp → ∀ m, 0 < (bigEndianWords (header.bytes m)).sum
  filled : checksumPacket q = .ok { q with
    buffer := fillCheck (headerFilled q) (last.start + 2 * checkWord last.type) (header.checksum last.start len) }
  covers : ∀ m, (∀ j, ip.start ≤ j → j < ip.start + 10 → m.get8 j = q.buffer.get8 j) →
    layer4Covered { q with buffer := m } = some (header.covered last.start len m)

theorem Wire.transport {proto bytes : Nat}
    (wire : Wire m stop (.layer4 proto bytes) pos [last]) :
    last.start = pos ∧ (last.type = .tcp ∧ 20 ≤ bytes ∨ last.type = .udp ∧ 8 ≤ bytes ∨ last.type = .icmpv4 ∧ 8 ≤ bytes ∨
      last.type = .icmpv6 ∧ 8 ≤ bytes) := by
  generalize expected : Expect.layer4 proto bytes = x at wire
  cases wire with
  | tcp header =>
    cases expected
    have long := header.long
    have contained := header.contained
    exact ⟨rfl, .inl ⟨rfl, by omega⟩⟩
  | udp header =>
    cases expected
    exact ⟨rfl, .inr (.inl ⟨rfl, header.long⟩)⟩
  | icmpv4 long =>
    cases expected
    exact ⟨rfl, .inr (.inr (.inl ⟨rfl, long⟩))⟩
  | icmpv6 long =>
    cases expected
    exact ⟨rfl, .inr (.inr (.inr ⟨rfl, long⟩))⟩
  | gre _ next => exact (next.ne_nil rfl).elim
  | ipip next => exact (next.single (by simp)).elim
  | ip6 next => exact (next.single (by simp)).elim
  | _ => cases expected

section Fill

variable {q : Packet} {ip : Nat}

theorem checksumPacket_ipv4 (ptr : q.ipv4 = some ip) (long : ipv4TotLen q.buffer ip ≤ q.ipBytes)
    (more : ipv4HeaderLen q.buffer ip < ipv4TotLen q.buffer ip) :
    checksumPacket q = checksumLayer4 { q with buffer := setIpv4Check q.buffer ip } q.icmpv4
      (fun protocol l4 m => tcpUdpV4Checksum m ip protocol l4 (ipv4TotLen q.buffer ip - ipv4HeaderLen q.buffer ip))
      fun icmp m => ipv4Checksum m icmp (ipv4TotLen q.buffer ip - ipv4HeaderLen q.buffer ip) := by
  have totLen : ipv4TotLen (setIpv4Check q.buffer ip) ip = ipv4TotLen q.buffer ip :=
    be16_of_get8 (setIpv4Check_frame _ (by omega)) (setIpv4Check_frame _ (by omega))
  have headerLen : ipv4HeaderLen (setIpv4Check q.buffer ip) ip = ipv4HeaderLen q.buffer ip := by
    rw [ipv4HeaderLen, setIpv4Check_frame _ (by omega), ipv4HeaderLen]
  simp only [checksumPacket, ptr, checksumIpv4Packet, totLen, headerLen, assertThat_ok long, ok_bind]
  rw [if_neg (by omega)]

theorem checksumPacket_ipv6 (noIpv4 : q.ipv4 = none) (ptr : q.ipv6 = some ip) (long : 40 + ipv6PayloadLen q.buffer ip ≤ q.ipBytes)
    (more : 0 < ipv6PayloadLen q.buffer ip) :
    checksumPacket q = checksumLayer4 q q.icmpv6
      (fun protocol l4 m => tcpUdpV6Checksum m ip protocol l4 (ipv6PayloadLen q.buffer ip))
      fun icmp m => tcpUdpV6Checksum m ip 58 icmp (ipv6PayloadLen q.buffer ip) := by
  simp only [checksumPacket, noIpv4, ptr, checksumIpv6Packet, assertThat_ok long, assertThat_ok more, ok_bind]

theorem tcpUdpV4Checksum_eq (protocol : UInt8) (l4 : Nat) {len : Nat} (short : len < 2 ^ 16) :
    (fun m => tcpUdpV4Checksum m ip protocol.toNat l4 len) = (PseudoHeader.ipv4 ip protocol (UInt16.ofNat len)).checksum l4 len := by
  have toNat : (UInt16.ofNat len).toNat = len := UInt16.toNat_ofNat_of_lt' short
  funext m
  simp only [PseudoHeader.checksum, PseudoHeader.ipv4, toNat]
  rfl

theorem tcpUdpV6Checksum_eq (nextHeader : UInt8) (l4 : Nat) {len : Nat} (short : len < 2 ^ 16) :
    (fun m => tcpUdpV6Checksum m ip nextHeader.toNat l4 len) = (PseudoHeader.ipv6 ip nextHeader (UInt32.ofNat len)).checksum l4 len := by
  have toNat : (UInt32.ofNat len).toNat = len := UInt32.toNat_ofNat_of_lt' (Nat.lt_trans short (by decide))
  funext m
  simp only [PseudoHeader.checksum, PseudoHeader.ipv6, toNat]
  rfl

section Layer4

variable {icmp : Option Nat} {check : Nat → Nat → Mem → Nat} {icmpCheck : Nat → Mem → Nat} {l4 : Nat}

theorem checksumLayer4_tcp (tcp : q.tcp = some l4) :
    checksumLayer4 q icmp check icmpCheck = .ok { q with buffer := fillCheck q.buffer (l4 + 16) (check 6 l4) } := by
  simp only [checksumLayer4, tcp]

theorem checksumLayer4_udp (noTcp : q.tcp = none) (udp : q.udp = some l4) :
    checksumLayer4 q icmp check icmpCheck = .ok { q with buffer := fillCheck q.buffer (l4 + 6) (check 17 l4) } := by
  simp only [checksumLayer4, noTcp, udp]

theorem checksumLayer4_icmp (noTcp : q.tcp = none) (noUdp : q.udp = none) (found : icmp = some l4) :
    checksumLayer4 q icmp check icmpCheck = .ok { q with buffer := fillCheck q.buffer (l4 + 2) (icmpCheck l4) } := by
  simp only [checksumLayer4, noTcp, noUdp, found]

end Layer4

theorem ipv4Lengths_congr {m' : Mem} (same : ∀ j, ip ≤ j → j < ip + 10 → m'.get8 j = m.get8 j) :
    ipv4TotLen m' ip = ipv4TotLen m ip ∧ ipv4HeaderLen m' ip = ipv4HeaderLen m ip := by
  refine ⟨be16_of_get8 (same _ (by omega) (by omega)) (same _ (by omega) (by omega)), ?_⟩
  rw [ipv4HeaderLen, same _ (by omega) (by omega), ipv4HeaderLen]

end Fill

theorem Innermost.layer4Check {ip : Extent} (innermost : Innermost q inBytes ip last)
    (supported : Supported q) (long : datagramBytes q ≤ q.ipBytes) :
    ∃ start stop len, ∃ header : PseudoHeader start stop, Layer4Check q ip last header len := by
  obtain ⟨inner, ipv4, ipv6, tcp, udp, icmpv4, icmpv6⟩ := innermost
  cases inner with
  | @ipv4 p last header next =>
    have ptr : q.ipv4 = some p := ipv4.trans (if_pos rfl)
    obtain ⟨start, kinds⟩ := next.transport
    have headerLong := header.long
    have contained := header.contained
    have totLen : ipv4TotLen q.buffer p < 65536 := be16_lt q.buffer (p + 2)
    have short : ipv4TotLen q.buffer p - ipv4HeaderLen q.buffer p < 2 ^ 16 := by omega
    rw [datagramBytes, ptr] at long
    have filled := checksumPacket_ipv4 ptr long (by omega)
    have stored : headerFilled q = setIpv4Check q.buffer p := by rw [headerFilled, ptr]
    rcases kinds with ⟨type, bytes⟩ | ⟨type, bytes⟩ | ⟨type, bytes⟩ | ⟨type, bytes⟩
    · rw [type, if_pos rfl] at tcp
      refine ⟨_, _, _, .ipv4 p 6 (UInt16.ofNat (ipv4TotLen q.buffer p - ipv4HeaderLen q.buffer p)), ?_, ?_, short, .inl (Nat.le_refl _),
        fun _ => PseudoHeader.ipv4_positive _ _ (by decide), ?_, ?_⟩
      · simp only [type, checkWord]; omega
      · simp only [type, checkWord]; omega
      · rw [← tcpUdpV4Checksum_eq 6 _ short, stored, type]
        exact filled.trans (checksumLayer4_tcp tcp)
      · intro m same
        obtain ⟨total, headerLen⟩ := ipv4Lengths_congr same
        simp only [layer4Covered, ptr, tcp, total, headerLen]
    · rw [type, if_neg (by simp)] at tcp
      rw [type, if_pos rfl] at udp
      refine ⟨_, _, _, .ipv4 p 17 (UInt16.ofNat (ipv4TotLen q.buffer p - ipv4HeaderLen q.buffer p)), ?_, ?_, short, .inl (Nat.le_refl _),
        fun _ => PseudoHeader.ipv4_positive _ _ (by decide), ?_, ?_⟩
      · simp only [type, checkWord]; omega
      · simp only [type, checkWord]; omega
      · rw [← tcpUdpV4Checksum_eq 17 _ short, stored, type]
        exact filled.trans (checksumLayer4_udp tcp udp)
      · intro m same
        obtain ⟨total, headerLen⟩ := ipv4Lengths_congr same
        simp only [layer4Covered, ptr, tcp, udp, total, headerLen]
    · rw [type, if_neg (by simp)] at tcp udp
      rw [type, if_pos rfl] at icmpv4
      refine ⟨_, _, _, .none, Nat.zero_le _, ?_, short, .inr (.inr rfl), fun other => by simp [type] at other, ?_, ?_⟩
      · simp only [type, checkWord]; omega
      · rw [stored, type]
        exact filled.trans (checksumLayer4_icmp tcp udp icmpv4)
      · intro m same
        obtain ⟨total, headerLen⟩ := ipv4Lengths_congr same
        simp only [layer4Covered, ptr, tcp, udp, icmpv4, total, headerLen]
    · -- ICMPv6 over IPv4
      rw [type, if_pos rfl] at icmpv6
      have version := supported.2 (by rw [icmpv6]; rfl)
      rw [ipv6] at version
      cases version
  | @ipv6 p last header next =>
    have noIpv4 : q.ipv4 = none := ipv4.trans (if_neg (by simp))
    have ptr : q.ipv6 = some p := ipv6.trans (if_pos rfl)
    obtain ⟨start, kinds⟩ := next.transport
    have short : ipv6PayloadLen q.buffer p < 2 ^ 16 := be16_lt q.buffer (p + 4)
    rw [datagramBytes, noIpv4, ptr] at long
    have filled := checksumPacket_ipv6 noIpv4 ptr long (by omega)
    have stored : headerFilled q = q.buffer := by rw [headerFilled, noIpv4]
    have length {m : Mem} (same : ∀ j, p ≤ j → j < p + 10 → m.get8 j = q.buffer.get8 j) :
        ipv6PayloadLen m p = ipv6PayloadLen q.buffer p :=
      be16_of_get8 (same _ (by omega) (by omega)) (same _ (by omega) (by omega))
    rcases kinds with ⟨type, bytes⟩ | ⟨type, bytes⟩ | ⟨type, bytes⟩ | ⟨type, bytes⟩
    · rw [type, if_pos rfl] at tcp
      refine ⟨_, _, _, .ipv6 p 6 (UInt32.ofNat (ipv6PayloadLen q.buffer p)), ?_, ?_, short, .inr (.inl noIpv4),
        fun _ => PseudoHeader.ipv6_positive _ _ (by decide), ?_, ?_⟩
      · simp only [type, checkWord]; omega
      · simp only [type, checkWord]; omega
      · rw [← tcpUdpV6Checksum_eq 6 _ short, stored, type]
        exact filled.trans (checksumLayer4_tcp tcp)
      · intro m same
        simp only [layer4Covered, noIpv4, ptr, tcp, length same]
    · rw [type, if_neg (by simp)] at tcp
      rw [type, if_pos rfl] at udp
      refine ⟨_, _, _, .ipv6 p 17 (UInt32.ofNat (ipv6PayloadLen q.buffer p)), ?_, ?_, short, .inr (.inl noIpv4),
        fun _ => PseudoHeader.ipv6_positive _ _ (by decide), ?_, ?_⟩
      · simp only [type, checkWord]; omega
      · simp only [type, checkWord]; omega
      · rw [← tcpUdpV6Checksum_eq 17 _ short, stored, type]
        exact filled.trans (checksumLayer4_udp tcp udp)
      · intro m same
        simp only [layer4Covered, noIpv4, ptr, tcp, udp, length same]
    · -- ICMPv4 over IPv6
      rw [type, if_pos rfl] at icmpv4
      have version := supported.1 (by rw [icmpv4]; rfl)
      rw [noIpv4] at version
      cases version
    · rw [type, if_neg (by simp)] at tcp udp
      rw [type, if_pos rfl] at icmpv6
      refine ⟨_, _, _, .ipv6 p 58 (UInt32.ofNat (ipv6PayloadLen q.buffer p)), ?_, ?_, short, .inr (.inl noIpv4),
        fun _ => PseudoHeader.ipv6_positive _ _ (by decide), ?_, ?_⟩
      · simp only [type, checkWord]; omega
      · simp only [type, checkWord]; omega
      · rw [← tcpUdpV6Checksum_eq 58 _ short, stored, type]
        exact filled.trans (checksumLayer4_icmp tcp udp icmpv6)
      · intro m same
        simp only [layer4Covered, noIpv4, ptr, tcp, udp, icmpv6, length same]

section Accepted

variable {q : Packet} {inBytes : Nat} {ip last : Extent}

theorem Innermost.field (innermost : Innermost q inBytes ip last) : last.start + 2 * checkWord last.type ∈ checksumFields q := by
  have type : last.type.IsTransport := by
    cases innermost.inner with
    | ipv4 _ next => exact next.nested.last.elim fun e found => by cases found.1; exact found.2
    | ipv6 _ next => exact next.nested.last.elim fun e found => by cases found.1; exact found.2
  simp only [checksumFields, innermost.tcp, innermost.udp, innermost.icmpv4, innermost.icmpv6]
  rcases type with type | type | type | type <;> simp [type, checkWord]

theorem headerFilled_get8 {j : Nat} (apart : ∀ field ∈ checksumFields q, j < field ∨ field + 1 < j) :
    (headerFilled q).get8 j = q.buffer.get8 j := by
  unfold headerFilled
  cases ptr : q.ipv4 with
  | none => rfl
  | some ip =>
    have member : ip + 10 ∈ checksumFields q := by simp [checksumFields, ptr]
    have outside := apart _ member
    exact setIpv4Check_frame _ (by omega)

theorem Innermost.behind (innermost : Innermost q inBytes ip last) : last.start = ip.start + ip.headerBytes := by
  cases innermost.inner with
  | ipv4 _ next => exact next.transport.1
  | ipv6 _ next => exact next.transport.1

theorem Innermost.headerBytes (innermost : Innermost q inBytes ip last) : 20 ≤ ip.headerBytes := by
  cases innermost.inner with
  | ipv4 header _ => exact header.long
  | ipv6 header _ => exact (by decide : 20 ≤ 40)

theorem Innermost.fields_behind (innermost : Innermost q inBytes ip last) : ∀ field ∈ checksumFields q, ip.start + 10 ≤ field := by
  have behind := innermost.behind
  have long := innermost.headerBytes
  intro field member
  simp only [checksumFields, innermost.ipv4, innermost.tcp, innermost.udp, innermost.icmpv4, innermost.icmpv6, List.mem_append,
    Option.mem_toList, Option.map_eq_some_iff, Option.ite_none_right_eq_some, Option.some.injEq] at member
  omega

theorem Innermost.ipv4Ptr (innermost : Innermost q inBytes ip last) {p : Nat} (ptr : q.ipv4 = some p) :
    p = ip.start ∧ ip.headerBytes = ipv4HeaderLen q.buffer p := by
  rw [innermost.ipv4] at ptr
  cases innermost.inner with
  | ipv4 => cases ptr; exact ⟨rfl, rfl⟩
  | ipv6 => cases ptr

theorem setIpv4Check_internetChecksum {ip : Nat} (long : 20 ≤ ipv4HeaderLen m ip) :
    internetChecksum ((setIpv4Check m ip).bytes ip (ipv4HeaderLen m ip)) = 0 := by
  have bound : ipv4HeaderLen m ip < 2 ^ 16 := by
    have := get8_lt m ip
    unfold ipv4HeaderLen
    omega
  have cleared : ipv4HeaderLen (m.putLe16 (ip + 10) 0) ip = ipv4HeaderLen m ip := by
    rw [ipv4HeaderLen, get8_putLe16_ne _ _ (by omega), ipv4HeaderLen]
  have stored : setIpv4Check m ip = fillCheck m (ip + 2 * 5) (PseudoHeader.none.checksum ip (ipv4HeaderLen m ip)) := by
    simp only [setIpv4Check, cleared]
    rfl
  rw [stored]
  exact PseudoHeader.none.fill_verifies (Nat.zero_le _) (by omega) bound

end Accepted

theorem checksumPacket_verifies {m : Mem} {bufferBytes inBytes : Nat} {layer : PacketLayer} {q : Packet}
    (buffered : inBytes ≤ bufferBytes) (accepted : parsePacket (packetNew m bufferBytes) inBytes layer = .ok (.ok, q))
    (supported : Supported q) (long : datagramBytes q ≤ q.ipBytes) :
    ∃ q', checksumPacket q = .ok q' ∧
      (∀ ip, q'.ipv4 = some ip → internetChecksum (q'.buffer.bytes ip (ipv4HeaderLen q'.buffer ip)) = 0) ∧
      (layer4Covered q').map internetChecksum = some 0 ∧
      q' = { q with buffer := q'.buffer } ∧
      ∀ j, (∀ field ∈ checksumFields q, j < field ∨ field + 1 < j) → q'.buffer.get8 j = q.buffer.get8 j := by
  obtain ⟨-, ip, last, innermost⟩ := accepted_innermost buffered accepted
  obtain ⟨start, stop, len, header, check⟩ := innermost.layer4Check supported long
  have behind := innermost.behind
  have frame {j : Nat} (apart : ∀ field ∈ checksumFields q, j < field ∨ field + 1 < j) :
      (fillCheck (headerFilled q) (last.start + 2 * checkWord last.type) (header.checksum last.start len)).get8 j = q.buffer.get8 j := by
    rw [get8_fillCheck_ne _ _ (apart _ innermost.field)]
    exact headerFilled_get8 apart
  have front {j : Nat} (upper : j < ip.start + 10) :
      (fillCheck (headerFilled q) (last.start + 2 * checkWord last.type) (header.checksum last.start len)).get8 j = q.buffer.get8 j := by
    apply frame
    intro field member
    have := innermost.fields_behind field member
    omega
  refine ⟨_, check.filled, ?_, ?_, rfl, fun j => frame⟩
  · intro p ptr
    obtain ⟨rfl, headerBytes⟩ := innermost.ipv4Ptr ptr
    have long := innermost.headerBytes
    have stored : headerFilled q = setIpv4Check q.buffer ip.start := by rw [headerFilled, show q.ipv4 = _ from ptr]
    rw [ipv4HeaderLen, front (by omega), ← ipv4HeaderLen, ← setIpv4Check_internetChecksum (headerBytes ▸ long)]
    congr 1
    rw [← stored]
    exact bytes_of_get8 fun j _ upper => get8_fillCheck_ne _ _ (.inl (by omega))
  · rw [check.covers, Option.map_some, header.fill_verifies check.behind check.inside check.short]
    exact fun j _ upper => front upper

def shortDatagram : Mem := .ofList
  [0x45, 0, 0, 29, 0, 0, 0, 0, 255, 17, 0, 0, 1, 1, 1, 1, 2, 2, 2, 2, 0, 7, 0, 8, 0, 9, 0xab, 0xcd, 0x33]

theorem checksumPacket_verifies_shortDatagram :
    ∃ q q', parsePacket (packetNew shortDatagram 29) 29 .layer3Ip = .ok (.ok, q) ∧ checksumPacket q = .ok q' ∧
      (layer4Covered q').map internetChecksum = some 0 := by
  have evaluated : (parsePacket (packetNew shortDatagram 29) 29 .layer3Ip).toOption.map (fun r =>
      (r.1, r.2.icmpv4, r.2.icmpv6, datagramBytes r.2, r.2.ipBytes)) = some (.ok, none, none, 29, 29) := by decide +kernel
  obtain ⟨⟨result, q⟩, accepted, facts⟩ := ok_of_toOption evaluated
  simp only [Prod.mk.injEq] at facts
  obtain ⟨rfl, icmpv4, icmpv6, datagram, length⟩ := facts
  have supported : Supported q := ⟨by simp [icmpv4], by simp [icmpv6]⟩
  obtain ⟨q', filled, _, verifies, _⟩ := checksumPacket_verifies (by decide) accepted supported (by omega)
  exact ⟨q, q', accepted, filled, verifies⟩

theorem Innermost.udpCheck {udp : Nat} {ip : Extent} (innermost : Innermost q inBytes ip last)
    (ptr : q.udp = some udp) (long : datagramBytes q ≤ q.ipBytes) :
    ∃ q' covered, checksumPacket q = .ok q' ∧
      layer4Covered { q with buffer := q.buffer.putLe16 (udp + 6) 0 } = some covered ∧
      (q'.buffer.be16 (udp + 6) ≠ 0 ↔ ¬0xffff ∣ (bigEndianWords covered).sum) := by
  have found := innermost.udp
  rw [ptr] at found
  obtain ⟨type, rfl⟩ : last.type = .udp ∧ last.start = udp := by
    split at found
    · cases found
      exact ⟨‹_›, rfl⟩
    · cases found
  have supported : Supported q := by
    refine ⟨?_, ?_⟩
    · rw [innermost.icmpv4, type]; simp
    · rw [innermost.icmpv6, type]; simp
  obtain ⟨start, stop, len, header, check⟩ := innermost.layer4Check supported long
  have behind := innermost.behind
  have headerBytes := innermost.headerBytes
  have filled := check.filled
  have inside := check.behind
  rw [type, checkWord] at filled inside
  let cleared := q.buffer.putLe16 (last.start + 6) 0
  have same {j : Nat} (apart : ip.start + 12 ≤ j ∨ q.ipv4 = none) :
      ((headerFilled q).putLe16 (last.start + 6) 0).get8 j = cleared.get8 j := by
    have front : (headerFilled q).get8 j = q.buffer.get8 j := by
      unfold headerFilled
      cases found : q.ipv4 with
      | none => rfl
      | some p =>
        obtain ⟨rfl, _⟩ := innermost.ipv4Ptr found
        rcases apart with upper | none
        · exact setIpv4Check_frame _ (by omega)
        · rw [found] at none
          cases none
    simp only [cleared, putLe16, get8_put8, front]
  have covered : header.covered last.start len ((headerFilled q).putLe16 (last.start + 6) 0) = header.covered last.start len cleared := by
    have bytes : header.bytes ((headerFilled q).putLe16 (last.start + 6) 0) = header.bytes cleared := by
      apply header.bytes_congr
      intro j lower upper
      rcases check.apart with behind | none | empty
      · exact same (.inl (by omega))
      · exact same (.inr none)
      · omega
    rw [PseudoHeader.covered, bytes, bytes_of_get8 fun j lower _ => same (.inl (by omega)), PseudoHeader.covered]
  refine ⟨_, header.covered last.start len cleared, filled, check.covers _ ?_, ?_⟩
  · exact fun j _ upper => get8_putLe16_ne _ _ (.inl (by omega))
  · show (fillCheck _ _ _).be16 _ ≠ 0 ↔ _
    rw [fillCheck, be16_putLe16, header.checksum_eq check.short, covered]
    exact header.checksum_ne_zero check.short (check.positive type _)

/-- The checksum of a UDP datagram is zero just when the words that it covers add up to a multiple of 0xffff. -/
theorem udpCheck_ne_zero_iff {m : Mem} {bufferBytes inBytes udp : Nat} {layer : PacketLayer} {q : Packet}
    (buffered : inBytes ≤ bufferBytes) (accepted : parsePacket (packetNew m bufferBytes) inBytes layer = .ok (.ok, q))
    (ptr : q.udp = some udp) (long : datagramBytes q ≤ q.ipBytes) :
    ∃ q' covered, checksumPacket q = .ok q' ∧
      layer4Covered { q with buffer := q.buffer.putLe16 (udp + 6) 0 } = some covered ∧
      (q'.buffer.be16 (udp + 6) ≠ 0 ↔ ¬0xffff ∣ (bigEndianWords covered).sum) := by
  obtain ⟨-, ip, last, innermost⟩ := accepted_innermost buffered accepted
  exact innermost.udpCheck ptr long

theorem udpCheck_ne_zero_iff_shortDatagram :
    ∃ q q', parsePacket (packetNew shortDatagram 29) 29 .layer3Ip = .ok (.ok, q) ∧ checksumPacket q = .ok q' ∧
      q'.buffer.be16 26 ≠ 0 := by
  have evaluated : (parsePacket (packetNew shortDatagram 29) 29 .layer3Ip).toOption.map (fun r =>
      (r.1, r.2.udp, datagramBytes r.2, r.2.ipBytes, (layer4Covered { r.2 with buffer := r.2.buffer.putLe16 26 0 }).map fun c =>
        decide (0xffff ∣ (bigEndianWords c).sum))) = some (.ok, some 20, 29, 29, some false) := by decide +kernel
  obtain ⟨⟨result, q⟩, accepted, facts⟩ := ok_of_toOption evaluated
  simp only [Prod.mk.injEq] at facts
  obtain ⟨rfl, ptr, datagram, length, sum⟩ := facts
  obtain ⟨q', covered, filled, found, nonzero⟩ := udpCheck_ne_zero_iff (by decide) accepted ptr (by omega)
  rw [show (20 + 6) = 26 from rfl] at found
  rw [found, Option.map_some, Option.some.injEq, decide_eq_false_iff_not] at sum
  exact ⟨q, q', accepted, filled, nonzero.mpr sum⟩

def zeroSumDatagram : Mem := .ofList
  [0x45, 0, 0, 30, 0, 0, 0, 0, 255, 17, 0, 0, 1, 1, 1, 1, 2, 2, 2, 2, 0, 7, 0, 8, 0, 10, 0, 0, 0xf9, 0xc5]

theorem zeroSumDatagram_check :
    ∃ q q', parsePacket (packetNew zeroSumDatagram 30) 30 .layer3Ip = .ok (.ok, q) ∧ q.udp = some 20 ∧ checksumPacket q = .ok q' ∧
      q'.buffer.be16 26 = 0 := by
  have evaluated : (parsePacket (packetNew zeroSumDatagram 30) 30 .layer3Ip).toOption.map (fun r =>
      (r.1, r.2.udp, datagramBytes r.2, r.2.ipBytes, (layer4Covered { r.2 with buffer := r.2.buffer.putLe16 26 0 }).map fun c =>
        decide (0xffff ∣ (bigEndianWords c).sum))) = some (.ok, some 20, 30, 30, some true) := by decide +kernel
  obtain ⟨⟨result, q⟩, accepted, facts⟩ := ok_of_toOption evaluated
  simp only [Prod.mk.injEq] at facts
  obtain ⟨rfl, ptr, datagram, length, sum⟩ := facts
  obtain ⟨-, ip, last, innermost⟩ := accepted_innermost (by decide) accepted
  obtain ⟨q', covered, filled, found, nonzero⟩ := innermost.udpCheck ptr (by omega)
  rw [show (20 + 6) = 26 from rfl] at found
  rw [found, Option.map_some, Option.some.injEq, decide_eq_true_eq] at sum
  refine ⟨q, q', accepted, ptr, filled, ?_⟩
  by_contra stored
  exact nonzero.mp stored sum

end TcpFuzz
