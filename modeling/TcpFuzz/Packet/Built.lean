import TcpFuzz.Packet.Icmp
import TcpFuzz.Packet.IpHeader

/-! For arguments it does not refuse a builder returns one packet, unless an assertion on a length that does not fit
16 bits stops it. -/

namespace TcpFuzz
open Bytes Mem

variable {p : Packet} {type : HeaderType} {family : AddressFamily} {a : IcmpArgs}

def zeroedPacket (allocated : Mem) (family : AddressFamily) (direction : Direction) (info : IpInfo)
    (ipBytes : Nat) : Packet :=
  { packetNew (allocated.zero 0 ipBytes) ipBytes with
    direction
    tosChk := info.tos.check
    ipv4 := if family = .inet then some 0 else none
    ipv6 := if family = .inet6 then some 0 else none }

def ipPacket (allocated : Mem) (family : AddressFamily) (direction : Direction) (info : IpInfo)
    (ipBytes protocol : Nat) : Packet :=
  { appended (zeroedPacket allocated family direction info ipBytes) family.headerType
      (ipHeaderMinLen family) (u16 ipBytes) with
    buffer := ipHeaderMem (allocated.zero 0 ipBytes) 0 family ipBytes info.tos.value.toNat info.flowLabel.toNat
      info.ttl.toNat protocol }

theorem AddressFamily.headerType_ne_none (family : AddressFamily) : family.headerType ≠ .none := by
  cases family <;> simp [AddressFamily.headerType]

theorem mustAppendHeader_eq {hs : List Header} (layout : Layout p hs)
    (room : hs.length < packetMaxHeaders) {headerBytes : Nat}
    (fits : p.ipBytes + headerBytes ≤ p.bufferBytes) (total : Nat) :
    mustAppendHeader p type headerBytes total = .ok (appended p type headerBytes total) := by
  rw [mustAppendHeader, packetAppendHeader_eq layout, if_neg (by omega), ok_bind]
  simp only [run_pure, layout.count ▸ setTotalBytes_appended p type headerBytes total]

section IpPacket

variable (allocated : Mem) (family : AddressFamily) (direction : Direction) (info : IpInfo)
  (ipBytes protocol : Nat)

theorem zeroedPacket_layout : Layout (zeroedPacket allocated family direction info ipBytes) [] :=
  have fresh := packetNew_layout (allocated.zero 0 ipBytes) ipBytes
  ⟨fresh.table, fresh.used⟩

theorem ipPacket_layout : Layout (ipPacket allocated family direction info ipBytes protocol)
    [⟨family.headerType, ipHeaderMinLen family, u16 ipBytes, some 0⟩] :=
  have append := (zeroedPacket_layout allocated family direction info ipBytes).append (by decide)
    family.headerType_ne_none (ipHeaderMinLen family) (u16 ipBytes)
  ⟨append.table, append.used⟩

@[simp] theorem ipPacket_ipBytes :
    (ipPacket allocated family direction info ipBytes protocol).ipBytes = ipHeaderMinLen family := by
  simp [ipPacket, appended, zeroedPacket, packetNew]

theorem ipPacket_ipStart : ipStart (ipPacket allocated family direction info ipBytes protocol) = .ok 0 := by
  cases family <;> rfl

/-- The IP header is stored unless the assertion on the 16-bit length fails. -/
theorem setPacketIpHeader_eq (room : ipHeaderMinLen family ≤ ipBytes) :
    setPacketIpHeader { packetNew (allocated.zero 0 ipBytes) ipBytes with direction, tosChk := info.tos.check }
      family ipBytes info.tos.value.toNat info.flowLabel.toNat info.ttl.toNat protocol =
      (setIpHeader (allocated.zero 0 ipBytes) 0 family ipBytes info.tos.value.toNat info.flowLabel.toNat
        info.ttl.toNat protocol).map fun _ => ipPacket allocated family direction info ipBytes protocol := by
  have layout := zeroedPacket_layout allocated family direction info ipBytes
  have appends : mustAppendHeader _ family.headerType _ _ = _ := mustAppendHeader_eq layout (by decide)
    (by simpa [zeroedPacket, packetNew] using room) (u16 ipBytes)
  cases family with
  | inet =>
    change (mustAppendHeader (zeroedPacket allocated .inet direction info ipBytes) .ipv4 20 (u16 ipBytes) >>= _) = _
    rw [show mustAppendHeader _ .ipv4 20 _ = _ from appends, ok_bind]
    rfl
  | inet6 =>
    change (mustAppendHeader (zeroedPacket allocated .inet6 direction info ipBytes) .ipv6 40 (u16 ipBytes) >>= _) = _
    rw [show mustAppendHeader _ .ipv6 40 _ = _ from appends, ok_bind]
    by_cases fits : FitsIpHeader .inet6 ipBytes
    · have stored := setIpHeader_eq (allocated.zero 0 ipBytes) 0 fits info.tos.value.toNat
        info.flowLabel.toNat info.ttl.toNat protocol
      rw [stored]
      change (setIpHeader (allocated.zero 0 ipBytes) 0 .inet6 ipBytes info.tos.value.toNat
        info.flowLabel.toNat info.ttl.toNat protocol >>= _) = _
      rw [stored]
      rfl
    · have failed := setIpHeader_fails (allocated.zero 0 ipBytes) 0 fits info.tos.value.toNat
        info.flowLabel.toNat info.ttl.toNat protocol
      rw [failed]
      change (setIpHeader (allocated.zero 0 ipBytes) 0 .inet6 ipBytes info.tos.value.toNat
        info.flowLabel.toNat info.ttl.toNat protocol >>= _) = _
      rw [failed]
      rfl

end IpPacket

def transportPacket (allocated : Mem) (family : AddressFamily) (direction : Direction) (info : IpInfo)
    (ipBytes protocol : Nat) (type : HeaderType) (headerBytes total : Nat) (finish : Mem → Mem) : Packet :=
  let p := ipPacket allocated family direction info ipBytes protocol
  { appended p type headerBytes total with buffer := finish p.buffer, ipBytes }

theorem transportPacket_layout (allocated : Mem) (family : AddressFamily) (direction : Direction) (info : IpInfo)
    (ipBytes protocol : Nat) (used : type ≠ .none) (headerBytes total : Nat)
    (finish : Mem → Mem) :
    Layout (transportPacket allocated family direction info ipBytes protocol type headerBytes total finish)
      [⟨family.headerType, ipHeaderMinLen family, u16 ipBytes, some 0⟩,
       ⟨type, headerBytes, total, some (ipHeaderMinLen family)⟩] := by
  have append := (ipPacket_layout allocated family direction info ipBytes protocol).append
    (by simp [packetMaxHeaders]) used headerBytes total
  have start : (ipPacket allocated family direction info ipBytes protocol).l2HeaderBytes +
      (ipPacket allocated family direction info ipBytes protocol).ipBytes = ipHeaderMinLen family := by
    simp [ipPacket, appended, updateHeader, zeroedPacket, packetNew]
  rw [start] at append
  exact ⟨append.table, append.used⟩

theorem transportPacket_ip (allocated : Mem) (family : AddressFamily) (direction : Direction) (info : IpInfo)
    (ipBytes protocol : Nat) (type : HeaderType) (headerBytes total : Nat) (finish : Mem → Mem) :
    let p := transportPacket allocated family direction info ipBytes protocol type headerBytes total finish
    p.ipv4 = (if family.headerType = .ipv4 then some 0 else none) ∧
      p.ipv6 = if family.headerType = .ipv6 then some 0 else none := by
  cases family <;> exact ⟨rfl, rfl⟩

theorem ipPacket_appends {allocated : Mem} {direction : Direction} {info : IpInfo}
    {ipBytes protocol headerBytes : Nat} (room : ipHeaderMinLen family + headerBytes ≤ ipBytes)
    (total : Nat) :
    mustAppendHeader (ipPacket allocated family direction info ipBytes protocol) type headerBytes total =
      .ok (appended (ipPacket allocated family direction info ipBytes protocol) type headerBytes total) := by
  refine mustAppendHeader_eq (ipPacket_layout allocated family direction info ipBytes protocol)
    (by simp [packetMaxHeaders]) ?_ total
  rw [ipPacket_ipBytes]
  exact room

@[simp] theorem ipStart_appended (p : Packet) (type : HeaderType) (headerBytes total : Nat) :
    ipStart (appended p type headerBytes total) = ipStart p := rfl

structure TcpArgs.Accepted (a : TcpArgs) : Prop where
  padded : a.optionBytes.length % 4 = 0
  header : a.tcpHeaderBytes ≤ 60
  segment : a.ipBytes ≤ 65536
  flags : invalidTcpFlag a.flags = none

def tcpPacket (allocated : Mem) (a : TcpArgs) : Packet :=
  { transportPacket allocated a.family a.direction a.ipInfo a.ipBytes 6 .tcp a.tcpHeaderBytes
      (a.tcpHeaderBytes + a.tcpPayloadBytes.toNat) (fun m => setTcpHeader m (ipHeaderMinLen a.family) a) with
    tcp := some (ipHeaderMinLen a.family)
    flags := { winNocheck := a.window = -1, optionsNocheck := a.tcpOptions.isNone } }

inductive TcpOutcome (allocated : Mem) (a : TcpArgs) : Run (Except String Packet) → Prop where
  | refused (e : String) : ¬a.Accepted → TcpOutcome allocated a (.ok (.error e))
  | overflow : a.Accepted → ¬FitsIpHeader a.family a.ipBytes → TcpOutcome allocated a (.error .assertion)
  | window (e : String) : FitsIpHeader a.family a.ipBytes → a.window = -1 ∧ a.direction = .inbound →
      TcpOutcome allocated a (.ok (.error e))
  | built : a.Accepted → FitsIpHeader a.family a.ipBytes → ¬(a.window = -1 ∧ a.direction = .inbound) →
      TcpOutcome allocated a (.ok (.ok (tcpPacket allocated a)))

theorem newTcpPacket_outcome (allocated : Mem) (a : TcpArgs) : TcpOutcome allocated a (newTcpPacket allocated a) := by
  by_cases padded : a.optionBytes.length % 4 = 0
  swap
  · simp only [newTcpPacket, ne_eq, padded, not_false_eq_true, if_true]
    exact .refused _ fun accepted => padded accepted.padded
  have aligned : a.tcpHeaderBytes % 4 = 0 := by unfold TcpArgs.tcpHeaderBytes; omega
  have ipAligned : ipHeaderMinLen a.family % 4 = 0 := by cases a.family <;> rfl
  simp only [newTcpPacket, ne_eq, padded, not_true_eq_false, if_false, assertThat_ok aligned,
    assertThat_ok ipAligned, ok_bind]
  by_cases header : 60 < a.tcpHeaderBytes
  · rw [if_pos header]
    exact .refused _ fun accepted => Nat.not_lt.mpr accepted.header header
  rw [if_neg header]
  by_cases segment : 65536 < a.ipBytes
  · rw [if_pos segment]
    exact .refused _ fun accepted => Nat.not_lt.mpr accepted.segment segment
  rw [if_neg segment]
  cases flags : invalidTcpFlag a.flags with
  | some c => exact .refused _ fun accepted => by cases flags.symm.trans accepted.flags
  | none =>
  have accepted : a.Accepted := ⟨padded, by omega, by omega, flags⟩
  have room : ipHeaderMinLen a.family ≤ a.ipBytes := by unfold TcpArgs.ipBytes; omega
  simp only [setPacketIpHeader_eq allocated a.family a.direction a.ipInfo a.ipBytes 6 room]
  by_cases fits : FitsIpHeader a.family a.ipBytes
  swap
  · rw [setIpHeader_fails _ _ fits]
    exact .overflow accepted fits
  rw [setIpHeader_eq _ _ fits]
  simp only [Except.map, ok_bind]
  rw [ipPacket_appends (by unfold TcpArgs.ipBytes; omega), ok_bind]
  simp only [ipStart_appended, ipPacket_ipStart, ok_bind]
  by_cases window : a.window = -1 ∧ a.direction = .inbound
  · rw [if_pos window]
    exact .window _ fits window
  · rw [if_neg window, Nat.zero_add]
    exact .built accepted fits window

theorem newTcpPacket_cases (allocated : Mem) (a : TcpArgs) :
    (∃ e, newTcpPacket allocated a = .ok (.error e)) ∨
    a.Accepted ∧ ¬FitsIpHeader a.family a.ipBytes ∧ newTcpPacket allocated a = .error .assertion ∨
    a.Accepted ∧ FitsIpHeader a.family a.ipBytes ∧ ¬(a.window = -1 ∧ a.direction = .inbound) ∧
      newTcpPacket allocated a = .ok (.ok (tcpPacket allocated a)) := by
  have outcome := newTcpPacket_outcome allocated a
  generalize newTcpPacket allocated a = result at outcome
  cases outcome with
  | refused e => exact .inl ⟨e, rfl⟩
  | overflow accepted big => exact .inr (.inl ⟨accepted, big, rfl⟩)
  | window e => exact .inl ⟨e, rfl⟩
  | built accepted fits window => exact .inr (.inr ⟨accepted, fits, window, rfl⟩)

theorem newTcpPacket_eq {a : TcpArgs} (allocated : Mem) (accepted : a.Accepted) (fits : FitsIpHeader a.family a.ipBytes)
    (window : ¬(a.window = -1 ∧ a.direction = .inbound)) :
    newTcpPacket allocated a = .ok (.ok (tcpPacket allocated a)) := by
  have outcome := newTcpPacket_outcome allocated a
  generalize newTcpPacket allocated a = result at outcome
  cases outcome with
  | refused e unaccepted => exact absurd accepted unaccepted
  | overflow _ big => exact absurd fits big
  | window e _ missing => exact absurd missing window
  | built => rfl

theorem newTcpPacket_stops (allocated : Mem) (a : TcpArgs) :
    (∃ f, newTcpPacket allocated a = .error f) ↔ a.Accepted ∧ ¬FitsIpHeader a.family a.ipBytes := by
  have outcome := newTcpPacket_outcome allocated a
  generalize newTcpPacket allocated a = result at outcome
  cases outcome with
  | refused e unaccepted => exact iff_of_false (by simp) fun ⟨accepted, _⟩ => unaccepted accepted
  | overflow accepted big => exact iff_of_true ⟨_, rfl⟩ ⟨accepted, big⟩
  | window e fits => exact iff_of_false (by simp) fun ⟨_, big⟩ => big fits
  | built _ fits => exact iff_of_false (by simp) fun ⟨_, big⟩ => big fits

def udpPacket (allocated : Mem) (a : UdpArgs) : Packet :=
  { transportPacket allocated a.family a.direction a.ipInfo a.ipBytes 17 .udp 8
      (8 + a.udpPayloadBytes.toNat) (fun m => setUdpHeader m (ipHeaderMinLen a.family) a) with
    udp := some (ipHeaderMinLen a.family) }

inductive UdpOutcome (allocated : Mem) (a : UdpArgs) : Run (Except String Packet) → Prop where
  | refused (e : String) : ¬a.ipBytes ≤ 65536 → UdpOutcome allocated a (.ok (.error e))
  | overflow : a.ipBytes ≤ 65536 → ¬FitsIpHeader a.family a.ipBytes → UdpOutcome allocated a (.error .assertion)
  | built : a.ipBytes ≤ 65536 → FitsIpHeader a.family a.ipBytes → UdpOutcome allocated a (.ok (.ok (udpPacket allocated a)))

theorem newUdpPacket_outcome (allocated : Mem) (a : UdpArgs) : UdpOutcome allocated a (newUdpPacket allocated a) := by
  have ipAligned : ipHeaderMinLen a.family % 4 = 0 := by cases a.family <;> rfl
  simp only [newUdpPacket, assertThat_ok ipAligned, ok_bind]
  by_cases big : 65536 < a.ipBytes
  · rw [if_pos big]
    exact .refused _ (by omega)
  rw [if_neg big]
  have room : ipHeaderMinLen a.family ≤ a.ipBytes := by unfold UdpArgs.ipBytes; omega
  simp only [setPacketIpHeader_eq allocated a.family a.direction a.ipInfo a.ipBytes 17 room]
  by_cases fits : FitsIpHeader a.family a.ipBytes
  swap
  · rw [setIpHeader_fails _ _ fits]
    exact .overflow (by omega) fits
  rw [setIpHeader_eq _ _ fits]
  simp only [Except.map, ok_bind]
  rw [ipPacket_appends (by unfold UdpArgs.ipBytes; omega), ok_bind]
  simp only [ipStart_appended, ipPacket_ipStart, ok_bind, Nat.zero_add]
  exact .built (by omega) fits

theorem newUdpPacket_cases (allocated : Mem) (a : UdpArgs) :
    (∃ e, newUdpPacket allocated a = .ok (.error e)) ∨
    a.ipBytes ≤ 65536 ∧ ¬FitsIpHeader a.family a.ipBytes ∧ newUdpPacket allocated a = .error .assertion ∨
    a.ipBytes ≤ 65536 ∧ FitsIpHeader a.family a.ipBytes ∧
      newUdpPacket allocated a = .ok (.ok (udpPacket allocated a)) := by
  have outcome := newUdpPacket_outcome allocated a
  generalize newUdpPacket allocated a = result at outcome
  cases outcome with
  | refused e => exact .inl ⟨e, rfl⟩
  | overflow datagram big => exact .inr (.inl ⟨datagram, big, rfl⟩)
  | built datagram fits => exact .inr (.inr ⟨datagram, fits, rfl⟩)

theorem newUdpPacket_stops (allocated : Mem) (a : UdpArgs) :
    (∃ f, newUdpPacket allocated a = .error f) ↔ a.ipBytes ≤ 65536 ∧ ¬FitsIpHeader a.family a.ipBytes := by
  have outcome := newUdpPacket_outcome allocated a
  generalize newUdpPacket allocated a = result at outcome
  cases outcome with
  | refused e large => exact iff_of_false (by simp) fun ⟨datagram, _⟩ => large datagram
  | overflow datagram big => exact iff_of_true ⟨_, rfl⟩ ⟨datagram, big⟩
  | built _ fits => exact iff_of_false (by simp) fun ⟨_, big⟩ => big fits

def AddressFamily.icmpType : AddressFamily → HeaderType
  | .inet => .icmpv4
  | .inet6 => .icmpv6

def setIcmpHeader : AddressFamily → Mem → Nat → Nat → Nat → Int → Nat → Except String Mem
  | .inet => setIcmpv4Header
  | .inet6 => setIcmpv6Header

def IcmpArgs.echoedIpBytes (a : IcmpArgs) : Nat :=
  ipHeaderMinLen a.family + (if a.protocol = 6 then 20 else 8) + a.payloadBytes.toNat

def echoedMem (m : Mem) (a : IcmpArgs) : Mem :=
  let echoedIp := ipHeaderMinLen a.family + 8
  if a.Echoes then
    let m := ipHeaderMem m echoedIp a.family a.echoedIpBytes 0 0 0 a.protocol
    if a.protocol = 6 then m.putBe32 (echoedIp + ipHeaderMinLen a.family + 4) a.tcpStartSequence.toNat else m
  else m

def icmpPacket (allocated : Mem) (a : IcmpArgs) (m : Mem) : Packet :=
  { transportPacket allocated a.family a.direction a.ipInfo a.ipBytes (icmpProtocol a.family) a.family.icmpType 8
      a.icmpBytes (fun _ => echoedMem m a) with
    icmpv4 := if a.family = .inet then some (ipHeaderMinLen a.family) else none
    icmpv6 := if a.family = .inet6 then some (ipHeaderMinLen a.family) else none
    echoedHeader := a.Echoes }

theorem IcmpArgs.echoedBytes_ne_zero (a : IcmpArgs) : a.echoedBytes ≠ 0 ↔ a.Echoes := by
  unfold IcmpArgs.echoedBytes
  by_cases echoes : a.Echoes <;> simp [echoes]

theorem layer4HeaderLen_echoed (echoes : a.Echoes) :
    layer4HeaderLen a.protocol = .ok (if a.protocol = 6 then 20 else 8) := by
  rcases echoes with tcp | udp
  · simp [layer4HeaderLen, tcp]
  · simp [layer4HeaderLen, udp]

theorem setEchoedHeader_fails (echoes : a.Echoes)
    (ptr : packetEchoedIpHeader p = .ok (ipHeaderMinLen a.family + 8))
    (overflow : ¬FitsIpHeader a.family a.echoedIpBytes) : setEchoedHeader p a = .error .assertion := by
  simp only [setEchoedHeader, if_pos (a.echoedBytes_ne_zero.mpr echoes), ptr, ok_bind,
    layer4HeaderLen_echoed echoes]
  rw [show ipHeaderMinLen a.family + (if a.protocol = 6 then 20 else 8) + a.payloadBytes.toNat = a.echoedIpBytes
    from rfl, setIpHeader_fails _ _ overflow]
  rfl

theorem setEchoedHeader_eq
    (ptr4 : p.icmpv4 = if a.family = .inet then some (ipHeaderMinLen a.family) else none)
    (ptr6 : p.icmpv6 = if a.family = .inet6 then some (ipHeaderMinLen a.family) else none)
    (fits : a.Echoes → FitsIpHeader a.family a.echoedIpBytes) :
    setEchoedHeader p a = .ok { p with buffer := echoedMem p.buffer a, echoedHeader := a.Echoes } := by
  by_cases echoes : a.Echoes
  swap
  · simp only [setEchoedHeader, if_neg (fun h => echoes (a.echoedBytes_ne_zero.mp h)), echoedMem, if_neg echoes]
    simp [echoes]
  have ptr : packetEchoedIpHeader p = .ok (ipHeaderMinLen a.family + 8) := by
    cases family : a.family <;> simp [packetEchoedIpHeader, ptr4, ptr6, family]
  simp only [setEchoedHeader, if_pos (a.echoedBytes_ne_zero.mpr echoes), ptr, ok_bind,
    layer4HeaderLen_echoed echoes]
  rw [show ipHeaderMinLen a.family + (if a.protocol = 6 then 20 else 8) + a.payloadBytes.toNat = a.echoedIpBytes
    from rfl, setIpHeader_eq _ _ (fits echoes), ok_bind]
  by_cases tcp : a.protocol = 6
  · have header := ipHeaderMem_at p.buffer (ipHeaderMinLen a.family + 8) a.family a.echoedIpBytes 0 0 0 a.protocol
      (fits echoes) (by omega) (by decide)
    have seq : ∀ m : Mem, IpHeaderAt m (ipHeaderMinLen a.family + 8) a.family (u16 a.echoedIpBytes) a.protocol →
        packetEchoedTcpSeq { p with buffer := m } =
          .ok (ipHeaderMinLen a.family + 8 + ipHeaderMinLen a.family + 4) := by
      intro m header
      cases family : a.family <;> rw [family] at header
      · have proto := header.2.2.2.2
        simp [packetEchoedTcpSeq, packetEchoedTcpHeader, ptr4, ptr6, family, ipHeaderMinLen, requirePtr,
          assertThat] at proto ⊢
        simp [proto, tcp]
      · have proto := header.2.2
        simp [packetEchoedTcpSeq, packetEchoedTcpHeader, ptr4, ptr6, family, ipHeaderMinLen, requirePtr,
          assertThat] at proto ⊢
        simp [proto, tcp]
    rw [if_pos tcp, seq _ header]
    simp only [ok_bind, run_pure, echoedMem, if_pos echoes, if_pos tcp]
    simp [echoes]
  · rw [if_neg tcp]
    simp only [ok_bind, run_pure, echoedMem, if_pos echoes, if_neg tcp]
    simp [echoes]

theorem setPacketIcmpHeader_eq {hs : List Header} (layout : Layout p hs)
    (room : hs.length < packetMaxHeaders) (length : p.ipBytes + 8 ≤ p.bufferBytes)
    (unset : p.icmpv4 = none ∧ p.icmpv6 = none) (icmp : Nat) (family : AddressFamily)
    (icmpBytes type code : Nat) (mtu : Int) (echoId : Nat) :
    setPacketIcmpHeader p icmp family icmpBytes type code mtu echoId =
      .ok ((setIcmpHeader family p.buffer icmp type code mtu echoId).map fun m =>
        { appended p family.icmpType 8 icmpBytes with
          buffer := m
          icmpv4 := if family = .inet then some icmp else none
          icmpv6 := if family = .inet6 then some icmp else none }) := by
  cases family with
  | inet =>
    have layout' : Layout { p with icmpv4 := some icmp } hs := ⟨layout.table, layout.used⟩
    simp only [setPacketIcmpHeader, assertThat_ok unset.2, ok_bind, run_pure,
      mustAppendHeader_eq layout' room length, setIcmpHeader]
    simp only [appended, updateHeader, unset]
    rfl
  | inet6 =>
    have layout' : Layout { p with icmpv6 := some icmp } hs := ⟨layout.table, layout.used⟩
    simp only [setPacketIcmpHeader, assertThat_ok unset.1, ok_bind, run_pure,
      mustAppendHeader_eq layout' room length, setIcmpHeader]
    simp only [appended, updateHeader, unset]
    rfl

/-- The arguments that `new_icmp_packet` accepts, with the type and code they name and the
buffer once the ICMP header is stored in it. -/
structure IcmpArgs.Accepted (a : IcmpArgs) (allocated : Mem) (type code : Int) (m : Mem) : Prop where
  echoId : 0 ≤ a.echoId ∧ a.echoId ≤ 65535
  icmpBytes : 8 ≤ a.icmpBytes
  ipBytes : a.ipBytes = ipHeaderMinLen a.family + a.icmpBytes
  names : parseIcmpTypeAndCode a.family a.typeString a.codeString = .ok (type, code)
  header : setIcmpHeader a.family (ipPacket allocated a.family a.direction a.ipInfo a.ipBytes
      (icmpProtocol a.family)).buffer (ipHeaderMinLen a.family) type.toNat code.toNat a.mtu a.echoId.toNat = .ok m

theorem parseIcmpTypeAndCode_valid {typeString : String} {codeString : Option String}
    {type code : Int} (names : parseIcmpTypeAndCode family typeString codeString = .ok (type, code)) :
    isValidU8 type ∧ isValidU8 code := by
  unfold parseIcmpTypeAndCode at names
  split at names
  next type' codeTable found =>
  split at names
  · cases names
  next validType =>
  simp only at names
  split at names
  · cases names
  next validCode =>
  cases names
  exact ⟨not_not.mp validType, not_not.mp validCode⟩

structure IcmpArgs.Checked (a : IcmpArgs) (type code : Int) : Prop where
  echoId : 0 ≤ a.echoId ∧ a.echoId ≤ 65535
  icmpBytes : ¬asInt a.icmpBytes < 8
  names : parseIcmpTypeAndCode a.family a.typeString a.codeString = .ok (type, code)

theorem IcmpArgs.Checked.long {type code : Int} (checked : a.Checked type code) :
    8 ≤ a.icmpBytes ∧ a.ipBytes = ipHeaderMinLen a.family + a.icmpBytes := by
  have icmpBytes : 8 ≤ a.icmpBytes := by
    have short := checked.icmpBytes
    unfold asInt at short
    split at short <;> omega
  refine ⟨icmpBytes, ?_⟩
  unfold IcmpArgs.ipBytes
  rw [if_pos]
  by_contra neither
  unfold IcmpArgs.icmpBytes at icmpBytes
  rw [not_or] at neither
  rw [if_neg neither.1, if_neg neither.2] at icmpBytes
  omega

def IcmpArgs.MtuAccepted (a : IcmpArgs) (type code : Int) : Prop :=
  0 ≤ a.mtu → match a.family with
    | .inet => type.toNat = 3 ∧ code.toNat = 4 ∧ isValidU16 a.mtu
    | .inet6 => type.toNat = 2 ∧ code.toNat = 0 ∧ isValidU32 a.mtu

theorem checkedStore_isOk {given wrong bad : Prop} [Decidable given] [Decidable wrong] [Decidable bad] (m m' : Mem)
    (e e' : String) : (∃ stored, (if given then if wrong then .error e else if bad then .error e' else .ok m
      else .ok m' : Except String Mem) = .ok stored) ↔ (given → ¬wrong ∧ ¬bad) := by
  by_cases given <;> by_cases wrong <;> by_cases bad <;> simp [*]

theorem setIcmpHeader_isOk (a : IcmpArgs) (m : Mem) (icmp : Nat) (type code : Int) :
    (∃ m', setIcmpHeader a.family m icmp type.toNat code.toNat a.mtu a.echoId.toNat = .ok m') ↔
      a.MtuAccepted type code := by
  unfold IcmpArgs.MtuAccepted
  cases a.family with
  | inet =>
    simp only [setIcmpHeader, setIcmpv4Header, checkedStore_isOk, not_or, not_not, and_assoc]
  | inet6 =>
    simp only [setIcmpHeader, setIcmpv6Header, checkedStore_isOk, not_or, not_not, and_assoc]

inductive IcmpOutcome (allocated : Mem) (a : IcmpArgs) : Run (Except String Packet) → Prop where
  | refused (e : String) : (∀ type code, ¬a.Checked type code) → IcmpOutcome allocated a (.ok (.error e))
  | negative {type code : Int} : a.Checked type code → asInt a.ipBytes < 0 →
      IcmpOutcome allocated a (.error .invalidAccess)
  | overflow {type code : Int} : a.Checked type code → ¬FitsIpHeader a.family a.ipBytes →
      IcmpOutcome allocated a (.error .assertion)
  | mtu {type code : Int} (e : String) : a.Checked type code → ¬asInt a.ipBytes < 0 → FitsIpHeader a.family a.ipBytes →
      ¬a.MtuAccepted type code → IcmpOutcome allocated a (.ok (.error e))
  | echo {type code : Int} : a.Checked type code → a.MtuAccepted type code → a.Echoes →
      ¬FitsIpHeader a.family a.echoedIpBytes → IcmpOutcome allocated a (.error .assertion)
  | built {type code : Int} {m : Mem} : a.Checked type code → ¬asInt a.ipBytes < 0 → FitsIpHeader a.family a.ipBytes →
      (a.Echoes → FitsIpHeader a.family a.echoedIpBytes) → a.Accepted allocated type code m →
      IcmpOutcome allocated a (.ok (.ok (icmpPacket allocated a m)))

theorem newIcmpPacket_outcome (allocated : Mem) (a : IcmpArgs) : IcmpOutcome allocated a (newIcmpPacket allocated a) := by
  have ipAligned : ipHeaderMinLen a.family % 4 = 0 := by cases a.family <;> rfl
  have headerLen : ipHeaderMinLen a.family ≤ 40 := by cases a.family <;> decide
  simp only [newIcmpPacket, assertThat_ok ipAligned, ok_bind]
  by_cases echoId : a.echoId < 0 ∨ 65535 < a.echoId
  · rw [if_pos echoId]
    exact .refused _ fun _ _ checked => by have := checked.echoId; omega
  rw [if_neg echoId]
  by_cases short : asInt a.icmpBytes < 8
  · rw [if_pos short]
    exact .refused _ fun _ _ checked => checked.icmpBytes short
  rw [if_neg short]
  cases names : parseIcmpTypeAndCode a.family a.typeString a.codeString with
  | error e => exact .refused e fun _ _ checked => by cases names.symm.trans checked.names
  | ok numbers =>
  obtain ⟨type, code⟩ := numbers
  have checked : a.Checked type code := ⟨by omega, short, names⟩
  obtain ⟨icmpBytes, ipBytes⟩ := checked.long
  obtain ⟨validType, validCode⟩ := parseIcmpTypeAndCode_valid names
  simp only [assertThat_ok validType, assertThat_ok validCode, ok_bind]
  by_cases negative : asInt a.ipBytes < 0
  · rw [if_pos negative]
    exact .negative checked negative
  rw [if_neg negative]
  have room : ipHeaderMinLen a.family ≤ a.ipBytes := by omega
  simp only [run_pure,
    setPacketIpHeader_eq allocated a.family a.direction a.ipInfo a.ipBytes (icmpProtocol a.family) room]
  by_cases fits : FitsIpHeader a.family a.ipBytes
  swap
  · rw [setIpHeader_fails _ _ fits]
    exact .overflow checked fits
  rw [setIpHeader_eq _ _ fits]
  simp only [Except.map, ok_bind, ipPacket_ipStart, Nat.zero_add]
  rw [setPacketIcmpHeader_eq
    (ipPacket_layout allocated a.family a.direction a.ipInfo a.ipBytes (icmpProtocol a.family))
    (by simp [packetMaxHeaders])
    (by rw [ipPacket_ipBytes]; exact (by omega : ipHeaderMinLen a.family + 8 ≤ a.ipBytes)) ⟨rfl, rfl⟩, ok_bind]
  have mtu := setIcmpHeader_isOk a (ipPacket allocated a.family a.direction a.ipInfo a.ipBytes
    (icmpProtocol a.family)).buffer (ipHeaderMinLen a.family) type code
  cases header : setIcmpHeader a.family (ipPacket allocated a.family a.direction a.ipInfo a.ipBytes
      (icmpProtocol a.family)).buffer (ipHeaderMinLen a.family) type.toNat code.toNat a.mtu a.echoId.toNat with
  | error e =>
    refine .mtu e checked negative fits fun accepted => ?_
    obtain ⟨m, stored⟩ := mtu.mpr accepted
    cases header.symm.trans stored
  | ok m =>
  simp only [Except.map]
  by_cases echoed : a.Echoes → FitsIpHeader a.family a.echoedIpBytes
  · rw [setEchoedHeader_eq rfl rfl echoed, ok_bind]
    exact .built checked negative fits echoed ⟨checked.echoId, icmpBytes, ipBytes, names, header⟩
  · obtain ⟨echoes, big⟩ := Classical.not_imp.mp echoed
    have ptr : packetEchoedIpHeader { appended (ipPacket allocated a.family a.direction a.ipInfo a.ipBytes
          (icmpProtocol a.family)) a.family.icmpType 8 a.icmpBytes with
        buffer := m
        icmpv4 := if a.family = .inet then some (ipHeaderMinLen a.family) else none
        icmpv6 := if a.family = .inet6 then some (ipHeaderMinLen a.family) else none } =
        .ok (ipHeaderMinLen a.family + 8) := by
      cases family : a.family <;> simp [packetEchoedIpHeader]
    rw [setEchoedHeader_fails echoes ptr big]
    exact .echo checked (mtu.mp ⟨m, header⟩) echoes big

theorem fitsIpHeader_of_le {ipBytes : Nat} (long : ipHeaderMinLen family ≤ ipBytes)
    (short : ipBytes ≤ 65535) : FitsIpHeader family ipBytes := by
  intro six
  rw [six] at long
  rw [u16, Nat.mod_eq_of_lt (by omega)]
  exact long

theorem newIcmpPacket_cases (allocated : Mem) (a : IcmpArgs) :
    (∃ e, newIcmpPacket allocated a = .ok (.error e)) ∨
    (∃ f, newIcmpPacket allocated a = .error f) ∧
      ¬(a.ipBytes ≤ 65535 ∧ (a.Echoes → a.echoedIpBytes ≤ 65535)) ∨
    ∃ type code m, a.Accepted allocated type code m ∧ FitsIpHeader a.family a.ipBytes ∧
      (a.Echoes → FitsIpHeader a.family a.echoedIpBytes) ∧
      newIcmpPacket allocated a = .ok (.ok (icmpPacket allocated a m)) := by
  have outcome := newIcmpPacket_outcome allocated a
  generalize newIcmpPacket allocated a = result at outcome
  cases outcome with
  | refused e => exact .inl ⟨e, rfl⟩
  | negative _ negative =>
    refine .inr (.inl ⟨⟨_, rfl⟩, fun ⟨inside, _⟩ => ?_⟩)
    unfold asInt at negative
    split at negative <;> omega
  | overflow checked big =>
    exact .inr (.inl ⟨⟨_, rfl⟩, fun ⟨inside, _⟩ => big (fitsIpHeader_of_le (by have := checked.long; omega) inside)⟩)
  | mtu e => exact .inl ⟨e, rfl⟩
  | echo _ _ echoes big =>
    refine .inr (.inl ⟨⟨_, rfl⟩, fun ⟨_, inside⟩ => big (fitsIpHeader_of_le ?_ (inside echoes))⟩)
    unfold IcmpArgs.echoedIpBytes
    omega
  | built _ _ fits echoed accepted => exact .inr (.inr ⟨_, _, _, accepted, fits, echoed, rfl⟩)

def IcmpArgs.Stops (a : IcmpArgs) : Prop :=
  ∃ type code, a.Checked type code ∧ (asInt a.ipBytes < 0 ∨ ¬FitsIpHeader a.family a.ipBytes ∨
    a.MtuAccepted type code ∧ a.Echoes ∧ ¬FitsIpHeader a.family a.echoedIpBytes)

theorem newIcmpPacket_stops (allocated : Mem) (a : IcmpArgs) :
    (∃ f, newIcmpPacket allocated a = .error f) ↔ a.Stops := by
  have outcome := newIcmpPacket_outcome allocated a
  generalize newIcmpPacket allocated a = result at outcome
  cases outcome with
  | refused e unchecked =>
    refine iff_of_false (by simp) ?_
    rintro ⟨type, code, checked, -⟩
    exact unchecked type code checked
  | negative checked negative => exact iff_of_true ⟨_, rfl⟩ ⟨_, _, checked, .inl negative⟩
  | overflow checked big => exact iff_of_true ⟨_, rfl⟩ ⟨_, _, checked, .inr (.inl big)⟩
  | mtu e checked positive fits unfit =>
    refine iff_of_false (by simp) ?_
    rintro ⟨type, code, again, negative | big | ⟨accepted, -⟩⟩
    · exact positive negative
    · exact big fits
    · cases checked.names.symm.trans again.names
      exact unfit accepted
  | echo checked accepted echoes big => exact iff_of_true ⟨_, rfl⟩ ⟨_, _, checked, .inr (.inr ⟨accepted, echoes, big⟩)⟩
  | built checked positive fits echoed =>
    refine iff_of_false (by simp) ?_
    rintro ⟨type, code, again, negative | big | ⟨-, echoes, big⟩⟩
    · exact positive negative
    · exact big fits
    · exact big (echoed echoes)

end TcpFuzz
