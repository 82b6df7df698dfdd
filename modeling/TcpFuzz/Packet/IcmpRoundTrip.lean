import TcpFuzz.Packet.RoundTrip

/-! ICMP messages, and all builders together. -/

namespace TcpFuzz
open Bytes Mem

variable {m allocated : Mem} {j : Nat} {a : IcmpArgs} {type code : Int}

def maxMtu : AddressFamily → Int
  | .inet => 65535
  | .inet6 => 4294967295

/-- The ICMP header as it is stored. In ICMPv6 the MTU and the echo identifier share bytes. -/
def icmpMem (family : AddressFamily) (m : Mem) (icmp type code : Nat) (mtu : Int) (echoId : Nat) : Mem :=
  let m := ((m.put8 icmp type).put8 (icmp + 1) code).putBe16 (icmp + 2) 0
  let m := if 0 ≤ mtu then
      match family with
      | .inet => m.putBe16 (icmp + 6) mtu.toNat
      | .inet6 => m.putBe32 (icmp + 4) mtu.toNat
    else m
  if 0 < echoId then m.putBe16 (icmp + 4) echoId else m

theorem setIcmpHeader_ok {family : AddressFamily} {m' : Mem} {icmp type code : Nat} {mtu : Int} {echoId : Nat}
    (stored : setIcmpHeader family m icmp type code mtu echoId = .ok m') :
    m' = icmpMem family m icmp type code mtu echoId ∧ mtu ≤ maxMtu family := by
  cases family with
  | inet =>
    simp only [setIcmpHeader, setIcmpv4Header] at stored
    by_cases given : 0 ≤ mtu
    · rw [if_pos given] at stored
      split at stored
      · cases stored
      split at stored
      · cases stored
      next valid =>
      cases stored
      simp only [isValidU16] at valid
      exact ⟨by simp only [icmpMem, if_pos given], by simp only [maxMtu]; omega⟩
    · rw [if_neg given] at stored
      cases stored
      exact ⟨by simp only [icmpMem, if_neg given], by simp only [maxMtu]; omega⟩
  | inet6 =>
    simp only [setIcmpHeader, setIcmpv6Header] at stored
    by_cases given : 0 ≤ mtu
    · rw [if_pos given] at stored
      split at stored
      · cases stored
      split at stored
      · cases stored
      next valid =>
      cases stored
      simp only [isValidU32] at valid
      exact ⟨by simp only [icmpMem, if_pos given], by simp only [maxMtu]; omega⟩
    · rw [if_neg given] at stored
      cases stored
      exact ⟨by simp only [icmpMem, if_neg given], by simp only [maxMtu]; omega⟩

section Header

variable (family : AddressFamily) (m : Mem) (icmp type code : Nat) (mtu : Int) (echoId : Nat)

theorem icmpMem_frame (before : j < icmp) :
    (icmpMem family m icmp type code mtu echoId).get8 j = m.get8 j := by
  simp only [icmpMem]
  cases family <;> split <;> split <;>
    simp (disch := omega) only [get8_putBe16_ne, get8_putBe32_ne, get8_put8_ne]

theorem icmpMem_type (small : type < 256) : (icmpMem family m icmp type code mtu echoId).get8 icmp = type := by
  simp only [icmpMem]
  cases family <;> split <;> split <;>
    simp (disch := omega) only [get8_putBe16_ne, get8_putBe32_ne, get8_put8_ne, get8_put8_self, Nat.mod_eq_of_lt]

theorem icmpMem_code (small : code < 256) :
    (icmpMem family m icmp type code mtu echoId).get8 (icmp + 1) = code := by
  simp only [icmpMem]
  cases family <;> split <;> split <;>
    simp (disch := omega) only [get8_putBe16_ne, get8_putBe32_ne, get8_put8_self, Nat.mod_eq_of_lt]

theorem icmpMem_echoId (given : 0 < echoId) (small : echoId < 65536) :
    (icmpMem family m icmp type code mtu echoId).be16 (icmp + 4) = echoId := by
  simp only [icmpMem, if_pos given, be16_putBe16_self, Nat.mod_eq_of_lt small]

theorem icmpMem_mtu4 (given : 0 ≤ mtu) (small : mtu ≤ 65535) :
    (icmpMem .inet m icmp type code mtu echoId).be16 (icmp + 6) = mtu.toNat := by
  simp only [icmpMem, if_pos given]
  split <;> simp (disch := omega) only [be16_putBe16_ne, be16_putBe16_self, Nat.mod_eq_of_lt]

theorem icmpMem_mtu6 (given : 0 ≤ mtu) (small : mtu ≤ 4294967295) :
    (icmpMem .inet6 m icmp type code mtu echoId).be32 (icmp + 4) =
      if 0 < echoId then echoId % 65536 * 65536 + mtu.toNat % 65536 else mtu.toNat := by
  simp only [icmpMem, if_pos given]
  split
  · simp only [be32, be16_putBe16_self, be16_putBe16_ne _ _ (show icmp + 4 + 1 < icmp + 4 + 2 ∨ _ from by omega),
      putBe32]
  · rw [be32_putBe32_self, Nat.mod_eq_of_lt (by omega)]

end Header

def mtuField (m : Mem) (icmp : Nat) : AddressFamily → Nat
  | .inet => m.be16 (icmp + 6)
  | .inet6 => m.be32 (icmp + 4)

/-- The MTU is stored unless an echo identifier overwrites a part of it that differs. -/
theorem icmpMem_mtu_iff (family : AddressFamily) (m : Mem) (icmp type code : Nat) {mtu : Int} {echoId : Nat}
    (small : mtu ≤ maxMtu family) (id : echoId < 65536) :
    (0 ≤ mtu → mtu = mtuField (icmpMem family m icmp type code mtu echoId) icmp family) ↔
      (family = .inet6 → 0 ≤ mtu → 0 < echoId → mtu / 65536 = echoId) := by
  cases family with
  | inet =>
    refine iff_of_true (fun given => ?_) (by simp)
    rw [mtuField, icmpMem_mtu4 m icmp type code mtu echoId given small]
    omega
  | inet6 =>
    simp only [maxMtu] at small
    constructor
    · intro field _ given echoes
      have := field given
      rw [mtuField, icmpMem_mtu6 m icmp type code mtu echoId given small, if_pos echoes] at this
      omega
    · intro shared given
      rw [mtuField, icmpMem_mtu6 m icmp type code mtu echoId given small]
      split
      next echoes =>
        have := shared rfl given echoes
        omega
      next => omega

theorem echoedMem_frame (m : Mem) (a : IcmpArgs) (before : j < ipHeaderMinLen a.family + 8) :
    (echoedMem m a).get8 j = m.get8 j := by
  unfold echoedMem
  split
  · split
    · rw [get8_putBe32_ne _ _ (by omega), ipHeaderMem_frame _ _ _ _ _ _ _ _ (by omega)]
    · rw [ipHeaderMem_frame _ _ _ _ _ _ _ _ (by omega)]
  · rfl

structure IcmpDecodes (a : IcmpArgs) (p : Packet) : Prop where
  ip : IpDecodes p.buffer a.family a.ipInfo
  names : ∃ type code, parseIcmpTypeAndCode a.family a.typeString a.codeString = .ok (type, code) ∧
    (p.buffer.get8 (ipHeaderMinLen a.family) : Int) = type ∧
    (p.buffer.get8 (ipHeaderMinLen a.family + 1) : Int) = code
  mtu : 0 ≤ a.mtu → a.mtu = mtuField p.buffer (ipHeaderMinLen a.family) a.family
  echoId : 0 < a.echoId → a.echoId = p.buffer.be16 (ipHeaderMinLen a.family + 4)
  echoed : a.Echoes →
    IpHeaderAt p.buffer (ipHeaderMinLen a.family + 8) a.family a.echoedIpBytes a.protocol ∧
    (a.protocol = 6 → p.buffer.be32 (ipHeaderMinLen a.family + 8 + ipHeaderMinLen a.family + 4) =
      a.tcpStartSequence.toNat)

structure IcmpArgs.Representable (a : IcmpArgs) : Prop where
  length : a.ipBytes ≤ 65535
  echoed : a.Echoes → a.echoedIpBytes ≤ 65535
  shared : a.family = .inet6 → 0 ≤ a.mtu → 0 < a.echoId → a.mtu / 65536 = a.echoId
  ipInfo : a.ipInfo.Representable a.family

theorem icmp_wire_iff {stop n pos : Nat} {es : List Extent} (family : AddressFamily) :
    Wire m stop (.layer4 (icmpProtocol family) n) pos es ↔ 8 ≤ n ∧ es = [⟨family.icmpType, pos, 8, n⟩] := by
  cases family
  · exact wire_icmpv4_iff
  · exact wire_icmpv6_iff

theorem IpHeaderAt.total_eq {ip total total' proto proto' : Nat} {family : AddressFamily}
    (header : IpHeaderAt m ip family total proto) (header' : IpHeaderAt m ip family total' proto') :
    total = total' := by
  cases family with
  | inet => exact header.2.2.1.symm.trans header'.2.2.1
  | inet6 => exact header.2.1.symm.trans header'.2.1

theorem echoedMem_stored (m : Mem) (echoes : a.Echoes) (fits : FitsIpHeader a.family a.echoedIpBytes) :
    IpHeaderAt (echoedMem m a) (ipHeaderMinLen a.family + 8) a.family (u16 a.echoedIpBytes) a.protocol ∧
    (a.protocol = 6 → (echoedMem m a).be32 (ipHeaderMinLen a.family + 8 + ipHeaderMinLen a.family + 4) =
      a.tcpStartSequence.toNat) := by
  have byte : a.protocol < 256 := by rcases echoes with tcp | udp <;> omega
  have header := ipHeaderMem_at m (ipHeaderMinLen a.family + 8) a.family a.echoedIpBytes 0 0 0 a.protocol fits byte
    (by decide)
  simp only [echoedMem, if_pos echoes]
  by_cases tcp : a.protocol = 6
  · simp only [if_pos tcp]
    have seq := a.tcpStartSequence.toNat_lt
    exact ⟨header.congr fun j _ inside => get8_putBe32_ne _ _ (by omega),
      fun _ => by rw [be32_putBe32_self, Nat.mod_eq_of_lt (by omega)]⟩
  · simp only [if_neg tcp]
    exact ⟨header, fun isTcp => absurd isTcp tcp⟩

theorem icmpPacket_frame
    (accepted : a.Accepted allocated type code m) (inside : j < ipHeaderMinLen a.family) :
    (echoedMem m a).get8 j = (ipMem allocated a.family a.ipInfo a.ipBytes (icmpProtocol a.family)).get8 j := by
  have stored := (setIcmpHeader_ok accepted.header).1
  rw [echoedMem_frame m a (by omega), stored, icmpMem_frame _ _ _ _ _ _ _ inside]
  rfl

theorem icmpPacket_parsesBack_iff
    (accepted : a.Accepted allocated type code m) (fits : FitsIpHeader a.family a.ipBytes) :
    ParsesBack (icmpPacket allocated a m) (a.icmpBytes - 8) ↔ a.ipBytes ≤ 65535 := by
  have frame := fun j (inside : j < ipHeaderMinLen a.family) => icmpPacket_frame accepted inside
  obtain ⟨-, icmpBytes, ipBytes, -, -⟩ := accepted
  change ParsesBack (transportPacket allocated a.family a.direction a.ipInfo a.ipBytes (icmpProtocol a.family)
    a.family.icmpType 8 a.icmpBytes fun _ => echoedMem m a) _ ↔ _
  refine transportPacket_parsesBack_iff (by cases a.family <;> simp [AddressFamily.icmpType]) ipBytes icmpBytes
    (by cases a.family <;> decide) fits frame (fun stop n es wire => ((icmp_wire_iff _).mp wire).2)
    fun stop => (icmp_wire_iff _).mpr ⟨icmpBytes, rfl⟩

theorem icmpPacket_roundTrips_iff
    (accepted : a.Accepted allocated type code m) (fits : FitsIpHeader a.family a.ipBytes)
    (echoFits : a.Echoes → FitsIpHeader a.family a.echoedIpBytes) :
    ParsesBack (icmpPacket allocated a m) (a.icmpBytes - 8) ∧ IcmpDecodes a (icmpPacket allocated a m) ↔
      a.Representable := by
  have parses := icmpPacket_parsesBack_iff accepted fits
  have frame := fun j (inside : j < ipHeaderMinLen a.family) => icmpPacket_frame accepted inside
  obtain ⟨echoId, icmpBytes, ipBytes, names, header⟩ := accepted
  obtain ⟨validType, validCode⟩ := parseIcmpTypeAndCode_valid names
  obtain ⟨stored, maxMtu⟩ := setIcmpHeader_ok header
  let base := ipMem allocated a.family a.ipInfo a.ipBytes (icmpProtocol a.family)
  replace stored : m = icmpMem a.family base (ipHeaderMinLen a.family) type.toNat code.toNat a.mtu
    a.echoId.toNat := stored
  have buffer : (icmpPacket allocated a m).buffer = echoedMem m a := rfl
  have echoFrame := fun j (inside : j < ipHeaderMinLen a.family + 8) => echoedMem_frame m a inside
  have ip : IpDecodes (icmpPacket allocated a m).buffer a.family a.ipInfo ↔ a.ipInfo.Representable a.family :=
    ipMem_decodes_iff frame
  have typeField : (echoedMem m a).get8 (ipHeaderMinLen a.family) = type.toNat := by
    rw [echoFrame _ (by omega), stored, icmpMem_type _ _ _ _ _ _ _ (by have := validType.2; omega)]
  have codeField : (echoedMem m a).get8 (ipHeaderMinLen a.family + 1) = code.toNat := by
    rw [echoFrame _ (by omega), stored, icmpMem_code _ _ _ _ _ _ _ (by have := validCode.2; omega)]
  have idField : (echoedMem m a).be16 (ipHeaderMinLen a.family + 4) = m.be16 (ipHeaderMinLen a.family + 4) :=
    be16_of_get8 (echoFrame _ (by omega)) (echoFrame _ (by omega))
  have mtuSame : mtuField (echoedMem m a) (ipHeaderMinLen a.family) a.family =
      mtuField m (ipHeaderMinLen a.family) a.family := by
    have low : (echoedMem m a).be16 (ipHeaderMinLen a.family + 6) = m.be16 (ipHeaderMinLen a.family + 6) :=
      be16_of_get8 (echoFrame _ (by omega)) (echoFrame _ (by omega))
    generalize a.family = family at *
    cases family
    · exact low
    · exact be32_of_be16 idField low
  have mtuIff := icmpMem_mtu_iff a.family base (ipHeaderMinLen a.family) type.toNat code.toNat maxMtu
    (show a.echoId.toNat < 65536 by omega)
  rw [← stored, ← mtuSame] at mtuIff
  constructor
  · rintro ⟨parsesBack, decodes⟩
    refine ⟨parses.mp parsesBack, fun echoes => ?_, fun six given positive => ?_, ip.mp decodes.ip⟩
    · have same := (echoedMem_stored m echoes (echoFits echoes)).1.total_eq (decodes.echoed echoes).1
      have bound : u16 a.echoedIpBytes < 65536 := Nat.mod_lt _ (by decide)
      omega
    · have := mtuIff.mp decodes.mtu six given (by omega)
      omega
  · rintro ⟨length, echoLength, shared, info⟩
    refine ⟨parses.mpr length, ip.mpr info, ⟨type, code, names, ?_, ?_⟩, mtuIff.mpr fun six given positive => ?_,
      fun positive => ?_, fun echoes => ?_⟩
    · rw [buffer, typeField]
      exact Int.toNat_of_nonneg validType.1
    · rw [buffer, codeField]
      exact Int.toNat_of_nonneg validCode.1
    · have := shared six given (by omega)
      omega
    · rw [buffer, idField, stored, icmpMem_echoId _ _ _ _ _ _ _ (by omega) (by omega)]
      omega
    · have storedEcho := echoedMem_stored m echoes (echoFits echoes)
      rw [u16, Nat.mod_eq_of_lt (by have := echoLength echoes; omega)] at storedEcho
      exact storedEcho

inductive BuilderCall where
  | tcp (a : TcpArgs)
  | udp (a : UdpArgs)
  | icmp (a : IcmpArgs)

namespace BuilderCall

def run (allocated : Mem) : BuilderCall → Run (Except String Packet)
  | .tcp a => newTcpPacket allocated a
  | .udp a => newUdpPacket allocated a
  | .icmp a => newIcmpPacket allocated a

/-- The packet parses back with the requested payload, and its fields decode to the arguments. -/
def RoundTrips : BuilderCall → Packet → Prop
  | .tcp a, p => ParsesBack p a.tcpPayloadBytes.toNat ∧ TcpDecodes a p
  | .udp a, p => ParsesBack p a.udpPayloadBytes.toNat ∧ UdpDecodes a p
  | .icmp a, p => ParsesBack p (a.icmpBytes - 8) ∧ IcmpDecodes a p

def Representable : BuilderCall → Prop
  | .tcp a => a.Representable
  | .udp a => a.Representable
  | .icmp a => a.Representable

def family : BuilderCall → AddressFamily
  | .tcp a => a.family
  | .udp a => a.family
  | .icmp a => a.family

def ipBytes : BuilderCall → Nat
  | .tcp a => a.ipBytes
  | .udp a => a.ipBytes
  | .icmp a => a.ipBytes

/-- What the builders return: an IP header, a transport header that reaches to the end, and a pointer to each. -/
structure Returns (call : BuilderCall) (p : Packet) (type : HeaderType) (headerBytes total : Nat) : Prop where
  transport : type.IsTransport
  layout : Layout p [⟨call.family.headerType, ipHeaderMinLen call.family, u16 p.ipBytes, some 0⟩,
    ⟨type, headerBytes, total, some (ipHeaderMinLen call.family)⟩]
  ipBytes : p.ipBytes = call.ipBytes
  length : p.ipBytes = ipHeaderMinLen call.family + total
  ipv4 : p.ipv4 = if call.family.headerType = .ipv4 then some 0 else none
  ipv6 : p.ipv6 = if call.family.headerType = .ipv6 then some 0 else none
  tcp : p.tcp = if type = .tcp then some (ipHeaderMinLen call.family) else none
  udp : p.udp = if type = .udp then some (ipHeaderMinLen call.family) else none
  icmpv4 : p.icmpv4 = if type = .icmpv4 then some (ipHeaderMinLen call.family) else none
  icmpv6 : p.icmpv6 = if type = .icmpv6 then some (ipHeaderMinLen call.family) else none
  parses : p.ipBytes ≤ 65535 → ∃ payloadBytes, ParsesBack p payloadBytes

theorem run_returns {call : BuilderCall} {p : Packet} (returned : call.run allocated = .ok (.ok p)) :
    ∃ type headerBytes total, call.Returns p type headerBytes total := by
  cases call with
  | tcp a =>
    obtain ⟨e, refused⟩ | ⟨-, -, failed⟩ | ⟨accepted, fits, -, built⟩ := newTcpPacket_cases allocated a
    · cases refused.symm.trans returned
    · cases failed.symm.trans returned
    cases built.symm.trans returned
    have transport : HeaderType.tcp.IsTransport := .inl rfl
    have layout := transportPacket_layout allocated a.family a.direction a.ipInfo a.ipBytes 6 transport.ne_none
      a.tcpHeaderBytes (a.tcpHeaderBytes + a.tcpPayloadBytes.toNat) fun m => setTcpHeader m (ipHeaderMinLen a.family) a
    obtain ⟨ipv4, ipv6⟩ := transportPacket_ip allocated a.family a.direction a.ipInfo a.ipBytes 6 .tcp
      a.tcpHeaderBytes (a.tcpHeaderBytes + a.tcpPayloadBytes.toNat) fun m => setTcpHeader m (ipHeaderMinLen a.family) a
    exact ⟨_, _, _, transport, ⟨layout.table, layout.used⟩, rfl, Nat.add_assoc _ _ _, ipv4, ipv6, rfl, rfl, rfl, rfl,
      fun short => ⟨_, (tcpPacket_parsesBack_iff allocated accepted fits).mpr short⟩⟩
  | udp a =>
    obtain ⟨e, refused⟩ | ⟨-, -, failed⟩ | ⟨datagram, fits, built⟩ := newUdpPacket_cases allocated a
    · cases refused.symm.trans returned
    · cases failed.symm.trans returned
    cases built.symm.trans returned
    have transport : HeaderType.udp.IsTransport := .inr (.inl rfl)
    have layout := transportPacket_layout allocated a.family a.direction a.ipInfo a.ipBytes 17 transport.ne_none 8
      (8 + a.udpPayloadBytes.toNat) fun m => setUdpHeader m (ipHeaderMinLen a.family) a
    obtain ⟨ipv4, ipv6⟩ := transportPacket_ip allocated a.family a.direction a.ipInfo a.ipBytes 17 .udp 8
      (8 + a.udpPayloadBytes.toNat) fun m => setUdpHeader m (ipHeaderMinLen a.family) a
    exact ⟨_, _, _, transport, ⟨layout.table, layout.used⟩, rfl, Nat.add_assoc _ _ _, ipv4, ipv6, rfl, rfl, rfl, rfl,
      fun short => ⟨_, (udpPacket_parsesBack_iff allocated datagram fits).mpr short⟩⟩
  | icmp a =>
    obtain ⟨e, refused⟩ | ⟨⟨f, failed⟩, -⟩ | ⟨type, code, m, accepted, fits, -, built⟩ := newIcmpPacket_cases allocated a
    · cases refused.symm.trans returned
    · cases failed.symm.trans returned
    cases built.symm.trans returned
    have transport : a.family.icmpType.IsTransport := by
      cases a.family <;> simp [AddressFamily.icmpType, HeaderType.IsTransport]
    have layout := transportPacket_layout allocated a.family a.direction a.ipInfo a.ipBytes (icmpProtocol a.family)
      transport.ne_none 8 a.icmpBytes fun _ => echoedMem m a
    obtain ⟨ipv4, ipv6⟩ := transportPacket_ip allocated a.family a.direction a.ipInfo a.ipBytes (icmpProtocol a.family)
      a.family.icmpType 8 a.icmpBytes fun _ => echoedMem m a
    refine ⟨_, _, _, transport, ⟨layout.table, layout.used⟩, rfl, accepted.ipBytes, ipv4, ipv6, ?_, ?_, ?_, ?_,
      fun short => ⟨_, (icmpPacket_parsesBack_iff accepted fits).mpr short⟩⟩
    · cases family : a.family <;> rfl
    · cases family : a.family <;> rfl
    · cases family : a.family <;> simp [icmpPacket, family, AddressFamily.icmpType, BuilderCall.family]
    · cases family : a.family <;> simp [icmpPacket, family, AddressFamily.icmpType, BuilderCall.family]

end BuilderCall

/-- A call that is not refused returns a packet that round-trips exactly when its arguments fit. -/
theorem builder_roundTrips_iff (allocated : Mem) (call : BuilderCall)
    (notRefused : ∀ e, call.run allocated ≠ .ok (.error e)) :
    (∃ p, call.run allocated = .ok (.ok p) ∧ call.RoundTrips p) ↔ call.Representable := by
  have returns {q : Packet} (returned : call.run allocated = .ok (.ok q)) :
      (∃ p, call.run allocated = .ok (.ok p) ∧ call.RoundTrips p) ↔ call.RoundTrips q := by
    simp [returned]
  have stops {f : Fault} (failed : call.run allocated = .error f) :
      ¬∃ p, call.run allocated = .ok (.ok p) ∧ call.RoundTrips p := by
    simp [failed]
  have tooLong {family : AddressFamily} {n : Nat} (long : 40 ≤ n) (overflow : ¬FitsIpHeader family n) : 65535 < n := by
    by_contra inside
    exact overflow fun _ => by rw [u16, Nat.mod_eq_of_lt (by omega)]; exact long
  cases call with
  | tcp a =>
    obtain ⟨e, refused⟩ | ⟨-, overflow, failed⟩ | ⟨accepted, fits, -, returned⟩ := newTcpPacket_cases allocated a
    · exact absurd refused (notRefused e)
    · refine iff_of_false (stops failed) fun representable => ?_
      have long : 40 ≤ a.ipBytes := by
        have : 20 ≤ ipHeaderMinLen a.family := by cases a.family <;> decide
        unfold TcpArgs.ipBytes TcpArgs.tcpHeaderBytes
        omega
      have := tooLong long overflow
      have := representable.length
      omega
    · exact (returns returned).trans (tcpPacket_roundTrips_iff allocated accepted fits)
  | udp a =>
    obtain ⟨e, refused⟩ | ⟨-, overflow, failed⟩ | ⟨datagram, fits, returned⟩ := newUdpPacket_cases allocated a
    · exact absurd refused (notRefused e)
    · refine iff_of_false (stops failed) fun representable => overflow fun six => ?_
      have := representable.length
      rw [u16, Nat.mod_eq_of_lt (by omega), UdpArgs.ipBytes, six]
      simp only [ipHeaderMinLen]
      omega
    · exact (returns returned).trans (udpPacket_roundTrips_iff allocated datagram fits)
  | icmp a =>
    obtain ⟨e, refused⟩ | ⟨⟨f, failed⟩, overflow⟩ | ⟨type, code, m, accepted, fits, echoFits, returned⟩ :=
      newIcmpPacket_cases allocated a
    · exact absurd refused (notRefused e)
    · exact iff_of_false (stops failed) fun representable => overflow ⟨representable.length, representable.echoed⟩
    · exact (returns returned).trans (icmpPacket_roundTrips_iff accepted fits echoFits)

def synSegment (keyword : EcnKeyword) : TcpArgs where
  family := .inet
  direction := .inbound
  ipInfo := { tos := keyword.tosSpec, flowLabel := 0, ttl := 0 }
  srcPort := 7
  dstPort := 8
  flags := ['S']
  startSequence := 0
  tcpPayloadBytes := 0
  ackSequence := 0
  window := 1000
  urgPtr := 0
  tcpOptions := some []

theorem synSegment_returns (keyword : EcnKeyword) :
    newTcpPacket (fun _ => 0) (synSegment keyword) = .ok (.ok (tcpPacket (fun _ => 0) (synSegment keyword))) := by
  have returns : ((newTcpPacket (fun _ => 0) (synSegment keyword)).toOption.bind Except.toOption).isSome := by
    cases keyword <;> decide +kernel
  obtain ⟨e, refused⟩ | ⟨-, -, failed⟩ | ⟨-, -, -, returned⟩ := newTcpPacket_cases (fun _ => 0) (synSegment keyword)
  · rw [refused] at returns
    cases returns
  · rw [failed] at returns
    cases returns
  · exact returned

theorem builder_roundTrips_iff_plainSyn :
    (∀ e, (BuilderCall.tcp (synSegment .noEcn)).run (fun _ => 0) ≠ .ok (.error e)) ∧
    ∃ p, (BuilderCall.tcp (synSegment .noEcn)).run (fun _ => 0) = .ok (.ok p) ∧
      (BuilderCall.tcp (synSegment .noEcn)).RoundTrips p := by
  have notRefused (e : String) : (BuilderCall.tcp (synSegment .noEcn)).run (fun _ => 0) ≠ .ok (.error e) := by
    rw [BuilderCall.run, synSegment_returns]
    simp
  refine ⟨notRefused, (builder_roundTrips_iff _ _ notRefused).mpr ?_⟩
  exact ⟨by decide, by decide, .inr (by decide), by decide, by decide, by decide⟩

theorem ect0Syn_not_roundTrips :
    ∃ p, (BuilderCall.tcp (synSegment .ect0)).run (fun _ => 0) = .ok (.ok p) ∧
      tosField p.buffer 0 .inet = 1 ∧ EcnKeyword.codepoint .ect0 = some 2 ∧
      ¬(BuilderCall.tcp (synSegment .ect0)).RoundTrips p := by
  refine ⟨_, synSegment_returns .ect0, by decide +kernel, rfl, ?_⟩
  rintro ⟨-, decodes⟩
  exact absurd (decodes.ip.ecn .ect0 rfl 2 rfl) (by decide +kernel)

end TcpFuzz
