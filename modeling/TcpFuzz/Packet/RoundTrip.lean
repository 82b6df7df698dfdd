import TcpFuzz.Packet.Built
import TcpFuzz.Packet.Lengths

/-! A packet that a builder returns parses with the requested headers, fields and payload exactly when the arguments
fit the fields they are stored in. -/

namespace TcpFuzz
open Bytes Mem

/-- Parsing the bytes of a packet gives back its header table and a payload of the given length. -/
def ParsesBack (p : Packet) (payloadBytes : Nat) : Prop :=
  ∃ q, parsePacket (packetNew p.buffer p.ipBytes) p.ipBytes .layer3Ip = .ok (.ok, q) ∧
    q.headers = p.headers ∧ packetPayloadLen q = .ok (payloadBytes : Int)

theorem Layout.headers_eq {p q : Packet} {hs : List Header} (layout : Layout p hs) (layout' : Layout q hs) :
    q.headers = p.headers :=
  Vector.toList_inj.mp (layout'.table.trans layout.table.symm)

theorem recorded_payloadLen {m : Mem} {inBytes : Nat} {ip last : Extent} {es : List Extent} (n : Nat)
    (wire : WirePacket m inBytes .layer3Ip (ip :: es)) (fits : (ip :: es).length ≤ packetMaxHeaders)
    (isIp : ip.type.IsIp) (found : (ip :: es).getLast? = some last) :
    packetPayloadLen (recorded .layer3Ip (packetNew m n) (ip :: es)) = .ok ((ip.totalBytes : Int) - last.inner) := by
  have fresh := packetNew_fresh m n
  have data := recorded_metadata fresh ⟨rfl, rfl, rfl, rfl, rfl, rfl⟩ wire fits
  have stops := recorded_packetEnd fresh data wire
  have payload := recorded_payload data wire found
  simp [packetPayloadLen, stops, payload, recordedLength, isIp, PacketLayer.headerBytes]

/-- A packet with an IP header and a transport header parses back exactly when its length fits
the 16 bits of the IP header. -/
theorem parsesBack_iff {p : Packet} {family : AddressFamily} {type : HeaderType} {proto headerBytes total : Nat}
    (layout : Layout p [⟨family.headerType, ipHeaderMinLen family, u16 p.ipBytes, some 0⟩,
      ⟨type, headerBytes, total, some (ipHeaderMinLen family)⟩])
    (length : p.ipBytes = ipHeaderMinLen family + total) (contained : headerBytes ≤ total)
    (header : IpHeaderAt p.buffer 0 family (u16 p.ipBytes) proto)
    (valid : ∀ stop, Wire p.buffer stop (.layer4 proto total) (ipHeaderMinLen family)
      [⟨type, ipHeaderMinLen family, headerBytes, total⟩])
    (only : ∀ stop n es, Wire p.buffer stop (.layer4 proto n) (ipHeaderMinLen family) es →
      es = [⟨type, ipHeaderMinLen family, headerBytes, n⟩]) :
    ParsesBack p (total - headerBytes) ↔ p.ipBytes ≤ 65535 := by
  have isIp : family.headerType.IsIp := by cases family <;> simp [AddressFamily.headerType, HeaderType.IsIp]
  have fresh := packetNew_fresh p.buffer p.ipBytes
  constructor
  · rintro ⟨q, accepted, -, payload⟩
    obtain ⟨es, wire, fits, rfl⟩ := (parsePacket_ok_iff fresh (Nat.le_refl _)).mp accepted
    obtain ⟨long, inside, rest, rfl, next⟩ := (wire_ipHeader_iff header).mp wire.2
    rw [Nat.zero_add] at next
    obtain rfl := only _ _ _ next
    have recordedLen := recorded_payloadLen p.ipBytes wire fits isIp (List.getLast?_cons_cons.trans List.getLast?_singleton)
    have lengths := Except.ok.inj (recordedLen.symm.trans payload)
    simp only [Extent.inner] at lengths
    have bound : u16 p.ipBytes < 65536 := Nat.mod_lt _ (by decide)
    omega
  · intro small
    have same : u16 p.ipBytes = p.ipBytes := Nat.mod_eq_of_lt (by omega)
    rw [same] at header layout
    have wire : WirePacket p.buffer p.ipBytes .layer3Ip
        [⟨family.headerType, 0, ipHeaderMinLen family, p.ipBytes⟩,
         ⟨type, ipHeaderMinLen family, headerBytes, total⟩] := by
      refine ⟨Nat.zero_le _, (wire_ipHeader_iff header).mpr ⟨by omega, by omega, _, rfl, ?_⟩⟩
      rw [Nat.zero_add, show p.ipBytes - ipHeaderMinLen family = total by omega]
      exact valid _
    have fits : [Extent.mk family.headerType 0 (ipHeaderMinLen family) p.ipBytes,
        ⟨type, ipHeaderMinLen family, headerBytes, total⟩].length ≤ packetMaxHeaders := by
      simp [packetMaxHeaders]
    have data := recorded_metadata fresh ⟨rfl, rfl, rfl, rfl, rfl, rfl⟩ wire fits
    refine ⟨_, (parsePacket_ok_iff fresh (Nat.le_refl _)).mpr ⟨_, wire, fits, rfl⟩,
      layout.headers_eq data.layout, ?_⟩
    rw [recorded_payloadLen p.ipBytes wire fits isIp (List.getLast?_cons_cons.trans List.getLast?_singleton)]
    congr 1
    simp only [Extent.inner]
    omega

section Transport

variable {allocated : Mem} {family : AddressFamily} {direction : Direction} {info : IpInfo}
  {ipBytes protocol : Nat}

def ipMem (allocated : Mem) (family : AddressFamily) (info : IpInfo) (ipBytes protocol : Nat) : Mem :=
  ipHeaderMem (allocated.zero 0 ipBytes) 0 family ipBytes info.tos.value.toNat info.flowLabel.toNat
    info.ttl.toNat protocol

theorem transportPacket_parsesBack_iff {type : HeaderType} {headerBytes total : Nat} {finish : Mem → Mem}
    (used : type ≠ .none) (length : ipBytes = ipHeaderMinLen family + total) (contained : headerBytes ≤ total)
    (byte : protocol < 256) (fits : FitsIpHeader family ipBytes)
    (frame : ∀ j < ipHeaderMinLen family, (finish (ipMem allocated family info ipBytes protocol)).get8 j =
      (ipMem allocated family info ipBytes protocol).get8 j)
    (format : ∀ stop n es, Wire (finish (ipMem allocated family info ipBytes protocol)) stop
      (.layer4 protocol n) (ipHeaderMinLen family) es →
      es = [⟨type, ipHeaderMinLen family, headerBytes, n⟩])
    (valid : ∀ stop, Wire (finish (ipMem allocated family info ipBytes protocol)) stop
      (.layer4 protocol total) (ipHeaderMinLen family) [⟨type, ipHeaderMinLen family, headerBytes, total⟩]) :
    ParsesBack (transportPacket allocated family direction info ipBytes protocol type headerBytes total finish)
      (total - headerBytes) ↔ ipBytes ≤ 65535 := by
  have layout := transportPacket_layout allocated family direction info ipBytes protocol used headerBytes total finish
  have header : IpHeaderAt (finish (ipMem allocated family info ipBytes protocol)) 0 family (u16 ipBytes) protocol :=
    (ipHeaderMem_at (allocated.zero 0 ipBytes) 0 family ipBytes info.tos.value.toNat info.flowLabel.toNat
      info.ttl.toNat protocol fits byte info.tos.value.toNat_lt).congr fun j _ inside => frame j (by omega)
  exact parsesBack_iff layout length contained header valid format

end Transport

/-- The IP header holds what the script asks for; an ECN keyword gives its code point. -/
structure IpDecodes (m : Mem) (family : AddressFamily) (info : IpInfo) : Prop where
  tos : tosField m 0 family = info.tos.value.toNat
  ttl : ttlField m 0 family = if info.ttl ≠ 0 then info.ttl.toNat else ttlCheckNone
  flowLabel : family = .inet6 → flowLabelField m 0 = info.flowLabel.toNat
  ecn : ∀ k : EcnKeyword, info.tos = k.tosSpec → ∀ c, k.codepoint = some c → tosField m 0 family % 4 = c

/-- The flow label fits 20 bits, and the ECN keyword is none of the two whose numbers in
`enum ip_ecn_t` differ from their code points. -/
def IpInfo.Representable (family : AddressFamily) (info : IpInfo) : Prop :=
  (family = .inet6 → info.flowLabel.toNat < 0x100000) ∧
    info.tos ≠ EcnKeyword.ect0.tosSpec ∧ info.tos ≠ EcnKeyword.ect1.tosSpec

theorem ipDecodes_iff {m : Mem} {family : AddressFamily} {info : IpInfo}
    (tos : tosField m 0 family = info.tos.value.toNat)
    (ttl : ttlField m 0 family = if info.ttl.toNat ≠ 0 then info.ttl.toNat else ttlCheckNone)
    (flowLabel : family = .inet6 → flowLabelField m 0 = info.flowLabel.toNat % 0x100000) :
    IpDecodes m family info ↔ info.Representable family := by
  have ttl' : ttlField m 0 family = if info.ttl ≠ 0 then info.ttl.toNat else ttlCheckNone := by
    rw [ttl]
    by_cases zero : info.ttl = 0
    · simp [zero]
    · have nonzero : info.ttl.toNat ≠ 0 := fun h => zero (UInt8.toNat_inj.mp h)
      rw [if_pos zero, if_pos nonzero]
  constructor
  · rintro ⟨-, -, label, ecn⟩
    refine ⟨fun six => ?_, fun ect0 => ?_, fun ect1 => ?_⟩
    · have := label six
      have := flowLabel six
      omega
    · have := ecn .ect0 ect0 2 rfl
      rw [tos, ect0] at this
      exact absurd this (by decide)
    · have := ecn .ect1 ect1 1 rfl
      rw [tos, ect1] at this
      exact absurd this (by decide)
  · rintro ⟨label, ect0, ect1⟩
    refine ⟨tos, ttl', fun six => ?_, fun k spec c found => ?_⟩
    · rw [flowLabel six, Nat.mod_eq_of_lt (label six)]
    · rw [tos, spec]
      cases k with
      | noEcn | ce => cases found; decide
      | ect0 => exact absurd spec ect0
      | ect1 => exact absurd spec ect1
      | ect01 => cases found

theorem ipMem_decodes_iff {m allocated : Mem} {family : AddressFamily} {info : IpInfo} {ipBytes protocol : Nat}
    (same : ∀ j < ipHeaderMinLen family, m.get8 j = (ipMem allocated family info ipBytes protocol).get8 j) :
    IpDecodes m family info ↔ info.Representable family := by
  let base := allocated.zero 0 ipBytes
  have tos := ipHeaderMem_tos base 0 family ipBytes _ info.flowLabel.toNat info.ttl.toNat protocol
    info.tos.value.toNat_lt
  have ttl := ipHeaderMem_ttl base 0 family ipBytes info.tos.value.toNat info.flowLabel.toNat _ protocol
    info.ttl.toNat_lt
  have flowLabel := ipHeaderMem_flowLabel base 0 ipBytes info.tos.value.toNat info.flowLabel.toNat
    info.ttl.toNat protocol
  unfold ipMem at same
  refine ipDecodes_iff ?_ ?_ fun six => ?_
  · cases family <;> simp only [tosField, ipHeaderMinLen] at * <;> simpa (disch := omega) only [same] using tos
  · cases family <;> simp only [ttlField, ipHeaderMinLen] at * <;> simpa (disch := omega) only [same] using ttl
  · subst six
    simp only [flowLabelField, be16, ipHeaderMinLen] at *
    simpa (disch := omega) only [same] using flowLabel

def tcpFlagIndex : Char → Option Nat
  | 'F' => some 0
  | 'S' => some 1
  | 'R' => some 2
  | 'P' => some 3
  | '.' => some 4
  | 'U' => some 5
  | 'E' => some 6
  | 'W' => some 7
  | _ => none

structure TcpDecodes (a : TcpArgs) (p : Packet) : Prop where
  ip : IpDecodes p.buffer a.family a.ipInfo
  srcPort : p.buffer.be16 (ipHeaderMinLen a.family) = a.srcPort.toNat
  dstPort : p.buffer.be16 (ipHeaderMinLen a.family + 2) = a.dstPort.toNat
  seq : p.buffer.be32 (ipHeaderMinLen a.family + 4) = a.startSequence.toNat
  ackSeq : p.buffer.be32 (ipHeaderMinLen a.family + 8) = a.ackSequence.toNat
  window : p.flags.winNocheck = decide (a.window = -1) ∧
    (a.window ≠ -1 → (p.buffer.be16 (ipHeaderMinLen a.family + 14) : Int) = a.window.toInt)
  urgPtr : p.buffer.be16 (ipHeaderMinLen a.family + 18) = a.urgPtr.toNat
  flags : ∀ c ∈ a.flags, ∃ bit, tcpFlagIndex c = some bit ∧
    p.buffer.get8 (ipHeaderMinLen a.family + 13) / 2 ^ bit % 2 = 1
  noOtherFlags : ∀ c bit, tcpFlagIndex c = some bit → c ∉ a.flags →
    p.buffer.get8 (ipHeaderMinLen a.family + 13) / 2 ^ bit % 2 = 0
  options : p.flags.optionsNocheck = a.tcpOptions.isNone ∧
    p.buffer.bytes (ipHeaderMinLen a.family + 20) a.optionBytes.length = a.optionBytes

structure TcpArgs.Representable (a : TcpArgs) : Prop where
  length : a.ipBytes ≤ 65535
  flags : 'C' ∉ a.flags
  window : a.window = -1 ∨ 0 ≤ a.window.toInt ∧ a.window.toInt ≤ 65535
  ipInfo : a.ipInfo.Representable a.family

theorem tcpFlagBit_le (c : Char) (flags : List Char) : tcpFlagBit c flags ≤ 1 := by
  unfold tcpFlagBit
  split <;> omega

theorem tcpFlagsByte_bit {c : Char} {bit : Nat} (index : tcpFlagIndex c = some bit) (flags : List Char) :
    tcpFlagsByte flags / 2 ^ bit % 2 = tcpFlagBit c flags := by
  have f := tcpFlagBit_le 'F' flags
  have s := tcpFlagBit_le 'S' flags
  have r := tcpFlagBit_le 'R' flags
  have p := tcpFlagBit_le 'P' flags
  have a := tcpFlagBit_le '.' flags
  have u := tcpFlagBit_le 'U' flags
  have e := tcpFlagBit_le 'E' flags
  have w := tcpFlagBit_le 'W' flags
  unfold tcpFlagIndex at index
  split at index <;> cases index <;> simp only [tcpFlagsByte] <;> omega

theorem tcpFlagsByte_lt (flags : List Char) : tcpFlagsByte flags < 256 := by
  have f := tcpFlagBit_le 'F' flags
  have s := tcpFlagBit_le 'S' flags
  have r := tcpFlagBit_le 'R' flags
  have p := tcpFlagBit_le 'P' flags
  have a := tcpFlagBit_le '.' flags
  have u := tcpFlagBit_le 'U' flags
  have e := tcpFlagBit_le 'E' flags
  have w := tcpFlagBit_le 'W' flags
  unfold tcpFlagsByte
  omega

theorem tcpFlagIndex_of_valid {c : Char} (valid : c ∈ validTcpFlags) :
    c = 'C' ∨ ∃ bit, tcpFlagIndex c = some bit := by
  simp only [validTcpFlags, List.mem_cons, List.not_mem_nil, or_false] at valid
  rcases valid with rfl | rfl | rfl | rfl | rfl | rfl | rfl | rfl | rfl <;> simp [tcpFlagIndex]

section Tcp

variable (m : Mem) (tcp : Nat) (a : TcpArgs)

theorem setTcpHeader_frame {j : Nat} (before : j < tcp) : (setTcpHeader m tcp a).get8 j = m.get8 j := by
  simp (disch := omega) only [setTcpHeader, get8_write_ne, get8_put8_ne, get8_putBe16_ne, get8_putBe32_ne]

theorem setTcpHeader_doff (header : a.tcpHeaderBytes ≤ 60) :
    tcpDoff (setTcpHeader m tcp a) tcp = a.tcpHeaderBytes / 4 := by
  simp (disch := omega) only [tcpDoff, setTcpHeader, get8_write_ne, get8_put8_ne, get8_putBe16_ne,
    get8_putBe32_ne, get8_put8_self]
  omega

theorem setTcpHeader_flags : (setTcpHeader m tcp a).get8 (tcp + 13) = tcpFlagsByte a.flags := by
  have small := tcpFlagsByte_lt a.flags
  simp (disch := omega) only [setTcpHeader, get8_write_ne, get8_put8_self, Nat.mod_eq_of_lt]

theorem setTcpHeader_window : (setTcpHeader m tcp a).be16 (tcp + 14) =
    if a.window = -1 then 0 else (a.window.toInt % 65536).toNat := by
  simp (disch := omega) only [setTcpHeader, be16_write_ne, be16_put8_ne, be16_putBe16_ne, be16_putBe16_self]
  split <;> omega

theorem setTcpHeader_fields :
    (setTcpHeader m tcp a).be16 tcp = a.srcPort.toNat ∧
    (setTcpHeader m tcp a).be16 (tcp + 2) = a.dstPort.toNat ∧
    (setTcpHeader m tcp a).be32 (tcp + 4) = a.startSequence.toNat ∧
    (setTcpHeader m tcp a).be32 (tcp + 8) = a.ackSequence.toNat ∧
    (setTcpHeader m tcp a).be16 (tcp + 18) = a.urgPtr.toNat := by
  have src := a.srcPort.toNat_lt
  have dst := a.dstPort.toNat_lt
  have seq := a.startSequence.toNat_lt
  have ack := a.ackSequence.toNat_lt
  have urg := a.urgPtr.toNat_lt
  refine ⟨?_, ?_, ?_, ?_, ?_⟩ <;>
    simp (disch := omega) only [setTcpHeader, be16_write_ne, be16_put8_ne, be16_putBe16_ne, be16_putBe32_ne,
      be32_write_ne, be32_put8_ne, be32_putBe16_ne, be32_putBe32_ne, be16_putBe16_self, be32_putBe32_self,
      Nat.mod_eq_of_lt]

theorem setTcpHeader_options :
    (setTcpHeader m tcp a).bytes (tcp + 20) a.optionBytes.length = a.optionBytes :=
  bytes_write_self _ _ _

end Tcp

theorem tcpPacket_parsesBack_iff {a : TcpArgs} (allocated : Mem) (accepted : a.Accepted)
    (fits : FitsIpHeader a.family a.ipBytes) :
    ParsesBack (tcpPacket allocated a) a.tcpPayloadBytes.toNat ↔ a.ipBytes ≤ 65535 := by
  obtain ⟨padded, header, segment, validFlags⟩ := accepted
  have aligned : a.tcpHeaderBytes / 4 * 4 = a.tcpHeaderBytes := by unfold TcpArgs.tcpHeaderBytes; omega
  have long : 20 ≤ a.tcpHeaderBytes := by unfold TcpArgs.tcpHeaderBytes; omega
  let m := ipMem allocated a.family a.ipInfo a.ipBytes 6
  have frame := fun j (inside : j < ipHeaderMinLen a.family) =>
    setTcpHeader_frame m (ipHeaderMinLen a.family) a inside
  have doff : tcpDoff (setTcpHeader m (ipHeaderMinLen a.family) a) (ipHeaderMinLen a.family) * 4 =
      a.tcpHeaderBytes := by
    rw [setTcpHeader_doff m _ a header, aligned]
  have tcpHeader : TcpHeader (setTcpHeader m (ipHeaderMinLen a.family) a)
      (a.tcpHeaderBytes + a.tcpPayloadBytes.toNat) (ipHeaderMinLen a.family) := ⟨by omega, by omega⟩
  have parses : ParsesBack (tcpPacket allocated a) (a.tcpHeaderBytes + a.tcpPayloadBytes.toNat - a.tcpHeaderBytes) ↔
      a.ipBytes ≤ 65535 := by
    change ParsesBack (transportPacket allocated a.family a.direction a.ipInfo a.ipBytes 6 .tcp a.tcpHeaderBytes
      (a.tcpHeaderBytes + a.tcpPayloadBytes.toNat) fun m => setTcpHeader m (ipHeaderMinLen a.family) a) _ ↔ _
    refine transportPacket_parsesBack_iff (by simp) (by rw [TcpArgs.ipBytes]; omega) (Nat.le_add_right _ _)
      (by decide) fits frame (fun stop n es wire => ?_) fun stop => ?_
    · rw [(wire_tcp_iff.mp wire).2, ← doff]
    · exact wire_tcp_iff.mpr ⟨tcpHeader, by rw [← doff]⟩
  rwa [Nat.add_sub_cancel_left] at parses

theorem tcpPacket_roundTrips_iff {a : TcpArgs} (allocated : Mem) (accepted : a.Accepted)
    (fits : FitsIpHeader a.family a.ipBytes) :
    ParsesBack (tcpPacket allocated a) a.tcpPayloadBytes.toNat ∧ TcpDecodes a (tcpPacket allocated a) ↔
      a.Representable := by
  have parses := tcpPacket_parsesBack_iff allocated accepted fits
  obtain ⟨padded, header, segment, validFlags⟩ := accepted
  let m := ipMem allocated a.family a.ipInfo a.ipBytes 6
  have buffer : (tcpPacket allocated a).buffer = setTcpHeader m (ipHeaderMinLen a.family) a := rfl
  have frame := fun j (inside : j < ipHeaderMinLen a.family) =>
    setTcpHeader_frame m (ipHeaderMinLen a.family) a inside
  have ip : IpDecodes (tcpPacket allocated a).buffer a.family a.ipInfo ↔ a.ipInfo.Representable a.family :=
    ipMem_decodes_iff frame
  obtain ⟨srcPort, dstPort, seq, ackSeq, urgPtr⟩ := setTcpHeader_fields m (ipHeaderMinLen a.family) a
  have windowField := setTcpHeader_window m (ipHeaderMinLen a.family) a
  have flagsField := setTcpHeader_flags m (ipHeaderMinLen a.family) a
  constructor
  · rintro ⟨parsesBack, decodes⟩
    refine ⟨parses.mp parsesBack, fun c => ?_, ?_, ip.mp decodes.ip⟩
    · obtain ⟨bit, index, -⟩ := decodes.flags 'C' c
      cases index
    · by_cases unchecked : a.window = -1
      · exact .inl unchecked
      · have value := decodes.window.2 unchecked
        rw [buffer, windowField, if_neg unchecked] at value
        omega
  · rintro ⟨length, flags, window, info⟩
    refine ⟨parses.mpr length, ip.mpr info, srcPort, dstPort, seq, ackSeq, ⟨rfl, fun checked => ?_⟩, urgPtr,
      fun c member => ?_, fun c bit index absent => ?_, rfl, setTcpHeader_options m _ a⟩
    · rw [buffer, windowField, if_neg checked]
      have inside := window.resolve_left checked
      omega
    · have valid : c ∈ validTcpFlags := by
        by_contra invalid
        have none := List.find?_eq_none.mp validFlags c member
        simp [invalid] at none
      obtain rfl | ⟨bit, index⟩ := tcpFlagIndex_of_valid valid
      · exact absurd member flags
      · exact ⟨bit, index, by rw [buffer, flagsField, tcpFlagsByte_bit index, tcpFlagBit, if_pos member]⟩
    · rw [buffer, flagsField, tcpFlagsByte_bit index, tcpFlagBit, if_neg absent]

structure UdpDecodes (a : UdpArgs) (p : Packet) : Prop where
  ip : IpDecodes p.buffer a.family a.ipInfo
  srcPort : p.buffer.be16 (ipHeaderMinLen a.family) = a.srcPort.toNat
  dstPort : p.buffer.be16 (ipHeaderMinLen a.family + 2) = a.dstPort.toNat
  length : udpLen p.buffer (ipHeaderMinLen a.family) = 8 + a.udpPayloadBytes.toNat

structure UdpArgs.Representable (a : UdpArgs) : Prop where
  length : a.ipBytes ≤ 65535
  ipInfo : a.ipInfo.Representable a.family

section Udp

variable (m : Mem) (udp : Nat) (a : UdpArgs)

theorem setUdpHeader_frame {j : Nat} (before : j < udp) : (setUdpHeader m udp a).get8 j = m.get8 j := by
  simp (disch := omega) only [setUdpHeader, get8_putBe16_ne]

theorem setUdpHeader_fields (short : 8 + a.udpPayloadBytes.toNat < 65536) :
    (setUdpHeader m udp a).be16 udp = a.srcPort.toNat ∧
    (setUdpHeader m udp a).be16 (udp + 2) = a.dstPort.toNat ∧
    udpLen (setUdpHeader m udp a) udp = 8 + a.udpPayloadBytes.toNat := by
  have src := a.srcPort.toNat_lt
  have dst := a.dstPort.toNat_lt
  refine ⟨?_, ?_, ?_⟩ <;>
    simp (disch := omega) only [udpLen, setUdpHeader, be16_putBe16_ne, be16_putBe16_self, Nat.mod_eq_of_lt]

end Udp

theorem udpPacket_parsesBack_iff {a : UdpArgs} (allocated : Mem) (datagram : a.ipBytes ≤ 65536)
    (fits : FitsIpHeader a.family a.ipBytes) :
    ParsesBack (udpPacket allocated a) a.udpPayloadBytes.toNat ↔ a.ipBytes ≤ 65535 := by
  have headerLen : 20 ≤ ipHeaderMinLen a.family := by cases a.family <;> decide
  let m := ipMem allocated a.family a.ipInfo a.ipBytes 17
  have frame := fun j (inside : j < ipHeaderMinLen a.family) =>
    setUdpHeader_frame m (ipHeaderMinLen a.family) a inside
  obtain ⟨-, -, length⟩ := setUdpHeader_fields m (ipHeaderMinLen a.family) a
    (by rw [UdpArgs.ipBytes] at datagram; omega)
  have parses : ParsesBack (udpPacket allocated a) (8 + a.udpPayloadBytes.toNat - 8) ↔ a.ipBytes ≤ 65535 := by
    change ParsesBack (transportPacket allocated a.family a.direction a.ipInfo a.ipBytes 17 .udp 8
      (8 + a.udpPayloadBytes.toNat) fun m => setUdpHeader m (ipHeaderMinLen a.family) a) _ ↔ _
    refine transportPacket_parsesBack_iff (by simp) (by rw [UdpArgs.ipBytes]; omega) (Nat.le_add_right _ _)
      (by decide) fits frame (fun stop n es wire => (wire_udp_iff.mp wire).2) fun stop => ?_
    exact wire_udp_iff.mpr ⟨⟨by omega, length⟩, rfl⟩
  rwa [Nat.add_sub_cancel_left] at parses

theorem udpPacket_roundTrips_iff {a : UdpArgs} (allocated : Mem) (datagram : a.ipBytes ≤ 65536)
    (fits : FitsIpHeader a.family a.ipBytes) :
    ParsesBack (udpPacket allocated a) a.udpPayloadBytes.toNat ∧ UdpDecodes a (udpPacket allocated a) ↔
      a.Representable := by
  have parses := udpPacket_parsesBack_iff allocated datagram fits
  have headerLen : 20 ≤ ipHeaderMinLen a.family := by cases a.family <;> decide
  let m := ipMem allocated a.family a.ipInfo a.ipBytes 17
  have frame := fun j (inside : j < ipHeaderMinLen a.family) =>
    setUdpHeader_frame m (ipHeaderMinLen a.family) a inside
  obtain ⟨srcPort, dstPort, length⟩ := setUdpHeader_fields m (ipHeaderMinLen a.family) a
    (by rw [UdpArgs.ipBytes] at datagram; omega)
  have ip : IpDecodes (udpPacket allocated a).buffer a.family a.ipInfo ↔ a.ipInfo.Representable a.family :=
    ipMem_decodes_iff frame
  constructor
  · rintro ⟨parsesBack, decodes⟩
    exact ⟨parses.mp parsesBack, ip.mp decodes.ip⟩
  · rintro ⟨inside, info⟩
    exact ⟨parses.mpr inside, ip.mpr info, srcPort, dstPort, length⟩

end TcpFuzz
