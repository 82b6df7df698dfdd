import TcpFuzz.Fuzz.Packet
import TcpFuzz.Packet.Metadata

/-! A generated packet parses with the headers it was built from and has the checksums that were put into it. -/

namespace TcpFuzz
open Bytes Mem

/-! ### What is parsed and checked -/

def generatedExtents (off dataLength : Nat) : List Extent :=
  [⟨.ipv4, 0, 20, 20 + off * 4 + dataLength⟩, ⟨.tcp, 20, off * 4, off * 4 + dataLength⟩]

structure GeneratedFields (m : Mem) (off dataLength : Nat) : Prop where
  first : m.get8 0 = 0x45
  totLen : ipv4TotLen m 0 = 20 + off * 4 + dataLength
  fragOff : ipv4FragOff m 0 = 0
  protocol : ipv4Protocol m 0 = 6
  doff : tcpDoff m 20 = off

theorem offsetByte_high : ∀ off < 16, (UInt8.ofNat off <<< 4 ||| UInt8.ofNat off).toNat / 16 = off := by decide

section Generated

variable {off dataLength : Nat}

theorem Generated.fields (g : Generated) (allocated : Mem) : GeneratedFields (allocated.write 0 g.data) g.off g.dataLength := by
  have byte := offsetByte_high g.off (by have := g.high; omega)
  have bound : g.total < 2 ^ 16 := by
    have := g.high
    have := g.short
    unfold Generated.total
    omega
  obtain ⟨b0, b2, b3, b6, b7, b9, b32⟩ :=
    headerBytes_getD g.seqLength g.window g.urgent g.total (UInt8.ofNat g.off <<< 4 ||| UInt8.ofNat g.off)
  have read (k : Nat) (inside : k < 40) : get8 (allocated.write 0 g.data) k = (g.headers.getD k 0).toNat :=
    get8_write_front allocated (g.options ++ g.payload) (Nat.lt_of_lt_of_eq inside g.headers_length.symm)
  constructor
  case first =>
    rw [read 0 (by decide), Generated.headers, b0]
    rfl
  case totLen =>
    rw [ipv4TotLen, be16, read 2 (by decide), read 3 (by decide), Generated.headers, b2, b3, UInt8.toNat_ofNat',
      UInt8.toNat_ofNat']
    show _ = g.total
    omega
  case fragOff =>
    rw [ipv4FragOff, be16, read 6 (by decide), read 7 (by decide), Generated.headers, b6, b7]
    rfl
  case protocol =>
    rw [ipv4Protocol, read 9 (by decide), Generated.headers, b9]
    rfl
  case doff => rw [tcpDoff, read 32 (by decide), Generated.headers, b32, byte]

theorem Generated.length_ge (g : Generated) : 20 + g.off * 4 + g.dataLength ≤ g.data.length := by
  have := g.enough
  rw [g.data_length]
  omega

theorem GeneratedFields.congr {m m' : Mem} (fields : GeneratedFields m off dataLength)
    (same : ∀ j, j < 10 ∨ j = 32 → m'.get8 j = m.get8 j) : GeneratedFields m' off dataLength := by
  obtain ⟨first, totLen, fragOff, protocol, doff⟩ := fields
  constructor
  case first => exact (same 0 (by decide)).trans first
  case totLen => exact (be16_of_get8 (same 2 (by decide)) (same 3 (by decide))).trans totLen
  case fragOff => exact (be16_of_get8 (same 6 (by decide)) (same 7 (by decide))).trans fragOff
  case protocol => exact (same 9 (by decide)).trans protocol
  case doff => exact (congrArg (· / 16) (same 32 (by decide))).trans doff

theorem GeneratedFields.headerLen {m : Mem} (fields : GeneratedFields m off dataLength) :
    ipv4HeaderLen m 0 = 20 ∧ ipVersion m 0 = 4 := by
  rw [ipv4HeaderLen, ipVersion, fields.first]
  exact ⟨rfl, rfl⟩

theorem GeneratedFields.wire {m : Mem} {stop : Nat} (fields : GeneratedFields m off dataLength) (low : 5 ≤ off)
    (enough : 20 + off * 4 + dataLength ≤ stop) : WirePacket m stop .layer3Ip (generatedExtents off dataLength) := by
  obtain ⟨length, version⟩ := fields.headerLen
  refine ⟨Nat.zero_le _, ?_⟩
  show Wire m stop .layer3 0 (generatedExtents off dataLength)
  refine .layer3Ipv4 (by omega) version ?_
  have tcp : Wire m stop (.layer4 6 (off * 4 + dataLength)) 20 [⟨.tcp, 20, off * 4, off * 4 + dataLength⟩] := by
    have header : TcpHeader m (off * 4 + dataLength) 20 := by
      constructor
      · rw [fields.doff]
        exact low
      · rw [fields.doff]
        omega
    have inside : Wire m stop _ _ _ := .tcp header
    rwa [fields.doff] at inside
  refine wire_ipv4_iff.mpr ⟨⟨by omega, ?_, ?_, ?_⟩, [⟨.tcp, 20, off * 4, off * 4 + dataLength⟩], ?_, ?_⟩
  · rw [length, fields.totLen]
    omega
  · rw [fields.totLen]
    omega
  · rw [fields.fragOff]
  · rw [length, fields.totLen]
    rfl
  · rw [length, fields.totLen, fields.protocol]
    show Wire m stop (.layer4 6 (20 + off * 4 + dataLength - 20)) 20 _
    rwa [show 20 + off * 4 + dataLength - 20 = off * 4 + dataLength by omega]

end Generated

theorem recorded_generated {m : Mem} {n off dataLength : Nat} (low : 5 ≤ off)
    (wire : WirePacket m n .layer3Ip (generatedExtents off dataLength)) :
    let q := recorded .layer3Ip (packetNew m n) (generatedExtents off dataLength)
    Layout q ((generatedExtents off dataLength).map Extent.header) ∧ q.buffer = m ∧ q.bufferBytes = n ∧
      q.ipv4 = some 0 ∧ q.tcp = some 20 ∧ q.ipBytes = 20 + off * 4 + dataLength := by
  intro q
  have metadata : Metadata q n (generatedExtents off dataLength) :=
    recorded_metadata (packetNew_fresh m n) ⟨rfl, rfl, rfl, rfl, rfl, rfl⟩ wire (Nat.le_add_left 2 4)
  obtain ⟨last, isLast, -, tcp, -⟩ := metadata.transport
  obtain ⟨ip, isIp, network⟩ := metadata.network
  obtain rfl : last = ⟨.tcp, 20, off * 4, off * 4 + dataLength⟩ := (Option.some.inj isLast).symm
  obtain rfl : ip = ⟨.ipv4, 0, 20, 20 + off * 4 + dataLength⟩ := (Option.some.inj isIp).symm
  obtain ⟨buffer, bufferBytes, -⟩ := parsed_frame (p := PacketLayer.started .layer3Ip (packetNew m n)) wire.2.nested
  refine ⟨metadata.layout, buffer, bufferBytes, ?_, tcp, ?_⟩
  · rcases network with ⟨-, found, -⟩ | ⟨other, -⟩
    · exact found
    · cases other
  · have positive : ∀ e ∈ generatedExtents off dataLength, 0 < e.headerBytes := by
      intro e member
      simp only [generatedExtents, List.mem_cons, List.not_mem_nil, or_false] at member
      rcases member with rfl | rfl
      · exact Nat.zero_lt_succ _
      · show 0 < off * 4
        omega
    refine (parsed_ipBytes wire.2.nested positive).trans ?_
    simp [generatedExtents, recordedLength, packetNew, PacketLayer.started, HeaderType.IsIp]

section Checksums

variable {m : Mem} {off dataLength : Nat}

def checkedMem (m : Mem) (l4Bytes : Nat) : Mem :=
  fillCheck (setIpv4Check m 0) 36 fun m => tcpUdpV4Checksum m 0 6 20 l4Bytes

theorem checkedMem_frame (l4Bytes : Nat) {j : Nat} (apart : j < 10 ∨ 12 ≤ j) (apart' : j < 36 ∨ 38 ≤ j) :
    (checkedMem m l4Bytes).get8 j = m.get8 j := by
  rw [checkedMem, get8_fillCheck_ne _ _ (by omega), setIpv4Check_frame _ (by omega)]

theorem checksumPacket_generated {q : Packet} (fields : GeneratedFields q.buffer off dataLength) (low : 5 ≤ off)
    (ipv4 : q.ipv4 = some 0) (tcp : q.tcp = some 20) (ipBytes : q.ipBytes = 20 + off * 4 + dataLength) :
    checksumPacket q = .ok { q with buffer := checkedMem q.buffer (off * 4 + dataLength) } := by
  have kept : GeneratedFields (setIpv4Check q.buffer 0) off dataLength :=
    fields.congr fun j inside => setIpv4Check_frame _ (by omega)
  have longer : ¬20 + off * 4 + dataLength ≤ 20 := by omega
  have l4Bytes : 20 + off * 4 + dataLength - 20 = off * 4 + dataLength := by omega
  have starts : checksumPacket q = checksumIpv4Packet q 0 := by
    unfold checksumPacket
    rw [ipv4]
  rw [starts, checksumIpv4Packet]
  simp only [kept.totLen, kept.headerLen.1, if_neg longer, l4Bytes]
  rw [assertThat_ok (Nat.le_of_eq ipBytes.symm), ok_bind]
  unfold checksumLayer4
  simp only
  rw [tcp]
  rfl

theorem checkedMem_verifies (fields : GeneratedFields m off dataLength) (low : 5 ≤ off) (high : off ≤ 15)
    (short : dataLength < 10000) :
    ipv4Checksum (checkedMem m (off * 4 + dataLength)) 0 20 = 0 ∧
      tcpUdpV4Checksum (checkedMem m (off * 4 + dataLength)) 0 6 20 (off * 4 + dataLength) = 0 := by
  obtain ⟨length, -⟩ := fields.headerLen
  constructor
  · refine (ipv4Checksum_congr fun j _ upper => ?_).trans (setIpv4Check_verifies length)
    exact get8_fillCheck_ne _ _ (by omega)
  · have inside : 2 * 8 + 2 ≤ off * 4 + dataLength := by omega
    have bound : off * 4 + dataLength < 2 ^ 16 := by omega
    generalize off * 4 + dataLength = l4Bytes at inside bound
    have field : 36 = 20 + 2 * 8 := rfl
    rw [checkedMem, field]
    exact tcpUdpV4_fillCheck_verifies (by decide) inside bound (by decide) (by decide)

end Checksums

/-! ### The packet -/

theorem Generated.parses (g : Generated) {m : Mem} (fields : GeneratedFields m g.off g.dataLength) :
    parsePacket (packetNew m g.data.length) g.data.length .layer3Ip =
      .ok (.ok, recorded .layer3Ip (packetNew m g.data.length) (generatedExtents g.off g.dataLength)) :=
  (parsePacket_ok_iff (packetNew_fresh m g.data.length) (Nat.le_refl _)).mpr
    ⟨_, fields.wire g.low g.length_ge, Nat.le_add_left 2 4, rfl⟩

def generatedPacket (allocated : Mem) (g : Generated) : Packet :=
  { recorded .layer3Ip (packetNew (allocated.write 0 g.data) g.data.length) (generatedExtents g.off g.dataLength) with
    buffer := checkedMem (allocated.write 0 g.data) (g.off * 4 + g.dataLength)
    direction := .inbound }

theorem generatedPacket_fields (allocated : Mem) (g : Generated) :
    GeneratedFields (generatedPacket allocated g).buffer g.off g.dataLength :=
  (g.fields allocated).congr fun _ inside => checkedMem_frame _ (by omega) (by omega)

theorem generatedPacket_recorded (allocated : Mem) (g : Generated) :
    let p := generatedPacket allocated g
    Layout p ((generatedExtents g.off g.dataLength).map Extent.header) ∧ p.bufferBytes = g.data.length ∧
      p.ipv4 = some 0 ∧ p.tcp = some 20 ∧ p.ipBytes = g.total := by
  obtain ⟨layout, -, bufferBytes, ipv4, tcp, ipBytes⟩ :=
    recorded_generated g.low ((g.fields allocated).wire g.low g.length_ge)
  exact ⟨⟨layout.1, layout.2⟩, bufferBytes, ipv4, tcp, ipBytes⟩

theorem fuzzToPacket_run (allocated : Mem) {isFuzzWithoutDependency isFuzzOptions isFuzzData : Bool} {s s' : Fuzzer}
    {g : Generated} (pushed : fuzzData isFuzzWithoutDependency isFuzzOptions isFuzzData s = (g.data, s')) :
    fuzzToPacket allocated isFuzzWithoutDependency isFuzzOptions isFuzzData s = .ok (generatedPacket allocated g, s') := by
  have fields := g.fields allocated
  have parsed := g.parses fields
  obtain ⟨-, buffer, -, ipv4, tcp, ipBytes⟩ := recorded_generated g.low (fields.wire g.low g.length_ge)
  rw [← buffer] at fields
  have checked := checksumPacket_generated fields g.low ipv4 tcp ipBytes
  simp only [fuzzToPacket, pushed]
  rw [parsed, ok_bind, checked, ok_bind, assertThat_ok rfl, buffer]
  rfl

/-- Whatever the file holds, a generated packet parses to an IPv4 and a TCP header, and both its
checksums verify. -/
theorem fuzzToPacket_valid (allocated : Mem) (isFuzzWithoutDependency isFuzzOptions isFuzzData : Bool) (s : Fuzzer) :
    ∃ p s' off total, fuzzToPacket allocated isFuzzWithoutDependency isFuzzOptions isFuzzData s = .ok (p, s') ∧
      parsePacket (packetNew p.buffer p.bufferBytes) p.bufferBytes .layer3Ip =
        .ok (.ok, recorded .layer3Ip (packetNew p.buffer p.bufferBytes) [⟨.ipv4, 0, 20, total⟩, ⟨.tcp, 20, off * 4, total - 20⟩]) ∧
      Layout p [⟨.ipv4, 20, total, some 0⟩, ⟨.tcp, off * 4, total - 20, some 20⟩] ∧
      5 ≤ off ∧ off ≤ 15 ∧ tcpDoff p.buffer 20 = off ∧
      ipv4Checksum p.buffer 0 20 = 0 ∧ tcpUdpV4Checksum p.buffer 0 6 20 (total - 20) = 0 := by
  obtain ⟨g, s', pushed, -⟩ := fuzzData_generated isFuzzWithoutDependency isFuzzOptions isFuzzData s
  obtain ⟨layout, bufferBytes, -⟩ := generatedPacket_recorded allocated g
  have kept := generatedPacket_fields allocated g
  obtain ⟨ipCheck, tcpCheck⟩ := checkedMem_verifies (g.fields allocated) g.low g.high g.short
  have inner : g.total - 20 = g.off * 4 + g.dataLength := by
    unfold Generated.total
    omega
  refine ⟨generatedPacket allocated g, s', g.off, g.total, fuzzToPacket_run allocated pushed, ?_, ?_, g.low, g.high,
    kept.doff, ipCheck, ?_⟩
  · rw [bufferBytes, inner]
    exact g.parses kept
  · rw [inner]
    exact layout
  · rw [inner]
    exact tcpCheck

/-! ### The account of the bytes -/

/-- Two sequence numbers have the same last digits for that many bytes. The digits shift when the
number wraps around, as the modulus is no multiple of ten. -/
def SameDigits (seq seq' length : Nat) : Prop :=
  length = 0 ∨ seq = seq' ∨ seq % 10 = seq' % 10 ∧ seq + length ≤ 2 ^ 32 ∧ seq' + length ≤ 2 ^ 32

instance (seq seq' length : Nat) : Decidable (SameDigits seq seq' length) := inferInstanceAs (Decidable (_ ∨ _))

theorem wrapped_digit {seq seq' : Nat} (less : seq < seq') (small : seq' < 2 ^ 32) (same : seq % 10 = seq' % 10) :
    (seq + (2 ^ 32 - seq')) % 2 ^ 32 % 10 ≠ (seq' + (2 ^ 32 - seq')) % 2 ^ 32 % 10 := by
  have around : seq' + (2 ^ 32 - seq') = 2 ^ 32 := by omega
  rw [around, Nat.mod_self, Nat.mod_eq_of_lt (by omega : seq + (2 ^ 32 - seq') < 2 ^ 32)]
  omega

theorem sameDigits_iff {seq seq' length : Nat} (small : seq < 2 ^ 32) (small' : seq' < 2 ^ 32) (short : length < 10000) :
    SameDigits seq seq' length ↔ ∀ i < length, (seq + i) % 2 ^ 32 % 10 = (seq' + i) % 2 ^ 32 % 10 := by
  constructor
  · rintro (rfl | rfl | ⟨same, fits, fits'⟩) i inside
    · exact absurd inside (Nat.not_lt_zero i)
    · rfl
    · rw [Nat.mod_eq_of_lt (by omega : seq + i < 2 ^ 32), Nat.mod_eq_of_lt (by omega : seq' + i < 2 ^ 32)]
      omega
  · intro digits
    by_cases empty : length = 0
    · exact .inl empty
    have same : seq % 10 = seq' % 10 := by
      have first := digits 0 (by omega)
      rwa [Nat.add_zero, Nat.add_zero, Nat.mod_eq_of_lt small, Nat.mod_eq_of_lt small'] at first
    refine .inr ?_
    by_cases fits : seq + length ≤ 2 ^ 32 ∧ seq' + length ≤ 2 ^ 32
    · exact .inr ⟨same, fits⟩
    · left
      by_contra apart
      rcases Nat.lt_or_gt_of_ne apart with less | more
      · exact wrapped_digit less small' same (digits _ (by omega))
      · exact wrapped_digit more small same.symm (digits _ (by omega)).symm

/-- The header's lengths are the lengths of what was pushed, and the payload's digits go on from the
sequence number. -/
structure Accounted (p : Packet) (optionsPushed dataLength : Nat) : Prop where
  pushed : p.bufferBytes = ipv4TotLen p.buffer 0
  totLen : ipv4TotLen p.buffer 0 = 20 + 4 * tcpDoff p.buffer 20 + dataLength
  options : optionsPushed = 4 * tcpDoff p.buffer 20 - 20
  payload : ∀ i < dataLength,
    p.buffer.get8 (20 + 4 * tcpDoff p.buffer 20 + i) = (be32 p.buffer (20 + 4) + i) % 2 ^ 32 % 10

theorem generatedPacket_seq (allocated : Mem) (g : Generated) :
    be32 (generatedPacket allocated g).buffer (20 + 4) = be32 (ofList g.seq) 0 := by
  have read (k : Nat) (inside : k < 4) : get8 (generatedPacket allocated g).buffer (24 + k) = get8 (ofList g.seq) k := by
    have kept : get8 (generatedPacket allocated g).buffer (24 + k) = get8 (allocated.write 0 g.data) (24 + k) :=
      checkedMem_frame _ (by omega) (by omega)
    have front : get8 (allocated.write 0 g.data) (24 + k) = (g.headers.getD (24 + k) 0).toNat :=
      get8_write_front allocated (g.options ++ g.payload) (by rw [g.headers_length]; omega)
    have place : g.headers.getD (24 + k) 0 = g.seq.getD k 0 :=
      headerBytes_getD_seq g.seqLength g.window g.urgent g.total _ inside
    rw [kept, front, place]
    rfl
  have first := read 0 (by decide)
  have second := read 1 (by decide)
  have third := read 2 (by decide)
  have fourth := read 3 (by decide)
  unfold be32 be16
  rw [← first, ← second, ← third, ← fourth]

theorem generatedPacket_option (allocated : Mem) (g : Generated) {k : Nat} (inside : k < g.options.length) :
    (generatedPacket allocated g).buffer.get8 (40 + k) = (g.options.getD k 0).toNat := by
  have kept : (generatedPacket allocated g).buffer.get8 (40 + k) = get8 (allocated.write 0 g.data) (40 + k) :=
    checkedMem_frame _ (by omega) (by omega)
  have within : k < (g.options ++ g.payload).length := by
    rw [List.length_append]
    omega
  have written := get8_write_back allocated g.headers within
  rw [g.headers_length, List.getD_append _ _ _ _ inside] at written
  exact kept.trans written

theorem generatedPacket_payload (allocated : Mem) (g : Generated) (exact : 20 + g.options.length = g.off * 4) {i : Nat}
    (inside : i < g.dataLength) :
    (generatedPacket allocated g).buffer.get8 (20 + 4 * g.off + i) = (g.packetSeq.toNat + i) % 2 ^ 32 % 10 := by
  have low := g.low
  have short := g.short
  have kept : get8 (generatedPacket allocated g).buffer (20 + 4 * g.off + i) =
      get8 (allocated.write 0 g.data) (20 + 4 * g.off + i) :=
    checkedMem_frame _ (by omega) (by omega)
  have place : 20 + 4 * g.off + i = (g.headers ++ g.options).length + i := by
    rw [List.length_append, g.headers_length]
    omega
  have within : i < g.payload.length := by
    rw [Generated.payload, List.length_map, List.length_range]
    exact inside
  have digit : g.payload.getD i 0 = ((g.packetSeq + UInt32.ofNat i) % 10).toUInt8 := by
    simp [Generated.payload, List.getD_eq_getElem?_getD, inside]
  rw [kept, place, Generated.data, ← List.append_assoc, get8_write_back _ _ within, digit]
  simp only [UInt32.toNat_toUInt8, UInt32.toNat_mod, UInt32.toNat_add, UInt32.toNat_ofNat']
  have ten : (10 : UInt32).toNat = 10 := rfl
  rw [ten]
  omega

/-- A fast open option of length zero is pushed as one byte and counted as none. -/
theorem zeroLength_option_unaccounted :
    let s : Fuzzer := ⟨[0, 0, 0, 0, 1, 7, 0], 0, "", 1, 0⟩
    ∃ p s', fuzzToPacket (ofList []) false true false s = .ok (p, s') ∧ p.bufferBytes = 41 ∧ ipv4TotLen p.buffer 0 = 40 ∧
      ¬Accounted p (optionsPushed false true s).1 s'.lastPacketDataLength.toNat := by
  intro s
  have evaluated : (fuzzToPacket (ofList []) false true false s).toOption.map
      (fun r => decide (r.1.bufferBytes = 41 ∧ ipv4TotLen r.1.buffer 0 = 40)) = some true := by
    decide +kernel
  obtain ⟨⟨p, s'⟩, made, facts⟩ := ok_of_toOption evaluated
  obtain ⟨bufferBytes, totLen⟩ := of_decide_eq_true facts
  refine ⟨p, s', made, bufferBytes, totLen, fun accounted => ?_⟩
  have pushed := accounted.pushed
  rw [bufferBytes, totLen] at pushed
  exact absurd pushed (by decide)

/-- The bytes are accounted for just when no option that is taken has length zero and the payload's
digits, which follow `packet_seq`, agree with the sequence number that is read from the file. -/
theorem fuzzToPacket_accounted_iff (allocated : Mem) (isFuzzWithoutDependency isFuzzOptions isFuzzData : Bool)
    (s : Fuzzer) :
    let choices := (packetChoices isFuzzWithoutDependency isFuzzOptions isFuzzData s).1
    ∃ p s', fuzzToPacket allocated isFuzzWithoutDependency isFuzzOptions isFuzzData s = .ok (p, s') ∧
      (Accounted p (optionsPushed isFuzzWithoutDependency isFuzzOptions s).1 s'.lastPacketDataLength.toNat ↔
        (∀ option ∈ choices.options, option.2 ≠ 0) ∧
          (isFuzzWithoutDependency →
            SameDigits (be32 (ofList choices.seq) 0) s.packetSeq.toNat choices.dataLength.toNat)) := by
  have own : isFuzzWithoutDependency = false →
      be32 (ofList (packetChoices isFuzzWithoutDependency isFuzzOptions isFuzzData s).1.seq) 0 = s.packetSeq.toNat := by
    rintro rfl
    have := be32_be32Bytes [] s.packetSeq []
    rwa [List.append_nil] at this
  obtain ⟨g, s', pushed, isSeq, isPacketSeq, isLength, recorded, occupied, counted⟩ :=
    fuzzData_generated isFuzzWithoutDependency isFuzzOptions isFuzzData s
  generalize (packetChoices isFuzzWithoutDependency isFuzzOptions isFuzzData s).1 = choices at *
  intro _
  obtain ⟨-, bufferBytes, -⟩ := generatedPacket_recorded allocated g
  have fields := generatedPacket_fields allocated g
  have seq := generatedPacket_seq allocated g
  have low := g.low
  have length := g.data_length
  have none : zeroLengths choices.options = 0 ↔ ∀ option ∈ choices.options, option.2 ≠ 0 := by
    simp [zeroLengths, List.countP_eq_zero]
  have agree : (isFuzzWithoutDependency →
      SameDigits (be32 (ofList choices.seq) 0) s.packetSeq.toNat choices.dataLength.toNat) ↔
      SameDigits (be32 (ofList choices.seq) 0) s.packetSeq.toNat choices.dataLength.toNat := by
    cases isFuzzWithoutDependency with
    | true => exact ⟨fun same => same rfl, fun same _ => same⟩
    | false => exact ⟨fun _ => .inr (.inl (own rfl)), fun same _ => same⟩
  have small : be32 (ofList choices.seq) 0 < 2 ^ 32 := be32_lt _ _
  have short : choices.dataLength.toNat < 10000 := isLength ▸ g.short
  refine ⟨generatedPacket allocated g, s', fuzzToPacket_run allocated pushed, ?_⟩
  rw [recorded, ← none, agree, sameDigits_iff small s.packetSeq.toNat_lt short]
  have doff := fields.doff
  rw [isSeq] at seq
  constructor
  · rintro ⟨all, -, -, payload⟩
    rw [bufferBytes, fields.totLen] at all
    have exact : 20 + g.options.length = g.off * 4 := by omega
    refine ⟨by omega, fun i inside => ?_⟩
    have byte := payload i inside
    rw [doff, generatedPacket_payload allocated g exact (isLength ▸ inside), seq, isPacketSeq] at byte
    exact byte.symm
  · rintro ⟨zero, digits⟩
    have exact : 20 + g.options.length = g.off * 4 := by omega
    constructor
    · rw [bufferBytes, fields.totLen]
      omega
    · rw [fields.totLen, doff, isLength]
      omega
    · rw [doff, ← occupied]
      omega
    · intro i inside
      rw [doff, generatedPacket_payload allocated g exact (isLength ▸ inside), seq, isPacketSeq]
      exact (digits i inside).symm

end TcpFuzz
