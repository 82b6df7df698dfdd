import TcpFuzz.Live.Inbound

/-! Which bytes a plain TCP packet carries once it is injected: the payload is filled from the sequence number, and
mapping rewrites what the SACK blocks and the timestamp option cover. -/

namespace TcpFuzz
open Bytes Mem

/-- A TCP segment in one IPv4 header without options, as the builders and the parser make it. -/
structure PlainTcp (p : Packet) : Prop where
  ipv4 : p.ipv4 = some 0
  tcp : p.tcp = some 20
  icmpv4 : p.icmpv4 = none
  icmpv6 : p.icmpv6 = none
  outer : ∃ total, p.headers.get ⟨0, by decide⟩ = ⟨.ipv4, 20, total, some 0⟩
  headerLen : ipv4HeaderLen p.buffer 0 = 20
  totLen : ipv4TotLen p.buffer 0 = p.ipBytes
  doff : 5 ≤ tcpDoff p.buffer 20
  payload : 20 + tcpDoff p.buffer 20 * 4 ≤ p.ipBytes
  stored : p.ipBytes ≤ p.bufferBytes

structure PlainInbound (p : Packet) : Prop extends PlainTcp p where
  unseen : p.tcpTsEcr = none

def payloadStart (p : Packet) : Nat := 20 + tcpDoff p.buffer 20 * 4

def payloadLen (p : Packet) : Nat := p.ipBytes - payloadStart p

/-- The sequence number, and what the host reads when it does not swap the bytes. -/
def scriptSeq (p : Packet) : Nat := tcpSeq p.buffer 20

def rawSeq (p : Packet) : Nat := p.buffer.le32 24

theorem get8_fillLoop_ne {tcp n : Nat} (m : Mem) {i k : Nat} (j : Nat) (apart : k < i ∨ i + n ≤ k) :
    (fillLoop tcp m i j n).get8 k = m.get8 k := by
  induction n generalizing m i j with
  | zero => rfl
  | succ n ih => rw [fillLoop, ih _ _ (by omega), get8_put8_ne _ _ (by omega)]

theorem get8_fillLoop {tcp n k : Nat} (m : Mem) {i : Nat} (j : Nat) (behind : tcp + 8 ≤ i) (inside : k < n) :
    (fillLoop tcp m i j n).get8 (i + k) = (m.le32 (tcp + 4) + (j + k)) % 2 ^ 32 % 10 := by
  induction n generalizing m i j k with
  | zero => omega
  | succ n ih =>
    rw [fillLoop]
    match k with
    | 0 =>
      simp only [Nat.add_zero]
      rw [get8_fillLoop_ne _ _ (by omega), get8_put8_self]
      omega
    | k + 1 =>
      have later : i + (k + 1) = i + 1 + k := by omega
      rw [later, ih _ _ (by omega) (by omega), le32_put8_ne _ _ (by omega), Nat.add_right_comm j 1 k, Nat.add_assoc j k 1]

def fillStores (p : Packet) : List Nat :=
  match p.tcp with
  | none => []
  | some tcp => List.range' (20 + tcpDoff p.buffer tcp * 4) (p.bufferBytes - (20 + tcpDoff p.buffer tcp * 4))

/-- Only the payload is filled just when there is a TCP header and either nothing is stored or the
header is no further from the start than the IPv4 header that the loop counts with. -/
theorem fillPayload_within_payload_iff (p : Packet) :
    (∃ q payload stop, fillPayload p = .ok q ∧ packetPayload p = .ok payload ∧ packetEnd p = .ok stop ∧
        ∀ k ∈ fillStores p, payload ≤ k ∧ k < stop) ↔
      ∃ tcp stop, p.tcp = some tcp ∧ packetEnd p = .ok stop ∧
        (p.bufferBytes ≤ 20 + tcpDoff p.buffer tcp * 4 ∨ tcp ≤ 20 ∧ p.bufferBytes ≤ stop) := by
  rcases found : p.tcp with _ | tcp
  · -- the loop's first act is to look at the header
    have stops : fillPayload p = .error .invalidAccess := by
      rw [fillPayload, found]
      rfl
    constructor
    · rintro ⟨q, -, -, ran, -⟩
      rw [stops] at ran
      cases ran
    · rintro ⟨tcp, -, none, -⟩
      cases none
  have payloadAt : packetPayload p = .ok (tcp + tcpDoff p.buffer tcp * 4) := by
    rw [packetPayload, found]
  have ran : ∃ q, fillPayload p = .ok q := by
    rw [fillPayload, found]
    exact ⟨_, rfl⟩
  have stored (k : Nat) : k ∈ fillStores p ↔ 20 + tcpDoff p.buffer tcp * 4 ≤ k ∧ k < p.bufferBytes := by
    rw [fillStores, found, List.mem_range'_1]
    omega
  constructor
  · rintro ⟨q, payload, stop, -, read, ends, within⟩
    rw [payloadAt] at read
    cases read
    refine ⟨tcp, stop, rfl, ends, ?_⟩
    by_cases empty : p.bufferBytes ≤ 20 + tcpDoff p.buffer tcp * 4
    · exact .inl empty
    · have first := within (20 + tcpDoff p.buffer tcp * 4) ((stored _).mpr (by omega))
      have last := within (p.bufferBytes - 1) ((stored _).mpr (by omega))
      exact .inr ⟨by omega, by omega⟩
  · rintro ⟨_, stop, ⟨rfl⟩, ends, condition⟩
    obtain ⟨q, ran⟩ := ran
    refine ⟨q, _, stop, ran, payloadAt, ends, fun k member => ?_⟩
    rw [stored] at member
    omega

def ipv6Segment : TcpArgs where
  family := .inet6
  direction := .inbound
  ipInfo := { tos := { check := .none, value := 0 }, flowLabel := 0, ttl := 0 }
  srcPort := 7
  dstPort := 8
  flags := ['.']
  startSequence := 1
  tcpPayloadBytes := 1
  ackSequence := 1
  window := 1000
  urgPtr := 0
  tcpOptions := some []

def datagram : UdpArgs where
  family := .inet
  direction := .inbound
  ipInfo := { tos := { check := .none, value := 0 }, flowLabel := 0, ttl := 0 }
  udpPayloadBytes := 1
  srcPort := 7
  dstPort := 8

/-- Over IPv6 the loop starts at the TCP header itself; a datagram has no TCP header to look at. -/
theorem fillPayload_leaves_payload :
    (∃ p q payload, newTcpPacket (fun _ => 0) ipv6Segment = .ok (.ok p) ∧ fillPayload p = .ok q ∧
      packetPayload p = .ok payload ∧ ∃ k ∈ fillStores p, k < payload ∧ q.buffer k ≠ p.buffer k) ∧
    ∃ p, newUdpPacket (fun _ => 0) datagram = .ok (.ok p) ∧ fillPayload p = .error .invalidAccess := by
  constructor
  · have evaluated : (newTcpPacket (fun _ => 0) ipv6Segment).toOption.map (fun built => built.toOption.bind fun p =>
        (fillPayload p).toOption.map fun q => decide (packetPayload p = .ok 60 ∧ 40 ∈ fillStores p ∧ q.buffer 40 ≠ p.buffer 40)) =
          some (some true) := by
      decide +kernel
    obtain ⟨built, returned, facts⟩ := ok_of_toOption evaluated
    cases built with
    | error => cases facts
    | ok p =>
      obtain ⟨q, ran, holds⟩ := ok_of_toOption facts
      obtain ⟨payload, member, changed⟩ := of_decide_eq_true holds
      exact ⟨p, q, 60, returned, ran, payload, 40, member, by decide, changed⟩
  · have evaluated : (newUdpPacket (fun _ => 0) datagram).toOption.map (fun built => built.toOption.map fun p =>
        decide (p.tcp = none)) = some (some true) := by
      decide +kernel
    obtain ⟨built, returned, facts⟩ := ok_of_toOption evaluated
    cases built with
    | error => cases facts
    | ok p =>
      have absent : p.tcp = none := of_decide_eq_true (Option.some.inj facts)
      refine ⟨p, returned, ?_⟩
      rw [fillPayload, absent]
      rfl

def filled (p : Packet) : Packet :=
  { p with buffer := fillLoop 20 p.buffer (payloadStart p) 0 (p.bufferBytes - payloadStart p) }

section Plain

variable {p : Packet}

theorem PlainTcp.start (plain : PlainTcp p) : packetStart p = .ok 0 := by
  obtain ⟨total, outer⟩ := plain.outer
  rw [packetStart, outer]
  rfl

theorem PlainTcp.lower (plain : PlainTcp p) : 40 ≤ payloadStart p := by
  have := plain.doff
  unfold payloadStart
  omega

theorem PlainTcp.upper (plain : PlainTcp p) : payloadStart p + payloadLen p = p.ipBytes := by
  have := plain.payload
  unfold payloadLen payloadStart
  omega

theorem PlainTcp.short (plain : PlainTcp p) : p.ipBytes < 65536 := by
  rw [← plain.totLen]
  exact be16_lt _ _

/-- A packet whose buffer was changed behind the fixed headers, or in fields that are not looked at,
is as plain as it was. -/
theorem PlainTcp.congr (plain : PlainTcp p) {buffer : Mem}
    (same : ∀ j, j < 4 ∨ j = 32 → buffer.get8 j = p.buffer.get8 j) : PlainTcp { p with buffer } := by
  have doff : tcpDoff buffer 20 = tcpDoff p.buffer 20 := by
    unfold tcpDoff
    rw [same 32 (by omega)]
  refine { plain with headerLen := ?_, totLen := ?_, doff := ?_, payload := ?_ }
  · rw [← plain.headerLen, ipv4HeaderLen, ipv4HeaderLen, same 0 (by omega)]
  · rw [← plain.totLen]
    exact be16_of_get8 (same _ (by omega)) (same _ (by omega))
  · exact doff ▸ plain.doff
  · exact doff ▸ plain.payload

theorem PlainTcp.fillPayload (plain : PlainTcp p) : fillPayload p = .ok (filled p) := by
  have read : deref p.tcp = .ok 20 := by
    rw [plain.tcp]
    rfl
  rw [TcpFuzz.fillPayload, read]
  rfl

theorem get8_filled_ne {j : Nat} (before : j < payloadStart p) : (filled p).buffer.get8 j = p.buffer.get8 j :=
  get8_fillLoop_ne _ _ (.inl before)

theorem PlainTcp.get8_filled (plain : PlainTcp p) {k : Nat} (inside : k < payloadLen p) :
    (filled p).buffer.get8 (payloadStart p + k) = (rawSeq p + k) % 2 ^ 32 % 10 := by
  have := plain.lower
  have := plain.upper
  have := plain.stored
  rw [filled, get8_fillLoop _ _ (by omega) (by omega), Nat.zero_add]
  rfl

theorem PlainTcp.filled (plain : PlainTcp p) : PlainTcp (filled p) := by
  have := plain.lower
  exact plain.congr fun j early => get8_filled_ne (by omega)

/-- The copy that is mapped and sent; behind the packet's bytes it holds what the allocator left. -/
def copied (allocated : Mem) (p : Packet) : Packet :=
  packetDuplicateInfo (packetNew (allocated.copy 0 p.buffer 0 p.ipBytes) p.ipBytes) p 0 0

theorem packetCopy_copied (start : packetStart p = .ok 0) (short : p.ipBytes < 65536) (allocated : Mem) :
    packetCopy allocated p = .ok (copied allocated p) := by
  have stop : packetEnd p = .ok p.ipBytes := by
    simp only [packetEnd, start, ok_bind, run_pure, Nat.zero_add]
  simp only [TcpFuzz.packetCopy, packetCopyWithHeadroom, stop, ok_bind, run_pure, Nat.zero_add]
  rw [assertThat_ok (by omega), ok_bind]
  rfl

theorem PlainTcp.packetCopy (plain : PlainTcp p) (allocated : Mem) :
    packetCopy allocated p = .ok (copied allocated p) :=
  packetCopy_copied plain.start plain.short allocated

theorem get8_copied (allocated : Mem) {j : Nat} (inside : j < p.ipBytes) :
    (copied allocated p).buffer.get8 j = p.buffer.get8 j := by
  have whole := get8_copy_inside allocated (i := 0) p.buffer 0 inside
  simp only [Nat.zero_add] at whole
  exact whole

theorem packetHeaderCount_pos (used : (p.headers.get ⟨0, by decide⟩).type ≠ .none) : 0 < packetHeaderCount p := by
  have size : 0 < p.headers.toList.length := by
    rw [Vector.length_toList]
    decide
  obtain ⟨h, rest, list⟩ := List.exists_cons_of_length_pos size
  have first : p.headers[0]? = some h := by
    rw [← Vector.getElem?_toList, list]
    rfl
  have here : h.type ≠ .none := (Vector.getElem?_eq_some_iff.mp first).2 ▸ used
  simp [packetHeaderCount, list, List.findIdx_cons, here]

theorem PlainTcp.copied (plain : PlainTcp p) (allocated : Mem) : PlainTcp (copied allocated p) := by
  have fixed := plain.lower
  have room := plain.upper
  have same : ∀ j, j < 4 ∨ j = 32 → (TcpFuzz.copied allocated p).buffer.get8 j = p.buffer.get8 j :=
    fun j early => get8_copied allocated (by omega)
  have kept := plain.congr same
  obtain ⟨total, outer⟩ := plain.outer
  have count : 0 < packetHeaderCount p := packetHeaderCount_pos (by rw [outer]; exact HeaderType.noConfusion)
  refine { kept with ipv4 := ?_, tcp := ?_, icmpv4 := ?_, icmpv6 := ?_, outer := ⟨total, ?_⟩, stored := ?_ }
  · exact congrArg (Option.map (0 + ·)) plain.ipv4
  · exact congrArg (Option.map (0 + ·)) plain.tcp
  · exact congrArg (Option.map (0 + ·)) plain.icmpv4
  · exact congrArg (Option.map (0 + ·)) plain.icmpv6
  · show (Vector.ofFn _).get _ = _
    rw [get_ofFn, if_pos count, outer]
    rfl
  · exact Nat.le_refl _

theorem mapTuple_plain (plain : PlainTcp p) (s : Socket) :
    ∃ m, (∀ j, j < 12 ∨ 24 ≤ j → m.get8 j = p.buffer.get8 j) ∧ mapTuple s p = .ok { p with buffer := m } := by
  let t := socketGetInbound s.live
  let addressed := (p.buffer.write 12 (t.src.ip.toList.take 4)).write 16 (t.dst.ip.toList.take 4)
  have set : setPacketTuple p t = .ok { p with buffer := setPorts addressed 20 t } := by
    simp only [setPacketTuple, setHeadersTuple, plain.ipv4, plain.tcp, plain.icmpv4, plain.icmpv6, ok_bind, run_pure]
    rfl
  refine ⟨restorePorts p.buffer (setPorts addressed 20 t) 20, fun j apart => ?_, ?_⟩
  · have four (ip : IpAddress) : (ip.toList.take 4).length = 4 := by simp
    rw [restorePorts_frame _ _ (by omega)]
    unfold setPorts addressed
    rw [get8_putBe16_ne _ _ (by omega), get8_putBe16_ne _ _ (by omega), get8_write_ne _ _ (by rw [four]; omega),
      get8_write_ne _ _ (by rw [four]; omega)]
  · rw [mapTuple, set, ok_bind, plain.tcp]
    rfl

def echoedTimestamp (m : Mem) (stop : Nat) : Option Nat :=
  if tcpSyn m 20 ∨ tcpSeq m 20 < 3 then lastTimestamp m stop 40 else none

def timestampMapped (s : Socket) (m : Mem) (stop : Nat) : Mem :=
  match echoedTimestamp m stop with
  | some o =>
    if tcpAck m 20 then
      m.putBe32 (o + 6) (getOutboundTsValMapping s (UInt32.ofNat (m.be32 (o + 6)))).2.toNat
    else m
  | none => m

theorem SacksOffset.header {m m' : Mem} {stop : Nat} {offset : UInt32} (done : SacksOffset m stop 40 offset m')
    {j : Nat} (early : j < 42) : m'.get8 j = m.get8 j := by
  apply done.frame
  intro o member block
  have := optionOffsets_bounds o member
  have := block.1
  omega

theorem mapTimestamp_eq {stop : Nat} (tcp : p.tcp = some 20) (unseen : p.tcpTsEcr = none)
    (start : payloadStart p = stop) (s : Socket) :
    ∃ tsVal tsEcr, mapTimestamp s p 20 = .ok (.ok { p with
      buffer := timestampMapped s p.buffer stop, tcpTsVal := tsVal, tcpTsEcr := tsEcr }) := by
  unfold mapTimestamp timestampMapped echoedTimestamp
  by_cases early : tcpSyn p.buffer 20 ∨ tcpSeq p.buffer 20 < 3
  · rw [payloadStart] at start
    rw [if_pos early, if_pos early, findTcpTimestamp_eq tcp, ok_bind, start]
    cases lastTimestamp p.buffer stop 40 with
    | none => exact ⟨none, none, rfl⟩
    | some o =>
      refine ⟨some (o + 2), some (o + 6), ?_⟩
      simp only [mapTsEcr, Option.map_some]
      cases tcpAck p.buffer 20 <;> rfl
  · rw [if_neg early, if_neg early, ok_bind]
    refine ⟨p.tcpTsVal, none, ?_⟩
    simp only [mapTsEcr, unseen]
    rw [← unseen]
    rfl

/-- A plain packet as it is mapped: `m` has the addresses, the ports and the sequence numbers mapped,
then come the SACK blocks and the echoed timestamp. -/
def MapsPlain (s : Socket) (p : Packet) (m : Mem) : Prop :=
  (∃ o ∈ optionOffsets m (payloadStart p) 40, ShortSack m o) ∧
      mapInboundPacket s p = .ok (.error "TCP SACK option too short") ∨
    (∀ o ∈ optionOffsets m (payloadStart p) 40, ¬ShortSack m o) ∧ ∃ m' tsVal tsEcr,
      SacksOffset m (payloadStart p) 40 (localSeqScriptToLiveOffset s (tcpSyn p.buffer 20)) m' ∧
      mapInboundPacket s p = .ok (.ok { p with
        buffer := timestampMapped s m' (payloadStart p), tcpTsVal := tsVal, tcpTsEcr := tsEcr })

theorem mapInboundPacket_plain (plain : PlainInbound p) (s : Socket) :
    ∃ m, (∀ j, j < 12 ∨ 32 ≤ j → m.get8 j = p.buffer.get8 j) ∧
      tcpSeq m 20 = (scriptSeq p + (remoteSeqScriptToLiveOffset s (tcpSyn p.buffer 20)).toNat) % 2 ^ 32 ∧
      MapsPlain s p m := by
  obtain ⟨addressed, tupleFrame, tuple⟩ := mapTuple_plain plain.toPlainTcp s
  have tcp : { p with buffer := addressed }.tcp = some 20 := plain.tcp
  have doff : tcpDoff addressed 20 = tcpDoff p.buffer 20 := by
    unfold tcpDoff
    rw [tupleFrame _ (by omega)]
  have syn : tcpSyn addressed 20 = tcpSyn p.buffer 20 := by
    unfold tcpSyn
    rw [tupleFrame _ (by omega)]
  let offset := localSeqScriptToLiveOffset s (tcpSyn p.buffer 20)
  obtain ⟨m, moved, numbers⟩ := offsetSeqNumbers_eq tcp (remoteSeqScriptToLiveOffset s (tcpSyn p.buffer 20)) offset
  have run : mapInboundPacket s p = mapInboundTcp s { p with buffer := addressed } 20 := by
    rw [mapInboundPacket, tuple, ok_bind]
    simp only [plain.icmpv4, plain.icmpv6, plain.tcp]
    rfl
  have start : 20 + tcpDoff addressed 20 * 4 = payloadStart p := by
    rw [doff]
    rfl
  have frame : ∀ j, j < 12 ∨ 32 ≤ j → m.get8 j = p.buffer.get8 j := by
    intro j apart
    rw [moved.frame j (by omega), tupleFrame j (by omega)]
  refine ⟨m, frame, ?_, ?_⟩
  · have same : tcpSeq addressed 20 = scriptSeq p := be32_of_get8 fun k lower _ => tupleFrame k (by omega)
    rw [moved.seq, same]
  · rw [MapsPlain, run, mapInboundTcp]
    simp only [syn]
    simp only [start] at numbers
    rw [numbers, ok_bind]
    rcases sackLoop m (payloadStart p) 40 offset with ⟨short, failed⟩ | ⟨long, m', done, offsets⟩
    · rw [failed]
      exact .inl ⟨short, rfl⟩
    · rw [done]
      have again : payloadStart { p with buffer := m' } = payloadStart p := by
        unfold payloadStart tcpDoff
        rw [offsets.header (by omega), frame _ (by omega)]
      obtain ⟨tsVal, tsEcr, mapped⟩ :=
        mapTimestamp_eq (p := { p with buffer := m' }) plain.tcp plain.unseen again s
      exact .inr ⟨long, m', tsVal, tsEcr, offsets, mapped⟩

theorem PlainTcp.packetPayload (plain : PlainTcp p) : packetPayload p = .ok (payloadStart p) := by
  rw [TcpFuzz.packetPayload, plain.tcp]
  rfl

theorem PlainTcp.packetPayloadLen (plain : PlainTcp p) : packetPayloadLen p = .ok (payloadLen p) := by
  have := plain.upper
  simp only [TcpFuzz.packetPayloadLen, packetEnd, plain.start, plain.packetPayload, ok_bind, run_pure]
  congr 1
  omega

theorem PlainTcp.packetPayloadBytes (plain : PlainTcp p) :
    packetPayloadBytes p = .ok (p.buffer.bytes (payloadStart p) (payloadLen p)) := by
  simp only [TcpFuzz.packetPayloadBytes, plain.packetPayload, plain.packetPayloadLen, ok_bind, run_pure]
  rfl

theorem sendLiveIpPacket_plain (plain : PlainTcp p) :
    ∃ buffer, (∀ j, j < 4 ∨ j = 32 ∨ 40 ≤ j → buffer.get8 j = p.buffer.get8 j) ∧
      sendLiveIpPacket p = .ok { p with buffer } := by
  have := plain.lower
  have := plain.upper
  let m := setIpv4Check p.buffer 0
  have frame : ∀ j, j < 4 ∨ j = 32 ∨ 40 ≤ j → m.get8 j = p.buffer.get8 j :=
    fun j apart => setIpv4Check_frame _ (by omega)
  have checked : PlainTcp { p with buffer := m } := plain.congr fun j early => frame j (by omega)
  refine ⟨fillCheck m 36 fun m => tcpUdpV4Checksum m 0 6 20 (p.ipBytes - 20), fun j apart => ?_, ?_⟩
  · rw [get8_fillCheck_ne _ _ (by omega), frame j (by omega)]
  · have totLen : ipv4TotLen m 0 = p.ipBytes := checked.totLen
    have headerLen : ipv4HeaderLen m 0 = 20 := checked.headerLen
    have sum : checksumIpv4Packet p 0 =
        .ok { p with buffer := fillCheck m 36 fun m => tcpUdpV4Checksum m 0 6 20 (p.ipBytes - 20) } := by
      simp only [checksumIpv4Packet, show setIpv4Check p.buffer 0 = m from rfl, totLen, headerLen,
        assertThat_ok (Nat.le_refl p.ipBytes), ok_bind]
      rw [if_neg (by omega)]
      simp only [checksumLayer4, plain.tcp]
    have sized : 0 < p.ipBytes := by omega
    have ip : p.ipv4.isSome ∨ p.ipv6.isSome := .inl (by rw [plain.ipv4]; rfl)
    have transport : p.tcp.isSome ∨ p.udp.isSome ∨ p.icmpv4.isSome ∨ p.icmpv6.isSome := .inl (by rw [plain.tcp]; rfl)
    have family : checksumPacket p = checksumIpv4Packet p 0 := by rw [checksumPacket, plain.ipv4]
    rw [sendLiveIpPacket, assertThat_ok sized, assertThat_ok ip, assertThat_ok transport, ok_bind, ok_bind, ok_bind,
      family, sum]

def mappingSocket (config : Config) (s : Socket) (p : Packet) : Socket := fillAnyip config (inboundHandshake s p) p

theorem timestampMapped_header (s : Socket) (m : Mem) (stop : Nat) {j : Nat} (early : j < 46) :
    (timestampMapped s m stop).get8 j = m.get8 j := by
  unfold timestampMapped
  split
  next o found =>
    have late : 40 ≤ o := by
      unfold echoedTimestamp at found
      split at found
      · exact (optionOffsets_bounds o (lastTimestamp_mem found)).1
      · cases found
    split
    · exact get8_putBe32_ne _ _ (by omega)
    · rfl
  next => rfl

theorem rememberInjected_plain (plain : PlainTcp p) (s : Socket) : ∃ s', rememberInjected s p = .ok s' := by
  rw [rememberInjected, plain.tcp]
  simp only [plain.packetPayloadLen, ok_bind, run_pure]
  exact ⟨_, rfl⟩

/-- How a plain packet is injected: `m` is the filled packet with the fixed headers mapped. -/
def InjectsPlain (allocated : Mem) (config : Config) (s : Socket) (p : Packet) (m : Mem) : Prop :=
  (∃ o ∈ optionOffsets m (payloadStart p) 40, ShortSack m o) ∧
      (∃ r, doInboundScriptPacket allocated config s p = .ok r ∧ r.sent = .error "TCP SACK option too short") ∨
    (∀ o ∈ optionOffsets m (payloadStart p) 40, ¬ShortSack m o) ∧ ∃ m' r live,
      SacksOffset m (payloadStart p) 40
        (localSeqScriptToLiveOffset (mappingSocket config s p) (tcpSyn p.buffer 20)) m' ∧
      doInboundScriptPacket allocated config s p = .ok r ∧ r.sent = .ok live ∧
      packetPayloadBytes live = .ok ((timestampMapped (mappingSocket config s p) m' (payloadStart p)).bytes
        (payloadStart p) (payloadLen p))

theorem doInboundScriptPacket_plain (plain : PlainInbound p) (allocated : Mem) (config : Config) (s : Socket) :
    ∃ m, (∀ j, 32 ≤ j → j < p.ipBytes → m.get8 j = (filled p).buffer.get8 j) ∧
      tcpSeq m 20 = (scriptSeq p +
        (remoteSeqScriptToLiveOffset (mappingSocket config s p) (tcpSyn p.buffer 20)).toNat) % 2 ^ 32 ∧
      InjectsPlain allocated config s p m := by
  have lower := plain.lower
  have upper := plain.upper
  have live : PlainInbound (copied allocated (filled p)) :=
    { plain.filled.copied allocated with unseen := congrArg (Option.map (0 + ·)) plain.unseen }
  have copy {j : Nat} (early : j < payloadStart p) : (copied allocated (filled p)).buffer.get8 j = p.buffer.get8 j := by
    rw [get8_copied allocated (by show j < p.ipBytes; omega), get8_filled_ne early]
  have start : payloadStart (copied allocated (filled p)) = payloadStart p := by
    unfold payloadStart tcpDoff
    rw [copy (by omega)]
  have syn : tcpSyn (copied allocated (filled p)).buffer 20 = tcpSyn p.buffer 20 := by
    unfold tcpSyn
    rw [copy (by omega)]
  have seq : scriptSeq (copied allocated (filled p)) = scriptSeq p :=
    be32_of_get8 fun k _ _ => copy (by omega)
  obtain ⟨result, runs⟩ : ∃ result, doInboundScriptPacket allocated config s p = result := ⟨_, rfl⟩
  have begins := runs
  rw [doInboundScriptPacket, plain.fillPayload, ok_bind, plain.filled.packetCopy, ok_bind] at begins
  rw [show fillAnyip config (inboundHandshake s p) p = mappingSocket config s p from rfl] at begins
  obtain ⟨m, frame, moved, maps⟩ := mapInboundPacket_plain live (mappingSocket config s p)
  rw [seq, syn] at moved
  refine ⟨m, ?_, moved, ?_⟩
  · intro j early late
    rw [frame j (by omega), get8_copied allocated (by exact late)]
  rw [MapsPlain, start, syn] at maps
  rcases maps with ⟨short, mapped⟩ | ⟨long, m', tsVal, tsEcr, offsets, mapped⟩
  · rw [mapped, ok_bind] at begins
    exact .inl ⟨short, _, runs.trans begins.symm, rfl⟩
  · refine .inr ⟨long, m', ?_⟩
    rw [mapped, ok_bind] at begins
    let mappedLive : Packet := { copied allocated (filled p) with
      buffer := timestampMapped (mappingSocket config s p) m' (payloadStart p), tcpTsVal := tsVal, tcpTsEcr := tsEcr }
    have kept : ∀ j, j < 4 ∨ j = 32 → mappedLive.buffer.get8 j = (copied allocated (filled p)).buffer.get8 j := by
      intro j early
      rw [timestampMapped_header _ _ _ (by omega), offsets.header (by omega), frame j (by omega)]
    have plainLive : PlainTcp mappedLive := { live.toPlainTcp.congr kept with }
    obtain ⟨s', remembered⟩ := rememberInjected_plain plainLive (mappingSocket config s p)
    obtain ⟨sent, sentFrame, send⟩ := sendLiveIpPacket_plain plainLive
    simp only [mappedLive] at remembered send
    simp only [remembered, send, ok_bind, run_pure] at begins
    refine ⟨_, _, offsets, runs.trans begins.symm, rfl, ?_⟩
    have final : PlainTcp { mappedLive with buffer := sent } := plainLive.congr fun j early => sentFrame j (by omega)
    have finalStart : payloadStart { mappedLive with buffer := sent } = payloadStart p := by
      rw [← start]
      unfold payloadStart tcpDoff
      rw [sentFrame _ (by omega), kept _ (by omega)]
    have finalLen : payloadLen { mappedLive with buffer := sent } = payloadLen p := by
      unfold payloadLen
      rw [finalStart]
      rfl
    have carried := final.packetPayloadBytes
    rw [finalStart, finalLen] at carried
    rw [carried]
    congr 1
    apply bytes_of_get8
    intro k behind _
    exact sentFrame k (by omega)

end Plain

end TcpFuzz
