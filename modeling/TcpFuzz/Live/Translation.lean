import TcpFuzz.Live.Mapping

/-! Inbound packets are mapped from script to live sequence numbers, outbound segments the other way. The offsets
differ for SYN packets and agree on what an acknowledgment acknowledges. -/

namespace TcpFuzz
open Bytes Mem

def WellFormedOption (m : Mem) (stop o : Nat) : Prop :=
  m.get8 o ≤ 1 ∨
    (2 ≤ m.get8 (o + 1) ∧ o + m.get8 (o + 1) ≤ stop ∧ (m.get8 o = tcpoptTimestamp → m.get8 (o + 1) = 10) ∧
      (m.get8 o = tcpoptSack → 10 ≤ m.get8 (o + 1) ∧ m.get8 (o + 1) % 8 = 2))

instance (m : Mem) (stop o : Nat) : Decidable (WellFormedOption m stop o) :=
  inferInstanceAs (Decidable (_ ∨ _))

structure Segment (p : Packet) (tcp : Nat) : Prop where
  found : p.tcp = some tcp
  options : ∀ o ∈ segmentOptions p.buffer tcp, WellFormedOption p.buffer (optionsEnd p.buffer tcp) o

/-- The sequence number, the acknowledgment number if there is one, and the SACK edges. -/
def InNumbers (m : Mem) (tcp j : Nat) : Prop :=
  (tcp + 4 ≤ j ∧ j < tcp + 8) ∨ (tcpAck m tcp = true ∧ tcp + 8 ≤ j ∧ j < tcp + 12) ∨
    ∃ o ∈ segmentOptions m tcp, InSackBlocks m o j

def InEcho (m : Mem) (tcp j : Nat) : Prop :=
  ∃ o ∈ segmentOptions m tcp, m.get8 o = tcpoptTimestamp ∧ o + 6 ≤ j ∧ j < o + 10

def InAddresses (p : Packet) (j : Nat) : Prop :=
  match p.ipv4, p.ipv6 with
  | some ip, _ => ip + 12 ≤ j ∧ j < ip + 20
  | none, some ip => ip + 8 ≤ j ∧ j < ip + 40
  | none, none => False

/-- A segment to be injected: it lies behind its IP header, and a timestamp found in it before is
one of its timestamps. -/
structure InboundSegment (p : Packet) (tcp : Nat) : Prop extends Segment p tcp where
  icmpv4 : p.icmpv4 = none
  icmpv6 : p.icmpv6 = none
  addressed : p.ipv4.isSome ∨ p.ipv6.isSome
  behind : ∀ j, InAddresses p j → j < tcp
  echo : ∀ ecr, p.tcpTsEcr = some ecr →
    ∃ o ∈ segmentOptions p.buffer tcp, p.buffer.get8 o = tcpoptTimestamp ∧ ecr = o + 6

section Bytes

variable {m m' : Mem} {tcp : Nat}

theorem segmentOptions_behind {o : Nat} (member : o ∈ segmentOptions m tcp) : tcp + 20 ≤ o :=
  (optionOffsets_bounds o member).1

theorem InNumbers.not_option {o : Nat} (member : o ∈ segmentOptions m tcp) :
    ¬InNumbers m tcp o ∧ ¬InNumbers m tcp (o + 1) := by
  have behind := segmentOptions_behind member
  constructor
  all_goals
    rintro (seq | ack | ⟨o', member', block⟩)
    · omega
    · omega
    · have := block.apart member member'
      omega

theorem InNumbers.not_flags {j : Nat} (low : tcp + 12 ≤ j) (high : j < tcp + 20) : ¬InNumbers m tcp j := by
  rintro (seq | ack | ⟨o, member, block⟩)
  · omega
  · omega
  · have behind := segmentOptions_behind member
    have start := block.1
    omega

theorem segmentOptions_congr (frame : ∀ j, tcp + 12 ≤ j → ¬InNumbers m tcp j → m'.get8 j = m.get8 j) :
    segmentOptions m' tcp = segmentOptions m tcp ∧
      ∀ o ∈ segmentOptions m tcp, m'.get8 o = m.get8 o ∧ m'.get8 (o + 1) = m.get8 (o + 1) := by
  have same : ∀ o ∈ segmentOptions m tcp, m'.get8 o = m.get8 o ∧ m'.get8 (o + 1) = m.get8 (o + 1) := by
    intro o member
    have behind := segmentOptions_behind member
    obtain ⟨kind, length⟩ := InNumbers.not_option member
    exact ⟨frame o (by omega) kind, frame (o + 1) (by omega) length⟩
  have doff : optionsEnd m' tcp = optionsEnd m tcp := by
    unfold optionsEnd tcpDoff
    rw [frame (tcp + 12) (by omega) (InNumbers.not_flags (by omega) (by omega))]
  refine ⟨?_, same⟩
  unfold segmentOptions
  rw [doff]
  exact optionOffsets_congr fun o member => ⟨(same o member).1, fun _ => (same o member).2⟩

theorem InEcho.congr {j : Nat} (frame : ∀ j, tcp + 12 ≤ j → ¬InNumbers m tcp j → m'.get8 j = m.get8 j)
    (echo : InEcho m' tcp j) : InEcho m tcp j := by
  obtain ⟨options, same⟩ := segmentOptions_congr frame
  obtain ⟨o, member, kind, bounds⟩ := echo
  rw [options] at member
  exact ⟨o, member, by rw [← (same o member).1, kind], bounds⟩

theorem InEcho.not_numbers {p : Packet} {j : Nat} (segment : Segment p tcp) (echo : InEcho p.buffer tcp j) :
    ¬InNumbers p.buffer tcp j := by
  obtain ⟨o, member, kind, lower, upper⟩ := echo
  have behind := segmentOptions_behind member
  simp only [tcpoptTimestamp] at kind
  have length : p.buffer.get8 (o + 1) = 10 := by
    rcases segment.options o member with single | ⟨-, -, timestamp, -⟩
    · omega
    · exact timestamp kind
  rintro (seq | ack | ⟨o', member', block⟩)
  · omega
  · omega
  · have start := block.1
    rcases Nat.lt_trichotomy o o' with before | rfl | after
    · obtain ⟨next, step, ordered⟩ := optionOffsets_ordered member member' before
      have := tcpOptionsNext_length (by omega) step
      omega
    · have none : sackBlocks p.buffer o = 0 := by
        unfold sackBlocks
        rw [if_neg (by simp only [tcpoptSack]; omega)]
      have := block.2
      omega
    · obtain ⟨next, step, ordered⟩ := optionOffsets_ordered member' member after
      have := block.before_next step
      omega

end Bytes

def Acknowledges (m : Mem) (tcp : Nat) (m' : Mem) (ack ack' : Nat) : Prop :=
  (tcpAck m tcp = true ∧ ack = m.be32 (tcp + 8) ∧ ack' = m'.be32 (tcp + 8)) ∨
    ∃ o ∈ segmentOptions m tcp, ∃ i < 2 * sackBlocks m o,
      ack = m.be32 (o + 2 + 4 * i) ∧ ack' = m'.be32 (o + 2 + 4 * i)

structure Translated (m : Mem) (tcp : Nat) (seqOffset ackOffset : UInt32) (m' : Mem) : Prop where
  seq : tcpSeq m' tcp = (tcpSeq m tcp + seqOffset.toNat) % 2 ^ 32
  acks : ∀ {ack ack'}, Acknowledges m tcp m' ack ack' → ack' = (ack + ackOffset.toNat) % 2 ^ 32

section Offset

variable {m m' m'' : Mem} {tcp : Nat} {seqOffset ackOffset : UInt32}

theorem Translated.congr (done : Translated m tcp seqOffset ackOffset m')
    (same : ∀ j, InNumbers m tcp j → m''.get8 j = m'.get8 j) : Translated m tcp seqOffset ackOffset m'' := by
  refine ⟨?_, fun acknowledges => done.acks ?_⟩
  · rw [← done.seq]
    exact be32_of_get8 fun j lower upper => same j (.inl ⟨lower, by omega⟩)
  · rcases acknowledges with ⟨flag, old, new⟩ | ⟨o, member, i, edge, old, new⟩
    · refine .inl ⟨flag, old, new.trans ?_⟩
      exact be32_of_get8 fun j lower upper => same j (.inr (.inl ⟨flag, lower, by omega⟩))
    · refine .inr ⟨o, member, i, edge, old, new.trans ?_⟩
      exact be32_of_get8 fun j lower upper => same j (.inr (.inr ⟨o, member, by omega, by omega⟩))

theorem headerOffset_translated (m : Mem) (tcp : Nat) (seqOffset ackOffset : UInt32) :
    (tcpAck m tcp = true → (headerOffset m tcp seqOffset ackOffset).be32 (tcp + 8) =
        (m.be32 (tcp + 8) + ackOffset.toNat) % 2 ^ 32) ∧
      ∀ j, ¬InNumbers m tcp j → (headerOffset m tcp seqOffset ackOffset).get8 j = m.get8 j := by
  have flag : tcpAck (addSeq m (tcp + 4) seqOffset) tcp = tcpAck m tcp := by
    unfold tcpAck
    rw [get8_addSeq_ne _ (by omega)]
  simp only [headerOffset, flag]
  split
  next ack =>
    refine ⟨fun _ => ?_, fun j apart => ?_⟩
    · rw [be32_addSeq_self, be32_addSeq_ne _ (by omega)]
    · have seq : ¬(tcp + 4 ≤ j ∧ j < tcp + 8) := fun inside => apart (.inl inside)
      have acked : ¬(tcp + 8 ≤ j ∧ j < tcp + 12) := fun inside => apart (.inr (.inl ⟨ack, inside⟩))
      rw [get8_addSeq_ne _ (by omega), get8_addSeq_ne _ (by omega)]
  next none =>
    refine ⟨fun ack => absurd ack none, fun j apart => ?_⟩
    have seq : ¬(tcp + 4 ≤ j ∧ j < tcp + 8) := fun inside => apart (.inl inside)
    rw [get8_addSeq_ne _ (by omega)]

theorem Segment.not_short {p : Packet} (segment : Segment p tcp) :
    ∀ o ∈ segmentOptions p.buffer tcp, ¬ShortSack p.buffer o := by
  rintro o member ⟨kind, short⟩
  rcases segment.options o member with single | ⟨-, -, -, sack⟩
  · simp only [tcpoptSack] at kind
    omega
  · have := (sack kind).1
    omega

theorem Segment.offset {p : Packet} (segment : Segment p tcp) (seqOffset ackOffset : UInt32) :
    ∃ m, Translated p.buffer tcp seqOffset ackOffset m ∧ (∀ j, ¬InNumbers p.buffer tcp j → m.get8 j = p.buffer.get8 j) ∧
      offsetSeqNumbers p tcp seqOffset ackOffset = .ok (.ok { p with buffer := m }) := by
  have header := headerOffset_seqOffset p.buffer tcp seqOffset ackOffset
  obtain ⟨acked, apart⟩ := headerOffset_translated p.buffer tcp seqOffset ackOffset
  generalize run : headerOffset p.buffer tcp seqOffset ackOffset = h at header acked apart
  have options : optionOffsets h (optionsEnd p.buffer tcp) (tcp + 20) = segmentOptions p.buffer tcp :=
    optionOffsets_behind fun j behind => header.frame j (by omega)
  have blocks {o : Nat} (member : o ∈ segmentOptions p.buffer tcp) : sackBlocks h o = sackBlocks p.buffer o := by
    have behind := segmentOptions_behind member
    exact sackBlocks_congr (header.frame _ (by omega)) (header.frame _ (by omega))
  rw [offsetSeqNumbers_run segment.found, run]
  rcases sackLoop h (optionsEnd p.buffer tcp) (tcp + 20) ackOffset with ⟨⟨o, member, kind, short⟩, -⟩ | ⟨-, m, done, sacks⟩
  · rw [options] at member
    have behind := segmentOptions_behind member
    refine absurd ⟨?_, ?_⟩ (segment.not_short o member)
    · rw [← kind, header.frame _ (by omega)]
    · rw [← header.frame _ (by omega)]
      exact short
  -- The blocks lie behind the header, so what the header has become stays.
  have low {j : Nat} (fixed : j < tcp + 20) : m.get8 j = h.get8 j := by
    apply sacks.frame
    intro o member block
    have behind := (optionOffsets_bounds o member).1
    have start := block.1
    omega
  refine ⟨m, ⟨?_, ?_⟩, fun j outside => ?_, congrArg (fun r => Except.ok (Except.map _ r)) done⟩
  · rw [← header.seq]
    exact be32_of_get8 fun j lower upper => low (by omega)
  · rintro ack ack' (⟨flag, rfl, rfl⟩ | ⟨o, member, i, edge, rfl, rfl⟩)
    · rw [← acked flag]
      exact be32_of_get8 fun j lower upper => low (by omega)
    · have behind := segmentOptions_behind member
      have before : h.be32 (o + 2 + 4 * i) = p.buffer.be32 (o + 2 + 4 * i) :=
        be32_of_get8 fun j lower upper => header.frame j (by omega)
      rw [sacks.edges o (options ▸ member) i (blocks member ▸ edge), before]
  · rw [sacks.frame j, apart j outside]
    intro o member block
    rw [options] at member
    refine outside (.inr (.inr ⟨o, member, ?_⟩))
    unfold InSackBlocks at block ⊢
    rwa [← blocks member]

end Offset

section Same

variable {m m' m'' : Mem} {tcp : Nat} (same : ∀ j, tcp + 4 ≤ j → m'.get8 j = m.get8 j)
include same

theorem optionsEnd_same : optionsEnd m' tcp = optionsEnd m tcp := by
  unfold optionsEnd tcpDoff
  rw [same _ (by omega)]

theorem segmentOptions_same : segmentOptions m' tcp = segmentOptions m tcp := by
  unfold segmentOptions
  rw [optionsEnd_same same]
  exact optionOffsets_behind fun j behind => same j (by omega)

theorem tcpAck_same : tcpAck m' tcp = tcpAck m tcp := by
  unfold tcpAck
  rw [same _ (by omega)]

theorem sackBlocks_same {o : Nat} (member : o ∈ segmentOptions m tcp) : sackBlocks m' o = sackBlocks m o := by
  have behind := segmentOptions_behind member
  exact sackBlocks_congr (same _ (by omega)) (same _ (by omega))

theorem InNumbers.behind {j : Nat} (inside : InNumbers m' tcp j) : InNumbers m tcp j := by
  rcases inside with seq | ⟨flag, ack⟩ | ⟨o, member, block⟩
  · exact .inl seq
  · exact .inr (.inl ⟨tcpAck_same same ▸ flag, ack⟩)
  · rw [segmentOptions_same same] at member
    refine .inr (.inr ⟨o, member, ?_⟩)
    unfold InSackBlocks at block ⊢
    rwa [← sackBlocks_same same member]

theorem InEcho.behind {j : Nat} (echo : InEcho m' tcp j) : InEcho m tcp j := by
  obtain ⟨o, member, kind, bounds⟩ := echo
  rw [segmentOptions_same same] at member
  have behind := segmentOptions_behind member
  exact ⟨o, member, by rw [← same o (by omega), kind], bounds⟩

theorem Translated.behind {seqOffset ackOffset : UInt32} (done : Translated m' tcp seqOffset ackOffset m'') :
    Translated m tcp seqOffset ackOffset m'' := by
  refine ⟨?_, fun acknowledges => done.acks ?_⟩
  · have seq : tcpSeq m' tcp = tcpSeq m tcp := be32_of_get8 fun j lower _ => same j lower
    rw [done.seq, seq]
  · rcases acknowledges with ⟨flag, old, new⟩ | ⟨o, member, i, edge, old, new⟩
    · refine .inl ⟨(tcpAck_same same).trans flag, old.trans ?_, new⟩
      exact (be32_of_get8 fun j lower _ => same j (by omega)).symm
    · have behind := segmentOptions_behind member
      refine .inr ⟨o, segmentOptions_same same ▸ member, i, sackBlocks_same same member ▸ edge, old.trans ?_, new⟩
      exact (be32_of_get8 fun j lower _ => same j (by omega)).symm

end Same

section Inbound

variable {p : Packet} {tcp : Nat}

theorem InboundSegment.mapTuple (segment : InboundSegment p tcp) (s : Socket) :
    ∃ m, (∀ j, ¬InAddresses p j → j < tcp ∨ tcp + 4 ≤ j → m.get8 j = p.buffer.get8 j) ∧
      mapTuple s p = .ok { p with buffer := m } := by
  let t := socketGetInbound s.live
  obtain ⟨addressed, frame, set⟩ : ∃ m : Mem, (∀ j, ¬InAddresses p j → m.get8 j = p.buffer.get8 j) ∧
      setHeadersTuple p.buffer p.ipv4 p.ipv6 p.tcp p.udp t = .ok (setPorts m tcp t) := by
    have four (ip : IpAddress) : (ip.toList.take 4).length = 4 := by simp
    have all (ip : IpAddress) : ip.toList.length = 16 := by simp
    unfold InAddresses setHeadersTuple
    rw [segment.found]
    cases v4 : p.ipv4 with
    | some ip =>
      refine ⟨_, fun j apart => ?_, rfl⟩
      simp only at apart
      rw [get8_write_ne _ _ (by rw [four]; omega), get8_write_ne _ _ (by rw [four]; omega)]
    | none =>
      cases v6 : p.ipv6 with
      | some ip =>
        refine ⟨_, fun j apart => ?_, rfl⟩
        simp only at apart
        rw [get8_write_ne _ _ (by rw [all]; omega), get8_write_ne _ _ (by rw [all]; omega)]
      | none => simpa [v4, v6] using segment.addressed
  have tuple : setPacketTuple p t = .ok { p with buffer := setPorts addressed tcp t } := by
    simp only [setPacketTuple, set, segment.icmpv4, segment.icmpv6, ok_bind, run_pure]
    rfl
  refine ⟨restorePorts p.buffer (setPorts addressed tcp t) tcp, fun j outside apart => ?_, ?_⟩
  · rw [restorePorts_frame _ _ (by omega), setPorts, get8_putBe16_ne _ _ (by omega), get8_putBe16_ne _ _ (by omega),
      frame j outside]
  · rw [TcpFuzz.mapTuple, tuple, ok_bind, segment.found]
    rfl

theorem Segment.behind {m : Mem} (segment : Segment p tcp) (same : ∀ j, tcp + 4 ≤ j → m.get8 j = p.buffer.get8 j) :
    Segment { p with buffer := m } tcp := by
  refine ⟨segment.found, fun o member => ?_⟩
  have behind := segmentOptions_behind member
  have kept := segment.options o (segmentOptions_same same ▸ member)
  unfold WellFormedOption at kept ⊢
  rw [optionsEnd_same same, same o (by omega), same (o + 1) (by omega)]
  exact kept

theorem mapTimestamp_frame (found : p.tcp = some tcp) (s : Socket)
    (echo : ∀ ecr, p.tcpTsEcr = some ecr →
      ∃ o ∈ segmentOptions p.buffer tcp, p.buffer.get8 o = tcpoptTimestamp ∧ ecr = o + 6) :
    ∃ m tsVal tsEcr, mapTimestamp s p tcp = .ok (.ok { p with buffer := m, tcpTsVal := tsVal, tcpTsEcr := tsEcr }) ∧
      ∀ j, ¬InEcho p.buffer tcp j → m.get8 j = p.buffer.get8 j := by
  obtain ⟨tsVal, tsEcr, looked, points⟩ : ∃ tsVal tsEcr,
      mapTimestamp s p tcp = .ok (.ok (mapTsEcr s { p with tcpTsVal := tsVal, tcpTsEcr := tsEcr } tcp)) ∧
      ∀ ecr, tsEcr = some ecr → ∃ o ∈ segmentOptions p.buffer tcp, p.buffer.get8 o = tcpoptTimestamp ∧ ecr = o + 6 := by
    unfold mapTimestamp
    split
    · rw [findTcpTimestamp_eq found, ok_bind]
      refine ⟨_, _, rfl, fun ecr seen => ?_⟩
      obtain ⟨o, last, rfl⟩ := Option.map_eq_some_iff.mp seen
      have kind := (List.mem_filter.mp (List.mem_of_getLast? last)).2
      exact ⟨o, lastTimestamp_mem last, by simpa using kind, rfl⟩
    · exact ⟨p.tcpTsVal, p.tcpTsEcr, rfl, echo⟩
  rw [looked]
  cases seen : tsEcr with
  | none => exact ⟨p.buffer, tsVal, none, rfl, fun _ _ => rfl⟩
  | some ecr =>
    obtain ⟨o, member, kind, rfl⟩ := points ecr seen
    simp only [mapTsEcr]
    split
    · refine ⟨_, tsVal, some (o + 6), rfl, fun j outside => ?_⟩
      have apart : ¬(o + 6 ≤ j ∧ j < o + 10) := fun inside => outside ⟨o, member, kind, inside⟩
      exact get8_putBe32_ne _ _ (by omega)
    · exact ⟨p.buffer, tsVal, some (o + 6), rfl, fun _ _ => rfl⟩

theorem mapInboundPacket_tcp {s : Socket} {live : Packet} (mapped : TcpFuzz.mapTuple s p = .ok live)
    (icmpv4 : live.icmpv4 = none) (icmpv6 : live.icmpv6 = none) (found : live.tcp = some tcp) :
    mapInboundPacket s p = mapInboundTcp s live tcp := by
  rw [mapInboundPacket, mapped, ok_bind, if_neg (by simp [icmpv4, icmpv6]), found]

/-- What `map_inbound_packet` does to a segment: its numbers are offset, and all else it changes are
addresses, ports and echo replies. -/
theorem InboundSegment.mapped (segment : InboundSegment p tcp) (s : Socket) :
    ∃ m tsVal tsEcr,
      mapInboundPacket s p = .ok (.ok { p with buffer := m, tcpTsVal := tsVal, tcpTsEcr := tsEcr }) ∧
      Translated p.buffer tcp (remoteSeqScriptToLiveOffset s (tcpSyn p.buffer tcp))
        (localSeqScriptToLiveOffset s (tcpSyn p.buffer tcp)) m ∧
      ∀ j, ¬InNumbers p.buffer tcp j → ¬InAddresses p j → (j < tcp ∨ tcp + 4 ≤ j) → ¬InEcho p.buffer tcp j →
        m.get8 j = p.buffer.get8 j := by
  obtain ⟨m₁, tuple, mapped⟩ := segment.mapTuple s
  have same (j : Nat) (behind : tcp + 4 ≤ j) : m₁.get8 j = p.buffer.get8 j := by
    refine tuple j (fun address => ?_) (.inr behind)
    have := segment.behind j address
    omega
  have syn : tcpSyn m₁ tcp = tcpSyn p.buffer tcp := by
    unfold tcpSyn
    rw [same _ (by omega)]
  have inside : Segment { p with buffer := m₁ } tcp := segment.toSegment.behind same
  obtain ⟨m₂, translated, frame, offset⟩ := inside.offset
    (remoteSeqScriptToLiveOffset s (tcpSyn m₁ tcp)) (localSeqScriptToLiveOffset s (tcpSyn m₁ tcp))
  obtain ⟨options, kinds⟩ := segmentOptions_congr fun j _ => frame j
  have echo (ecr : Nat) (seen : p.tcpTsEcr = some ecr) :
      ∃ o ∈ segmentOptions m₂ tcp, m₂.get8 o = tcpoptTimestamp ∧ ecr = o + 6 := by
    obtain ⟨o, member, kind, points⟩ := segment.echo ecr seen
    have behind := segmentOptions_behind member
    rw [← segmentOptions_same same] at member
    exact ⟨o, options ▸ member, by rw [(kinds o member).1, same _ (by omega), kind], points⟩
  obtain ⟨m₃, tsVal, tsEcr, stamped, echoed⟩ := mapTimestamp_frame (p := { p with buffer := m₂ }) segment.found s echo
  refine ⟨m₃, tsVal, tsEcr, ?_, ?_, fun j number address port echo => ?_⟩
  · rw [mapInboundPacket_tcp mapped segment.icmpv4 segment.icmpv6 segment.found, mapInboundTcp, offset, ok_bind]
    exact stamped
  · rw [← syn]
    refine (translated.congr fun j number => echoed j fun echo => ?_).behind same
    exact InEcho.not_numbers inside (echo.congr fun j _ => frame j) number
  · have untouched : ¬InNumbers m₁ tcp j := fun inside => number (inside.behind same)
    have unechoed : ¬InEcho m₂ tcp j := fun inside => echo ((inside.congr fun j _ => frame j).behind same)
    rw [echoed j unechoed, frame j untouched, tuple j address port]

end Inbound

theorem Segment.converted {p : Packet} {tcp : Nat} (segment : Segment p tcp) (s : Socket) :
    ∃ m, tcpConvertSeqNumber s p = .ok (.ok { p with buffer := m }) ∧
      Translated p.buffer tcp (localSeqLiveToScriptOffset s (tcpSyn p.buffer tcp))
        (remoteSeqLiveToScriptOffset s (tcpSyn p.buffer tcp)) m ∧
      ∀ j, ¬InNumbers p.buffer tcp j → m.get8 j = p.buffer.get8 j := by
  have read : deref p.tcp = .ok tcp := by
    rw [segment.found]
    rfl
  obtain ⟨m, translated, frame, offset⟩ := segment.offset
    (localSeqLiveToScriptOffset s (tcpSyn p.buffer tcp)) (remoteSeqLiveToScriptOffset s (tcpSyn p.buffer tcp))
  refine ⟨m, ?_, translated, frame⟩
  rw [tcpConvertSeqNumber, read, ok_bind]
  exact offset

def ackOf (isSyn : Bool) (seq n : Nat) : Nat := (seq + (if isSyn then 1 else 0) + n) % 2 ^ 32

/-- The script counts from zero at a SYN, whatever sequence number the SYN has. -/
def scriptAckOf (isSyn : Bool) (seq n : Nat) : Nat := ackOf isSyn (if isSyn then 0 else seq) n

section Ack

variable (isSyn : Bool) (n : Nat)

theorem ackOf_offset (seq offset : Nat) : (ackOf isSyn seq n + offset) % 2 ^ 32 = ackOf isSyn (seq + offset) n := by
  unfold ackOf
  omega

theorem ackOf_congr {seq seq' : Nat} (same : seq % 2 ^ 32 = seq' % 2 ^ 32) : ackOf isSyn seq n = ackOf isSyn seq' n := by
  unfold ackOf
  omega

end Ack

/-- The offsets of the two directions cancel, and a live packet, its sequence numbers and those
that acknowledge it live, is acknowledged as its script packet is. -/
theorem seqTranslation_consistent (s : Socket) {p q : Packet} {tcpIn tcpOut : Nat} (inbound : InboundSegment p tcpIn)
    (outbound : Segment q tcpOut) :
    ∃ live tsVal tsEcr script,
      mapInboundPacket s p = .ok (.ok { p with buffer := live, tcpTsVal := tsVal, tcpTsEcr := tsEcr }) ∧
      tcpConvertSeqNumber s q = .ok (.ok { q with buffer := script }) ∧
      -- an acknowledgment of the inbound packet
      (tcpSyn q.buffer tcpOut = false → (tcpSyn p.buffer tcpIn = true → tcpSeq live tcpIn = s.live.remoteIsn.toNat) →
        ∀ n ack, Acknowledges q.buffer tcpOut script (ackOf (tcpSyn p.buffer tcpIn) (tcpSeq live tcpIn) n) ack →
          ack = scriptAckOf (tcpSyn p.buffer tcpIn) (tcpSeq p.buffer tcpIn) n) ∧
      -- an acknowledgment of the outbound segment
      (tcpSyn p.buffer tcpIn = false → (tcpSyn q.buffer tcpOut = true → tcpSeq q.buffer tcpOut = s.live.localIsn.toNat) →
        ∀ n ack, Acknowledges p.buffer tcpIn live (scriptAckOf (tcpSyn q.buffer tcpOut) (tcpSeq script tcpOut) n) ack →
          ack = ackOf (tcpSyn q.buffer tcpOut) (tcpSeq q.buffer tcpOut) n) ∧
      -- an inbound SYN|ACK
      (tcpSyn p.buffer tcpIn = true → tcpAck p.buffer tcpIn = true →
        p.buffer.be32 (tcpIn + 8) = (s.script.localIsn.toNat + 1) % 2 ^ 32 →
        live.be32 (tcpIn + 8) = (s.live.localIsn.toNat + 1) % 2 ^ 32) ∧
      -- the other bytes
      (∀ j, ¬InNumbers p.buffer tcpIn j → ¬InAddresses p j → (j < tcpIn ∨ tcpIn + 4 ≤ j) → ¬InEcho p.buffer tcpIn j →
        live.get8 j = p.buffer.get8 j) ∧
      (∀ j, ¬InNumbers q.buffer tcpOut j → script.get8 j = q.buffer.get8 j) := by
  obtain ⟨live, tsVal, tsEcr, mapped, toLive, liveFrame⟩ := inbound.mapped s
  obtain ⟨script, converted, toScript, scriptFrame⟩ := outbound.converted s
  refine ⟨live, tsVal, tsEcr, script, mapped, converted, ?_, ?_, ?_, liveFrame, scriptFrame⟩
  · intro data isn n ack acknowledges
    rw [toScript.acks acknowledges, ackOf_offset, scriptAckOf]
    apply ackOf_congr
    rw [data, remoteSeqLiveToScriptOffset, remoteSeqScriptToLiveOffset, if_neg Bool.false_ne_true]
    split
    next syn => rw [isn syn, add_neg_toNat, Nat.zero_mod]
    next other =>
      rw [toLive.seq, remoteSeqScriptToLiveOffset, if_neg other, Nat.mod_add_mod, Nat.add_assoc, ← Nat.add_mod_mod,
        add_neg_toNat, Nat.add_zero]
  · intro data isn n ack acknowledges
    rw [toLive.acks acknowledges, scriptAckOf, ackOf_offset]
    apply ackOf_congr
    rw [data, localSeqScriptToLiveOffset, if_neg Bool.false_ne_true]
    split
    next syn => rw [isn syn, Nat.zero_add]
    next other =>
      rw [toScript.seq, localSeqLiveToScriptOffset, localSeqScriptToLiveOffset, if_neg other, Nat.mod_add_mod,
        Nat.add_assoc, Nat.add_comm (-_ : UInt32).toNat, ← Nat.add_mod_mod, add_neg_toNat, Nat.add_zero]
  · intro syn flag scripted
    rw [toLive.acks (.inl ⟨flag, rfl, rfl⟩), scripted, syn, localSeqScriptToLiveOffset, if_pos rfl, UInt32.toNat_sub]
    have script := s.script.localIsn.toNat_lt
    omega

/-- A segment with sequence number 5 that acknowledges 9, with the block 12 to 16 and a timestamp. -/
def sackedSegment : Packet :=
  { buffer := .ofList (List.replicate 24 0 ++ [0, 0, 0, 5, 0, 0, 0, 9, 0xb0, 0x10, 0, 0, 0, 0, 0, 0] ++
      [5, 10, 0, 0, 0, 12, 0, 0, 0, 16, 1, 0, 8, 10, 0, 0, 0, 7, 0, 0, 0, 8, 1, 1])
    bufferBytes := 64, ipv4 := some 0, tcp := some 20 }

def wrappingSocket : Socket where
  state := .passiveSynackAcked
  script := ⟨⟨Vector.replicate 16 0, 0⟩, 0, ⟨Vector.replicate 16 0, 0⟩, 0⟩
  live := ⟨⟨Vector.replicate 16 0, 0⟩, 100, ⟨Vector.replicate 16 0, 0⟩, 0xfffffffa⟩
  tsValMap := fun _ => none
  lastInjectedTcpHeader := []
  lastInjectedTcpPayloadLen := 0

theorem sackedSegment_inbound : InboundSegment sackedSegment 20 where
  found := rfl
  options := by decide +kernel
  icmpv4 := rfl
  icmpv6 := rfl
  addressed := .inl rfl
  behind j address := by
    have : 0 + 12 ≤ j ∧ j < 0 + 20 := address
    omega
  echo ecr seen := by cases seen

/-- The segment is injected with sequence number 2³² - 1, and an acknowledgment of ten bytes of it is
one of fifteen in the script. -/
theorem seqTranslation_consistent_wrapping :
    ∃ live script, mapInboundPacket wrappingSocket sackedSegment = .ok (.ok live) ∧
      tcpConvertSeqNumber wrappingSocket sackedSegment = .ok (.ok script) ∧
      tcpSeq live.buffer 20 = 2 ^ 32 - 1 ∧ sackedSegment.buffer.be32 28 = ackOf false (2 ^ 32 - 1) 10 ∧
      script.buffer.be32 28 = 15 := by
  obtain ⟨live, tsVal, tsEcr, script, mapped, converted, acked, -⟩ :=
    seqTranslation_consistent wrappingSocket sackedSegment_inbound sackedSegment_inbound.toSegment
  have seq : tcpSeq live 20 = 2 ^ 32 - 1 := by
    have evaluated : (mapInboundPacket wrappingSocket sackedSegment).toOption.bind
        (fun mapped => mapped.toOption.map fun live => tcpSeq live.buffer 20) = some (2 ^ 32 - 1) := by
      decide +kernel
    rw [mapped] at evaluated
    exact Option.some.inj evaluated
  have ten : sackedSegment.buffer.be32 28 = ackOf false (2 ^ 32 - 1) 10 := by decide +kernel
  have data : tcpSyn sackedSegment.buffer 20 = false := by decide +kernel
  refine ⟨_, _, mapped, converted, seq, ten, ?_⟩
  refine (acked data (by simp [data]) 10 (script.be32 28) (.inl ⟨by decide +kernel, ?_, rfl⟩)).trans (by decide +kernel)
  rw [data, seq, ten]

end TcpFuzz
