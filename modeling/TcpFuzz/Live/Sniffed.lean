import TcpFuzz.Live.Mapping
import TcpFuzz.Packet.Aggregate

/-! The buffer that `aggregate_packets` returns for sniffed packets, by its bytes and headers. -/

namespace TcpFuzz
open Bytes Mem

variable {m buffer : Mem} {layer : PacketLayer} {bufferBytes j : Nat} {p : Packet} {fs : List Extent}

/-! ### Sniffed packets -/

/-- A packet that was parsed, and then marked with its direction and the time it was seen. -/
def Sniffed (layer : PacketLayer) (p : Packet) : Prop :=
  ∃ m bufferBytes inBytes q time, inBytes ≤ bufferBytes ∧
    parsePacket (packetNew m bufferBytes) inBytes layer = .ok (.ok, q) ∧
    p = { q with direction := .outbound, timeUsecs := time }

/-- The headers of an accepted packet, the last of which is `t`. -/
structure RecordedAs (layer : PacketLayer) (p : Packet) (inBytes : Nat) (es : List Extent) (t : Extent) : Prop where
  wire : WirePacket p.buffer inBytes layer es
  layout : Layout p (es.map Extent.header)
  last : es.getLast? = some t
  ipBytes : p.ipBytes = recordedLength 0 es
  tcp : p.tcp = if t.type = .tcp then some t.start else none
  udp : p.udp = if t.type = .udp then some t.start else none
  payload : packetPayload p = .ok t.inner

theorem recorded_recordedAs {inBytes : Nat} {es : List Extent} {t : Extent}
    (bufferBytes : Nat) (wire : WirePacket m inBytes layer es) (fits : es.length ≤ packetMaxHeaders)
    (last : es.getLast? = some t) : RecordedAs layer (recorded layer (packetNew m bufferBytes) es) inBytes es t := by
  have fresh := packetNew_fresh m bufferBytes
  have data := recorded_metadata fresh ⟨rfl, rfl, rfl, rfl, rfl, rfl⟩ wire fits
  obtain ⟨t', last', -, tcp, udp, -⟩ := data.transport
  obtain rfl : t' = t := Option.some.inj (last'.symm.trans last)
  have buffer : (recorded layer (packetNew m bufferBytes) es).buffer = m := (parsed_frame wire.2.nested).1
  have length := parsed_ipBytes (p := layer.started (packetNew m bufferBytes)) wire.2.nested
    fun e member => (wire.within e member).positive
  exact ⟨buffer.symm ▸ wire, data.layout, last, length, tcp, udp, recorded_payload data wire last⟩

theorem parsePacket_recordedAs {inBytes : Nat} {q : Packet}
    (buffered : inBytes ≤ bufferBytes) (parsed : parsePacket (packetNew m bufferBytes) inBytes layer = .ok (.ok, q)) :
    ∃ es t, q.buffer = m ∧ RecordedAs layer q inBytes es t := by
  obtain ⟨es, wire, fits, rfl⟩ := (parsePacket_ok_iff (packetNew_fresh m bufferBytes) buffered).mp parsed
  obtain ⟨t, last, -⟩ := wire.2.nested.last
  exact ⟨es, t, (parsed_frame wire.2.nested).1, recorded_recordedAs bufferBytes wire fits last⟩

theorem Sniffed.recordedAs (sniffed : Sniffed layer p) :
    ∃ inBytes es t, RecordedAs layer p inBytes es t := by
  obtain ⟨m, bufferBytes, inBytes, q, time, buffered, parsed, rfl⟩ := sniffed
  obtain ⟨es, t, -, wire, layout, last, ipBytes, tcp, udp, payload⟩ := parsePacket_recordedAs buffered parsed
  exact ⟨inBytes, es, t, wire, ⟨layout.table, layout.used⟩, last, ipBytes, tcp, udp, payload⟩

section Recorded

variable {layer : PacketLayer} {p : Packet} {inBytes : Nat} {es : List Extent} {t : Extent}

theorem RecordedAs.starts (recorded : RecordedAs layer p inBytes es t) :
    packetStart p = .ok layer.headerBytes := by
  have layout := recorded.layout
  have contiguous := recorded.wire.2.contiguous
  obtain ⟨e, ds, rfl⟩ := List.exists_cons_of_ne_nil recorded.wire.2.ne_nil
  rw [List.map_cons] at layout
  rw [layout.packetStart]
  simp [requirePtr, Extent.header, contiguous.1]

theorem RecordedAs.ends (recorded : RecordedAs layer p inBytes es t) :
    packetEnd p = .ok (layer.headerBytes + p.ipBytes) := by
  rw [packetEnd, recorded.starts]
  rfl

theorem RecordedAs.payloadLen (recorded : RecordedAs layer p inBytes es t) :
    packetPayloadLen p = .ok ((layer.headerBytes + p.ipBytes : Nat) - t.inner : Int) := by
  rw [packetPayloadLen, recorded.ends, recorded.payload]
  rfl

theorem RecordedAs.carried (recorded : RecordedAs layer p inBytes es t) :
    carriedLen p = (layer.headerBytes + p.ipBytes : Nat) - t.inner ∧ packetPayloadLen p = .ok (carriedLen p) := by
  have carried : carriedLen p = _ := congrArg (fun run => run.toOption.getD 0) recorded.payloadLen
  exact ⟨carried, carried ▸ recorded.payloadLen⟩

theorem Sniffed.readable (sniffed : Sniffed layer p) :
    ∃ start, packetPayload p = .ok start ∧ packetPayloadLen p = .ok (carriedLen p) := by
  obtain ⟨inBytes, es, t, recorded⟩ := sniffed.recordedAs
  exact ⟨t.inner, recorded.payload, recorded.carried.2⟩

end Recorded

/-! ### What aggregation returns -/

section Returned

variable {layer : PacketLayer} {last : Packet} {inBytes : Nat} {es : List Extent} {t : Extent}

def aggregateInfo (buffer : Mem) (bufferBytes : Nat) (last : Packet) (extra : Nat) : Packet :=
  packetDuplicateInfo (packetNew buffer bufferBytes) last 0 extra

def aggregateOf (buffer m : Mem) (bufferBytes : Nat) (last : Packet) (extra : Nat) (hs : List Header) : Packet :=
  { aggregateInfo buffer bufferBytes last extra with
    buffer := m, headers := Vector.ofFn fun i => hs.getD i .unused }

theorem aggregateInfo_layout (layout : Layout last (es.map Extent.header)) (buffer : Mem) (bufferBytes extra : Nat) :
    Layout (aggregateInfo buffer bufferBytes last extra) (es.map Extent.header) := by
  apply Layout.of_get layout.length_le layout.used
  intro i
  have copied : (aggregateInfo buffer bufferBytes last extra).headers.get i = _ :=
    packetCopyHeaders_get layout 0 i
  rw [copied]
  split
  · rw [Header.shift_zero]
  next outside =>
    rw [List.getD_eq_default _ _ (by omega)]
    exact Vector.getElem_replicate i.isLt

variable {first : Packet} {rest : List Packet} {firstTcp : Nat}

theorem aggregatePackets_ok_iff (allocated : Mem) (recorded : RecordedAs layer (rest.getLastD first) inBytes es t)
    (continues : t.type = .tcp → first.tcp = some firstTcp) (size : Int) {r : Packet} :
    aggregatePackets allocated first rest size = .ok r ↔ 0 ≤ size ∧ ∃ buffer m hs,
      copyPayloads (t.inner + size.toNat) (allocated.copy 0 (rest.getLastD first).buffer 0 t.inner) t.inner
        (first :: rest) = .ok buffer ∧
      finishHeaders (continuedMem buffer t first firstTcp)
        ((es.map (Extent.grow (size - carriedLen (rest.getLastD first)).toNat)).map Extent.header ++
          List.replicate (packetMaxHeaders - es.length) Header.unused) = .ok (m, hs) ∧
      r = aggregateOf buffer m (t.inner + size.toNat) (rest.getLastD first)
        (size - carriedLen (rest.getLastD first)).toNat hs := by
  obtain ⟨carried, length⟩ := recorded.carried
  unfold aggregatePackets
  generalize rest.getLastD first = last at *
  have fits : ((layer.headerBytes + last.ipBytes : Nat) : Int) + (size - carriedLen last) = t.inner + size := by
    rw [carried]
    omega
  simp only [length, recorded.payload, recorded.ends, ok_bind, fits]
  by_cases negative : size < 0
  · rw [if_pos (by omega)]
    constructor
    · rintro ⟨⟩
    · intro returned
      omega
  have bytes : ((t.inner : Int) + size).toNat = t.inner + size.toNat := by omega
  rw [if_neg (by omega), bytes]
  generalize (size - carriedLen last).toNat = extra
  have pointers (isTcp : t.type = .tcp) (buffer : Mem) :
      (aggregateInfo buffer (t.inner + size.toNat) last extra).tcp = some t.start ∧ first.tcp = some firstTcp := by
    refine ⟨?_, continues isTcp⟩
    change last.tcp.map (0 + ·) = _
    rw [recorded.tcp, if_pos isTcp, Option.map_some, Nat.zero_add]
  have grown (buffer : Mem) := growPacket_eq extra
    (aggregateInfo_layout recorded.layout buffer (t.inner + size.toNat) extra) recorded.wire.2.nested recorded.last
    (pointers · buffer)
  constructor
  · intro returned
    refine ⟨by omega, ?_⟩
    cases copied : copyPayloads (t.inner + size.toNat) (allocated.copy 0 last.buffer 0 t.inner) t.inner (first :: rest) with
    | error f => rw [copied] at returned; cases returned
    | ok buffer =>
      rw [copied, ok_bind] at returned
      have finished := (grown buffer).symm.trans returned
      change (finishHeaders (continuedMem buffer t first firstTcp) _ >>= _) = _ at finished
      cases run : finishHeaders (continuedMem buffer t first firstTcp) ((es.map (Extent.grow extra)).map Extent.header ++
          List.replicate (packetMaxHeaders - es.length) Header.unused) with
      | error f => rw [run] at finished; cases finished
      | ok result =>
        rw [run] at finished
        exact ⟨buffer, result.1, result.2, rfl, run, (Except.ok.inj finished).symm⟩
  · rintro ⟨-, buffer, m, hs, copied, finished, rfl⟩
    rw [copied, ok_bind]
    refine (grown buffer).trans ?_
    change (finishHeaders (continuedMem buffer t first firstTcp) _ >>= _) = _
    rw [finished]
    rfl

/-! ### The bytes of an aggregate -/

def Continued (t : Extent) (j : Nat) : Prop :=
  t.type = .tcp ∧ (t.start + 4 ≤ j ∧ j < t.start + 8 ∨ j = t.start + 13)

theorem continuedMem_frame (buffer : Mem) (apart : ¬Continued t j) :
    (continuedMem buffer t first firstTcp).get8 j = buffer.get8 j := by
  unfold continuedMem
  split
  next isTcp =>
    have outside : (j < t.start + 4 ∨ t.start + 4 + 4 ≤ j) ∧ j ≠ t.start + 13 := by
      by_contra inside
      exact apart ⟨isTcp, by omega⟩
    rw [copySeqAndCwr, get8_put8_ne _ _ outside.2, get8_copy_ne _ _ _ outside.1]
  next => rfl

theorem copyPayloads_headers {allocated : Mem} {pos : Nat} {ps : List Packet}
    (copied : copyPayloads bufferBytes (allocated.copy 0 last.buffer 0 pos) pos ps = .ok buffer)
    (inside : j < pos) : buffer.get8 j = last.buffer.get8 j := by
  have front := get8_copy_inside allocated (i := 0) last.buffer 0 inside
  rw [Nat.zero_add] at front
  rw [copyPayloads_frame copied j inside, front]

theorem RecordedAs.encapsulation_kept (recorded : RecordedAs layer last inBytes es t)
    (kept : ∀ j < t.inner, ¬Continued t j → m.get8 j = last.buffer.get8 j) {e : Extent} (member : e ∈ es)
    (encapsulation : e.type.IsEncapsulation) (inside : j < e.inner) : m.get8 j = last.buffer.get8 j := by
  have inner := recorded.wire.2.contiguous.inner_le_last recorded.wire.2.nested recorded.last e member encapsulation
  have after : t.start ≤ t.inner := Nat.le_add_right _ _
  refine kept j (by omega) ?_
  rintro ⟨-, continued⟩
  omega

/-- The headers of the last packet can be finished for a payload of any size, except that a UDP
header keeps the length it has. -/
theorem RecordedAs.refinishes (recorded : RecordedAs layer last inBytes es t) {size : Nat}
    (kept : ∀ j < t.inner, ¬Continued t j → m.get8 j = last.buffer.get8 j)
    (plain : ∀ e ∈ es, e.type = .ipv4 → e.headerBytes = 20)
    (datagram : t.type = .udp → t.totalBytes = t.headerBytes + size) :
    ∀ e ∈ es, Refinishes last.buffer m (t.inner + size) e := by
  intro e member
  have nested := recorded.wire.2.nested
  have contiguous := recorded.wire.2.contiguous
  have ready := recorded.wire.2.unfinished e member (plain e member)
  have before := ready.start_lt
  rcases nested.isTransport_iff recorded.last e member with ⟨transport, rfl⟩ | encapsulation
  · have first : m.get8 e.start = last.buffer.get8 e.start := by
      refine kept _ before ?_
      rintro ⟨-, inside⟩
      omega
    have total : (e.endAt (e.inner + size)).totalBytes = e.headerBytes + size := by
      simp only [Extent.endAt, Extent.inner]
      omega
    refine ⟨?_, by omega, first⟩
    by_cases isTcp : e.type = .tcp
    · unfold Unfinished at ready ⊢
      rw [isTcp] at ready
      rw [show (e.endAt (e.inner + size)).type = .tcp from isTcp]
      obtain ⟨words, long, contained⟩ := ready
      have doff : tcpDoff m e.start = tcpDoff last.buffer e.start := by
        rw [tcpDoff, kept _ (by simp only [Extent.inner]; omega), tcpDoff]
        rintro ⟨-, inside⟩
        omega
      simp only [total]
      change e.headerBytes = tcpDoff m e.start * 4 ∧ TcpHeader m _ e.start
      rw [doff]
      exact ⟨words, by rw [doff]; exact long, by rw [doff]; omega⟩
    · have same (j : Nat) (inside : j < e.headerBytes) : m.get8 (e.start + j) = last.buffer.get8 (e.start + j) :=
        kept _ (by simp only [Extent.inner]; omega) fun continued => isTcp continued.1
      by_cases isUdp : e.type = .udp
      · refine ready.move rfl rfl (fun _ => ?_) same
        rw [total, datagram isUdp]
      · unfold Unfinished at ready ⊢
        rcases transport with type | type | type | type
        · exact (isTcp type).elim
        · exact (isUdp type).elim
        all_goals
          rw [show (e.endAt (e.inner + size)).type = _ from type]
          rw [type] at ready
          exact ⟨ready.1, by rw [total]; omega⟩
  · have inner := contiguous.inner_le_last nested recorded.last e member encapsulation
    have after : t.start ≤ t.inner := Nat.le_add_right _ _
    have same (j : Nat) (inside : j < e.inner) := recorded.encapsulation_kept kept member encapsulation inside
    refine ⟨ready.move rfl rfl (fun transport => ?_) fun j inside => same _ ?_, by omega, same _ before⟩
    · rcases encapsulation with type | type | type | type <;> simp [HeaderType.IsTransport, type] at transport
    · simp only [Extent.inner, Extent.endAt]
      omega

end Returned

end TcpFuzz
