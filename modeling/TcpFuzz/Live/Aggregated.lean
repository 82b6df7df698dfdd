import Mathlib.Algebra.Order.Group.Int
import TcpFuzz.Live.Sniffed
import TcpFuzz.Live.Verify

/-! Sniffed packets that follow on from each other are aggregated. The aggregate is a packet of its own exactly when
the headers of the last packet can describe the longer payload. -/

namespace TcpFuzz
open Bytes Mem

variable {m buffer : Mem} {layer : PacketLayer} {bufferBytes j : Nat} {p : Packet} {fs : List Extent}

/-! ### Aggregates -/

def FollowsOn (previous current : Packet) : Prop :=
  ∃ sniffedPayload expectedTotalPayload,
    verifyPacketFragments current previous (carriedLen current) sniffedPayload expectedTotalPayload = pure ()

/-- A TCP header with the sequence number and the CWR bit of one header and everything else of
another, which stands at the same place. -/
structure Continues (m : Mem) (tcp : Nat) (first : Mem) (firstTcp : Nat) (last : Mem) : Prop where
  seq : tcpSeq m tcp = tcpSeq first firstTcp
  cwr : tcpFlag m tcp 7 = tcpFlag first firstTcp 7
  flags : m.get8 (tcp + 13) % 128 = last.get8 (tcp + 13) % 128
  others : ∀ j < tcpDoff last tcp * 4, j < 4 ∨ 8 ≤ j → j ≠ 13 → m.get8 (tcp + j) = last.get8 (tcp + j)

/-- The payloads one behind the other, with headers that describe them. -/
structure Aggregates (layer : PacketLayer) (ps : List Packet) (first last r : Packet) : Prop where
  payload : ∃ payloads, List.Forall₂ (fun p bytes => packetPayloadBytes p = .ok bytes) ps payloads ∧
    packetPayloadBytes r = .ok payloads.flatten
  tcp : ∀ tcp, last.tcp = some tcp → r.tcp = some tcp ∧
    ∃ firstTcp, first.tcp = some firstTcp ∧ Continues r.buffer tcp first.buffer firstTcp last.buffer
  parses : ∃ q, parsePacket (packetNew r.buffer r.bufferBytes) r.bufferBytes layer = .ok (.ok, q) ∧
    q.headers = r.headers ∧ packetPayloadLen q = .ok (ps.map carriedLen).sum

/-- The headers of the last packet can describe all the payloads: no payload is cut off, there are
no IPv4 options, the transport header claims what the last packet carries, a UDP header does not
have to claim more, and the lengths fit 16 bits. -/
structure Aggregatable (ps : List Packet) (last : Packet) : Prop where
  carried : ∀ p ∈ ps, 0 ≤ carriedLen p
  plain : ∀ e ∈ extents last, e.type = .ipv4 → e.headerBytes = 20
  claimed : ∀ t, (extents last).getLast? = some t → carriedLen last = (t.totalBytes : Int) - t.headerBytes
  datagram : last.udp ≠ none → (ps.map carriedLen).sum = carriedLen last
  short : ∀ t, (extents last).getLast? = some t →
    ∀ e ∈ extents last, (e.endAt (t.inner + (ps.map carriedLen).sum.toNat)).Short

section Aggregate

variable {layer : PacketLayer} {first last r : Packet} {rest : List Packet} {inBytes firstTcp : Nat} {es : List Extent}
  {t : Extent}

theorem packetPayload_congr (tcp : r.tcp = p.tcp) (udp : r.udp = p.udp) (icmpv4 : r.icmpv4 = p.icmpv4)
    (icmpv6 : r.icmpv6 = p.icmpv6) (doff : ∀ tcp, p.tcp = some tcp → tcpDoff r.buffer tcp = tcpDoff p.buffer tcp) :
    packetPayload r = packetPayload p := by
  unfold packetPayload
  rw [tcp, udp, icmpv4, icmpv6]
  split
  next found => rw [doff _ found]
  all_goals rfl

theorem map_zero_add (ptr : Option Nat) : ptr.map (0 + ·) = ptr := by
  simp

theorem aggregateOf_layout (fits : fs.length ≤ packetMaxHeaders) (used : ∀ f ∈ fs, f.type ≠ .none)
    (buffer m : Mem) (bufferBytes extra k : Nat) :
    Layout (aggregateOf buffer m bufferBytes last extra (fs.map Extent.header ++ List.replicate k Header.unused))
      (fs.map Extent.header) := by
  have used' : ∀ h ∈ fs.map Extent.header, h.type ≠ .none := by
    intro h member
    obtain ⟨f, inside, rfl⟩ := List.mem_map.mp member
    exact used f inside
  have table := withTable_layout { aggregateInfo buffer bufferBytes last extra with buffer := m }
    (by simpa using fits) used' k
  exact ⟨table.table, table.used⟩

theorem RecordedAs.aggregate_payload (recorded : RecordedAs layer last inBytes es t)
    {extra : Nat} {hs : List Header} (layout : Layout r (fs.map Extent.header))
    (starts : fs.head?.map Extent.start = some layer.headerBytes)
    (doff : t.type = .tcp → tcpDoff m t.start = tcpDoff last.buffer t.start)
    (built : r = aggregateOf buffer m bufferBytes last extra hs) :
    packetPayload r = .ok t.inner ∧ packetPayloadLen r = .ok (carriedLen last + extra) := by
  have pointers : r.tcp = last.tcp ∧ r.udp = last.udp ∧ r.icmpv4 = last.icmpv4 ∧ r.icmpv6 = last.icmpv6 := by
    rw [built]
    exact ⟨map_zero_add _, map_zero_add _, map_zero_add _, map_zero_add _⟩
  obtain ⟨tcp, udp, icmpv4, icmpv6⟩ := pointers
  have payload : packetPayload r = .ok t.inner := by
    rw [packetPayload_congr tcp udp icmpv4 icmpv6, recorded.payload]
    intro ptr found
    have isTcp := recorded.tcp
    rw [found] at isTcp
    split at isTcp
    next type =>
      cases isTcp
      rw [built]
      exact doff type
    · cases isTcp
  refine ⟨payload, ?_⟩
  obtain ⟨f, rest, rfl⟩ : ∃ f rest, fs = f :: rest := by
    cases fs with
    | nil => cases starts
    | cons f rest => exact ⟨f, rest, rfl⟩
  have start : packetStart r = .ok layer.headerBytes := by
    rw [List.map_cons] at layout
    rw [layout.packetStart]
    exact congrArg requirePtr starts
  have bytes : r.ipBytes = last.ipBytes + extra := by rw [built]; rfl
  rw [packetPayloadLen, packetEnd, start, payload, recorded.carried.1]
  simp only [ok_bind, run_pure, bytes]
  congr 1
  omega

theorem copySeqAndCwr_continues (m : Mem) (tcp : Nat) (other : Mem) (otherTcp : Nat) :
    tcpSeq (copySeqAndCwr m tcp other otherTcp) tcp = tcpSeq other otherTcp ∧
      (copySeqAndCwr m tcp other otherTcp).get8 (tcp + 13) =
        other.get8 (otherTcp + 13) / 128 * 128 + m.get8 (tcp + 13) % 128 := by
  constructor
  · have copied (k : Nat) (inside : k < 4) := get8_copy_inside m (i := tcp + 4) other (otherTcp + 4) inside
    simp (disch := omega) only [tcpSeq, be32, be16, copySeqAndCwr, get8_put8_ne, Nat.add_assoc]
    simp only [Nat.add_assoc] at copied
    rw [show tcp + 4 = tcp + (4 + 0) from rfl, copied 0 (by omega), copied 1 (by omega), copied 2 (by omega),
      copied 3 (by omega)]
  · have high := get8_lt other (otherTcp + 13)
    rw [copySeqAndCwr, get8_put8_self, get8_copy_ne _ _ _ (by omega)]
    omega

theorem continuedMem_continues (isTcp : t.type = .tcp)
    (headers : ∀ j < t.inner, ¬Continued t j → (continuedMem buffer t first firstTcp).get8 j = last.buffer.get8 j)
    (flags : buffer.get8 (t.start + 13) = last.buffer.get8 (t.start + 13))
    (length : t.headerBytes = tcpDoff last.buffer t.start * 4)
    (frame : ∀ j, t.start ≤ j → m.get8 j = (continuedMem buffer t first firstTcp).get8 j) :
    Continues m t.start first.buffer firstTcp last.buffer := by
  have continued : continuedMem buffer t first firstTcp = copySeqAndCwr buffer t.start first.buffer firstTcp := if_pos isTcp
  obtain ⟨seq, byte⟩ := copySeqAndCwr_continues buffer t.start first.buffer firstTcp
  have low := get8_lt first.buffer (firstTcp + 13)
  have here : m.get8 (t.start + 13) = first.buffer.get8 (firstTcp + 13) / 128 * 128 + last.buffer.get8 (t.start + 13) % 128 := by
    rw [frame _ (by omega), continued, byte, flags]
  constructor
  · rw [← seq, ← continued]
    exact be32_of_get8 fun k lower _ => frame k (by omega)
  · rw [tcpFlag, tcpFlag, here]
    omega
  · rw [here]
    omega
  · intro j inside outside notFlags
    rw [frame _ (by omega), headers _ (by simp only [Extent.inner]; omega)]
    rintro ⟨-, continued⟩
    omega

theorem RecordedAs.payloadLen_first {f : Extent}
    (recorded : RecordedAs layer p inBytes (f :: fs) t) :
    packetPayloadLen p = .ok (if f.type = .mpls then 0 else (f.stop : Int) - t.inner) := by
  have starts : f.start = layer.headerBytes := recorded.wire.2.contiguous.1
  have inner := recorded.wire.2.contiguous.last_inner recorded.last
  obtain ⟨f', fs', list, type⟩ := recorded.wire.2.first (by cases layer <;> simp [PacketLayer.expect])
  cases list
  rw [recorded.payloadLen, recorded.ipBytes]
  congr 1
  rcases type with isIp | isMpls
  · have notMpls : f.type ≠ .mpls := by rcases isIp with type | type <;> simp [type]
    rw [if_neg notMpls, recordedLength, if_pos ⟨rfl, isIp⟩, Extent.stop, starts]
  · rw [if_pos isMpls, recordedLength, if_neg (by simp [isMpls, HeaderType.IsIp])]
    omega

theorem RecordedAs.reparses (recorded : RecordedAs layer last inBytes es t) {n : Nat}
    (finished : Finished m (t.inner + n) layer.headerBytes (es.map (Extent.endAt (t.inner + n))))
    (same : ∀ j < layer.headerBytes + 1, m.get8 j = last.buffer.get8 j)
    (labelled : es.head?.map Extent.type = some .mpls → n = 0) :
    ∃ q, parsePacket (packetNew m (t.inner + n)) (t.inner + n) layer = .ok (.ok, q) ∧
      Layout q ((es.map (Extent.endAt (t.inner + n))).map Extent.header) ∧ packetPayloadLen q = .ok n := by
  have contiguous := recorded.wire.2.contiguous
  have inner := contiguous.last_inner recorded.last
  have length := recorded.layout.length_le
  have last := recorded.last
  have old := recorded.wire
  obtain ⟨d, ds, rfl⟩ := List.exists_cons_of_ne_nil recorded.wire.2.ne_nil
  have starts : d.start = layer.headerBytes := contiguous.1
  have wire : WirePacket m (t.inner + n) layer ((d :: ds).map (Extent.endAt (t.inner + n))) := by
    refine ⟨by omega, ?_⟩
    rw [PacketLayer.expect_congr fun j before => same j (by omega)]
    have versioned := old.2.versioned (layer.asksVersion _) rfl
    have type : (d.endAt (t.inner + n)).type = d.type := rfl
    refine finished.reexpect (versioned.move rfl (same _ ?_)) type old.2 (layer.asksVersion _)
    change d.start < _
    omega
  have fits : ((d :: ds).map (Extent.endAt (t.inner + n))).length ≤ packetMaxHeaders := by simpa using length
  have found : ((d :: ds).map (Extent.endAt (t.inner + n))).getLast? = some (t.endAt (t.inner + n)) := by
    rw [List.getLast?_map, last]
    rfl
  have again := recorded_recordedAs (t.inner + n) wire fits found
  refine ⟨_, (parsePacket_ok_iff (packetNew_fresh _ _) (Nat.le_refl _)).mpr ⟨_, wire, fits, rfl⟩, again.layout, ?_⟩
  rw [List.map_cons] at again
  rw [List.map_cons, again.payloadLen_first]
  congr 1
  split
  next isMpls =>
    have none := labelled (by rw [List.head?_cons, Option.map_some]; exact congrArg some isMpls)
    omega
  next =>
    simp only [Extent.stop, Extent.endAt, Extent.inner] at inner ⊢
    omega

theorem getLastD_mem (first : Packet) (rest : List Packet) : rest.getLastD first ∈ first :: rest := by
  induction rest generalizing first with
  | nil => exact List.mem_cons_self
  | cons p ps ih =>
    rw [List.getLastD_cons]
    exact List.mem_cons_of_mem first (ih p)

theorem carriedLen_le_sum {ps : List Packet} (nonneg : ∀ p ∈ ps, 0 ≤ carriedLen p) (member : p ∈ ps) :
    carriedLen p ≤ (ps.map carriedLen).sum := by
  refine List.single_le_sum (fun n inside => ?_) _ (List.mem_map_of_mem member)
  obtain ⟨q, found, rfl⟩ := List.mem_map.mp inside
  exact nonneg q found

theorem RecordedAs.finishes (recorded : RecordedAs layer last inBytes es t) {n extra : Nat}
    (kept : ∀ j < t.inner, ¬Continued t j → m.get8 j = last.buffer.get8 j)
    (plain : ∀ e ∈ es, e.type = .ipv4 → e.headerBytes = 20) (grown : t.totalBytes + extra = t.headerBytes + n)
    (datagram : t.type = .udp → extra = 0) (short : ∀ e ∈ es, (e.endAt (t.inner + n)).Short) :
    ∃ m', finishHeaders m ((es.map (Extent.grow extra)).map Extent.header ++
        List.replicate (packetMaxHeaders - es.length) Header.unused) =
          .ok (m', (es.map (Extent.endAt (t.inner + n))).map Extent.header ++
            List.replicate (packetMaxHeaders - es.length) Header.unused) ∧
      (∀ j, j ≤ layer.headerBytes ∨ t.start ≤ j → m'.get8 j = m.get8 j) ∧
      Finished m' (t.inner + n) layer.headerBytes (es.map (Extent.endAt (t.inner + n))) := by
  have nested := recorded.wire.2.nested
  have contiguous := recorded.wire.2.contiguous
  have isUdp (type : t.type = .udp) : t.totalBytes = t.headerBytes + n := by
    have none := datagram type
    omega
  have refinishes := recorded.refinishes kept plain isUdp
  have chain := recorded.wire.2.headerChain refinishes
  have announced : List.Forall₂ Announces ((es.map (Extent.grow extra)).map Extent.header)
      (es.map (Extent.endAt (t.inner + n))) := by
    rw [List.map_map, List.forall₂_map_left_iff, List.forall₂_map_right_iff, List.forall₂_same]
    intro e member
    refine ⟨rfl, rfl, rfl, fun transport => ?_⟩
    rcases nested.isTransport_iff recorded.last e member with ⟨-, rfl⟩ | encapsulation
    · simp only [Function.comp_apply, Extent.header, Extent.grow, Extent.endAt, Extent.inner]
      omega
    · rcases encapsulation with type | type | type | type <;>
        simp [HeaderType.IsTransport, Extent.endAt, type] at transport
  obtain ⟨m', finished, frame, result⟩ := finishHeaders_spec chain announced
    (by simpa using short) (packetMaxHeaders - es.length)
  refine ⟨m', finished, fun j apart => frame j fun member => ?_, result⟩
  obtain ⟨x, inside, written⟩ := List.mem_flatMap.mp member
  obtain ⟨e, member, rfl⟩ := List.mem_map.mp inside
  obtain ⟨upper, encapsulation⟩ := Extent.rewritten_lt (refinishes e member).ready written
  have before := contiguous.inner_le_last nested recorded.last e member encapsulation
  have after := contiguous.behind e member
  have lower := Extent.rewritten_ge written
  have notFirst : j ≠ e.start := by
    rintro rfl
    exact Extent.start_not_rewritten written
  simp only [Extent.inner, Extent.endAt] at upper before lower
  omega

theorem RecordedAs.aggregates (recorded : RecordedAs layer (rest.getLastD first) inBytes es t) (allocated : Mem)
    (continues : t.type = .tcp → first.tcp = some firstTcp)
    (readable : ∀ p ∈ first :: rest, ∃ start, packetPayload p = .ok start ∧ packetPayloadLen p = .ok (carriedLen p))
    (labelled : es.head?.map Extent.type = some .mpls → ((first :: rest).map carriedLen).sum = 0)
    (able : Aggregatable (first :: rest) (rest.getLastD first)) :
    ∃ r, aggregatePackets allocated first rest ((first :: rest).map carriedLen).sum = .ok r ∧
      Aggregates layer (first :: rest) first (rest.getLastD first) r := by
  obtain ⟨nonneg, plain, claimed, datagram, short⟩ := able
  have enough := carriedLen_le_sum nonneg (getLastD_mem first rest)
  have lastNonneg := nonneg _ (getLastD_mem first rest)
  have assembled (r : Packet) :=
    (aggregatePackets_ok_iff allocated recorded continues ((first :: rest).map carriedLen).sum (r := r)).mpr
  generalize rest.getLastD first = last at *
  generalize first :: rest = ps at *
  rw [extents_of_layout recorded.layout] at plain claimed short
  have claimed := claimed t recorded.last
  have short := short t recorded.last
  obtain ⟨n, total⟩ : ∃ n : Nat, (ps.map carriedLen).sum = n := Int.eq_ofNat_of_zero_le (by omega)
  obtain ⟨extra, grown⟩ : ∃ extra : Nat, (n : Int) - carriedLen last = extra := Int.eq_ofNat_of_zero_le (by omega)
  rw [total] at datagram enough labelled short
  simp only [total, grown, Int.toNat_natCast] at assembled short
  obtain ⟨buffer, payloads, copied, carried, joined⟩ : ∃ buffer payloads,
      copyPayloads (t.inner + n) (allocated.copy 0 last.buffer 0 t.inner) t.inner ps = .ok buffer ∧ _ :=
    copyPayloads_ok readable nonneg (by rw [total]; omega)
  rw [total, Int.toNat_natCast] at joined
  have headers (j : Nat) (inside : j < t.inner) (apart : ¬Continued t j) :
      (continuedMem buffer t first firstTcp).get8 j = last.buffer.get8 j :=
    (continuedMem_frame buffer apart).trans (copyPayloads_headers copied inside)
  have sizes : t.totalBytes + extra = t.headerBytes + n := by omega
  have isUdp (type : t.type = .udp) : extra = 0 := by
    have alone := datagram (by rw [recorded.udp, if_pos type]; simp)
    omega
  obtain ⟨m, finished, frame, result⟩ := recorded.finishes headers plain sizes isUdp short
  rw [total]
  refine ⟨_, assembled _ ⟨by omega, buffer, m, _, copied, finished, rfl⟩, ?_⟩
  -- the aggregate carries the payloads behind the headers
  have member := List.mem_of_getLast? recorded.last
  have starts : (es.map (Extent.endAt (t.inner + n))).head?.map Extent.start = some layer.headerBytes := by
    have contiguous := recorded.wire.2.contiguous
    obtain ⟨d, ds, rfl⟩ := List.exists_cons_of_ne_nil recorded.wire.2.ne_nil
    exact congrArg some contiguous.1
  have tcpHeader (isTcp : t.type = .tcp) : t.headerBytes = tcpDoff last.buffer t.start * 4 ∧ 20 ≤ t.headerBytes := by
    have ready := recorded.wire.2.unfinished t member (by simp [isTcp])
    unfold Unfinished at ready
    rw [isTcp] at ready
    have long := ready.2.long
    exact ⟨ready.1, by omega⟩
  have doff (isTcp : t.type = .tcp) : tcpDoff m t.start = tcpDoff last.buffer t.start := by
    have long := (tcpHeader isTcp).2
    rw [tcpDoff, frame _ (.inr (by omega)), headers _ (by simp only [Extent.inner]; omega), tcpDoff]
    rintro ⟨-, continued⟩
    omega
  have layout : Layout (aggregateOf buffer m (t.inner + n) last extra _)
      ((es.map (Extent.endAt (t.inner + n))).map Extent.header) :=
    aggregateOf_layout (by simpa using recorded.layout.length_le)
      (by simpa [Extent.endAt, Extent.header] using recorded.layout.used) buffer m (t.inner + n) extra
      (packetMaxHeaders - es.length)
  obtain ⟨payload, length⟩ := recorded.aggregate_payload layout starts doff rfl
  refine ⟨⟨payloads, carried, ?_⟩, fun tcp found => ?_, ?_⟩
  · rw [packetPayloadBytes, payload, length, ← joined]
    simp only [ok_bind, run_pure]
    rw [← grown, show carriedLen last + (n - carriedLen last) = (n : Int) by omega, Int.toNat_natCast]
    refine congrArg Except.ok (bytes_of_get8 fun j after _ => ?_)
    have inside : t.start ≤ t.inner := Nat.le_add_right _ _
    refine (frame j (.inr (by omega))).trans (continuedMem_frame buffer ?_)
    rintro ⟨isTcp, continued⟩
    have long := (tcpHeader isTcp).2
    simp only [Extent.inner] at after
    omega
  · have pointer := recorded.tcp
    rw [found] at pointer
    split at pointer
    next isTcp =>
      cases pointer
      obtain ⟨length, long⟩ := tcpHeader isTcp
      refine ⟨(map_zero_add _).trans found, firstTcp, continues isTcp, ?_⟩
      refine continuedMem_continues isTcp headers (copyPayloads_headers copied ?_) length fun j after => frame j (.inr after)
      simp only [Extent.inner]
      omega
    · cases pointer
  · have same (j : Nat) (before : j < layer.headerBytes + 1) : m.get8 j = last.buffer.get8 j := by
      have behind := recorded.wire.2.contiguous.behind t member
      have positive := (recorded.wire.within t member).positive
      rw [frame j (.inl (by omega)), headers j (by simp only [Extent.inner]; omega)]
      rintro ⟨-, continued⟩
      omega
    have empty (isMpls : es.head?.map Extent.type = some .mpls) : n = 0 := by
      have none := labelled isMpls
      omega
    obtain ⟨q, parsed, table, carries⟩ := recorded.reparses result same empty
    exact ⟨q, parsed, layout.headers_eq table, by rw [carries, total]⟩

/-- An aggregate that parses again as the packet it claims to be has a last packet whose headers can
describe all the payloads. -/
theorem RecordedAs.aggregatable (recorded : RecordedAs layer (rest.getLastD first) inBytes es t) {allocated : Mem}
    (continues : t.type = .tcp → first.tcp = some firstTcp)
    (readable : ∀ p ∈ first :: rest, ∃ start, packetPayload p = .ok start ∧ packetPayloadLen p = .ok (carriedLen p))
    (returned : aggregatePackets allocated first rest ((first :: rest).map carriedLen).sum = .ok r) {q : Packet}
    (parsed : parsePacket (packetNew r.buffer r.bufferBytes) r.bufferBytes layer = .ok (.ok, q))
    (sameHeaders : q.headers = r.headers) (carries : packetPayloadLen q = .ok ((first :: rest).map carriedLen).sum) :
    Aggregatable (first :: rest) (rest.getLastD first) := by
  obtain ⟨-, buffer, m, hs, copied, finished, built⟩ := (aggregatePackets_ok_iff allocated recorded continues _).mp returned
  have nonneg := copyPayloads_nonneg readable copied
  have enough := carriedLen_le_sum nonneg (getLastD_mem first rest)
  have lastNonneg := nonneg _ (getLastD_mem first rest)
  generalize rest.getLastD first = last at *
  generalize first :: rest = ps at *
  obtain ⟨n, total⟩ : ∃ n : Nat, (ps.map carriedLen).sum = n := Int.eq_ofNat_of_zero_le (by omega)
  obtain ⟨extra, grown⟩ : ∃ extra : Nat, (n : Int) - carriedLen last = extra :=
    Int.eq_ofNat_of_zero_le (by omega)
  simp only [total, grown, Int.toNat_natCast] at copied finished built carries
  have headers (j : Nat) (inside : j < t.inner) (apart : ¬Continued t j) :
      (continuedMem buffer t first firstTcp).get8 j = last.buffer.get8 j :=
    (continuedMem_frame buffer apart).trans (copyPayloads_headers copied inside)
  -- whatever the lengths are, finishing counts them from the innermost header outwards
  have nested := recorded.wire.2.nested
  have contiguous := recorded.wire.2.contiguous
  have form : ∀ e ∈ es.map (Extent.grow extra), e.type.IsEncapsulation → e.type ≠ .ipv4 →
      Unfinished (continuedMem buffer t first firstTcp) e := by
    intro x inside encapsulation notIpv4
    obtain ⟨e, member, rfl⟩ := List.mem_map.mp inside
    refine (recorded.wire.2.unfinished e member fun four => (notIpv4 four).elim).move rfl rfl (fun transport => ?_)
      fun j inside => recorded.encapsulation_kept headers member encapsulation ?_
    · rcases encapsulation with type | type | type | type <;>
        simp only [Extent.grow] at type <;> simp [HeaderType.IsTransport, type] at transport
    · simp only [Extent.inner, Extent.grow]
      omega
  obtain ⟨rfl, frame⟩ := finishHeaders_returned (nested.grow extra) (contiguous.grow extra) form finished
  have found : (es.map (Extent.grow extra)).getLast? = some (t.grow extra) := by
    rw [List.getLast?_map, recorded.last]
    rfl
  have types : (finishedTable (es.map (Extent.grow extra))).map Extent.type = es.map Extent.type := by
    rw [finishedTable_types, List.map_map]
    rfl
  have layout : Layout r ((finishedTable (es.map (Extent.grow extra))).map Extent.header) := by
    rw [built]
    refine aggregateOf_layout ?_ (fun f member => ?_) buffer m (t.inner + n) extra (packetMaxHeaders - es.length)
    · have length := congrArg List.length types
      rw [List.length_map, List.length_map] at length
      simpa [length] using recorded.layout.length_le
    · have inside : f.type ∈ es.map Extent.type := types ▸ List.mem_map_of_mem member
      obtain ⟨e, old, same⟩ := List.mem_map.mp inside
      exact same ▸ recorded.layout.used e.header (List.mem_map_of_mem old)
  -- the packet that parses again is the one with these headers
  have bufferBytes : r.bufferBytes = t.inner + n := by rw [built]; rfl
  rw [bufferBytes] at parsed
  obtain ⟨fs, t', bytes, again⟩ := parsePacket_recordedAs (Nat.le_refl _) parsed
  obtain rfl : fs = finishedTable (es.map (Extent.grow extra)) := Layout.extents_eq layout again.layout sameHeaders
  have last' := again.last
  rw [finishedTable_getLast? (nested.grow extra), found] at last'
  obtain rfl : t.grow extra = t' := Option.some.inj last'
  have within := (again.wire.within _ (List.mem_of_getLast? again.last)).inside
  obtain ⟨f, fs, table, start, stop, closed⟩ := finishedTable_stop (nested.grow extra) (contiguous.grow extra) found
    (by simpa [Extent.counted, Extent.grow] using recorded.wire.2.counted_le)
  rw [table] at again
  have reaches : f.stop = t.inner + n := by
    have claims := Except.ok.inj (again.payloadLen_first.symm.trans carries)
    split at claims
    next isMpls => exact again.wire.2.first_mpls isMpls again.wire.1
    next =>
      simp only [Extent.inner, Extent.grow] at claims ⊢
      omega
  obtain ⟨counts, plain⟩ := closed (by omega)
  have ends : (t.grow extra).stop = t.inner + n := by omega
  have plain (e : Extent) (member : e ∈ es) : e.type = .ipv4 → e.headerBytes = 20 :=
    plain (e.grow extra) (List.mem_map_of_mem member)
  have claimed : carriedLen last = (t.totalBytes : Int) - t.headerBytes := by
    simp only [Extent.stop, Extent.grow, Extent.inner] at ends
    omega
  refine ⟨nonneg, ?_, fun x found => ?_, fun isUdp => ?_, fun x found => ?_⟩
  · rwa [extents_of_layout recorded.layout]
  · rw [extents_of_layout recorded.layout, recorded.last] at found
    cases found
    exact claimed
  · -- the length that a UDP header claims is never rewritten
    have type : t.type = .udp := by
      by_contra other
      rw [recorded.udp, if_neg other] at isUdp
      exact isUdp rfl
    have member := List.mem_of_getLast? recorded.last
    have old := recorded.wire.2.unfinished t member (by simp [type])
    have new := again.wire.2.unfinished _ (List.mem_of_getLast? again.last) (by simp [Extent.grow, type])
    unfold Unfinished at old new
    rw [type] at old
    rw [show (t.grow extra).type = .udp from type] at new
    obtain ⟨eight, old⟩ := old
    have agrees := old.agrees
    have agrees' := new.2.agrees
    have kept (j : Nat) (after : t.start ≤ j) (inside : j < t.inner) : q.buffer.get8 j = last.buffer.get8 j := by
      rw [bytes, built]
      refine (frame j fun written => ?_).trans (headers j inside fun continued => ?_)
      · obtain ⟨x, grownIn, written⟩ := List.mem_flatMap.mp written
        obtain ⟨e, inside, rfl⟩ := List.mem_map.mp grownIn
        have ready := recorded.wire.2.unfinished e inside (plain e inside)
        obtain ⟨upper, encapsulation⟩ := Extent.rewritten_lt ready written
        have before := contiguous.inner_le_last nested recorded.last e inside encapsulation
        omega
      · cases type.symm.trans continued.1
    have same : udpLen q.buffer t.start = udpLen last.buffer t.start := by
      simp only [Extent.inner] at kept
      exact be16_of_get8 (kept _ (by omega) (by omega)) (kept _ (by omega) (by omega))
    simp only [Extent.grow] at agrees'
    omega
  · rw [extents_of_layout recorded.layout, recorded.last] at found
    cases found
    rw [extents_of_layout recorded.layout, total, Int.toNat_natCast]
    intro e member
    have inside : e.endAt (t.inner + n) ∈ f :: fs := by
      rw [← table, counts, ends, List.map_map]
      exact List.mem_map_of_mem member
    exact again.wire.2.short _ inside

theorem followsOn_types (sniffed : ∀ p ∈ first :: rest, Sniffed layer p) (follows : (first :: rest).IsChain FollowsOn) :
    ∀ p ∈ first :: rest, (extents p).map Extent.type = (extents first).map Extent.type := by
  induction rest generalizing first with
  | nil => simp
  | cons p ps ih =>
    obtain ⟨⟨sniffedPayload, expected, verified⟩, others⟩ := List.isChain_cons_cons.mp follows
    obtain ⟨here, behind⟩ := List.forall_mem_cons.mp sniffed
    obtain ⟨_, es, _, recorded⟩ := here.recordedAs
    obtain ⟨_, ds, _, recorded'⟩ := (behind p List.mem_cons_self).recordedAs
    have same := verifyPacketFragments_types recorded'.layout recorded.layout verified
    rw [← extents_of_layout recorded.layout, ← extents_of_layout recorded'.layout] at same
    refine List.forall_mem_cons.mpr ⟨rfl, fun x member => ?_⟩
    rw [ih behind others x member, same]

theorem Sniffed.carriedLen_mpls (sniffed : Sniffed layer p)
    (isMpls : (extents p).head?.map Extent.type = some .mpls) : carriedLen p = 0 := by
  obtain ⟨inBytes, es, t, recorded⟩ := sniffed.recordedAs
  rw [extents_of_layout recorded.layout] at isMpls
  obtain ⟨f, fs, rfl⟩ := List.exists_cons_of_ne_nil recorded.wire.2.ne_nil
  have length := recorded.payloadLen_first
  rw [if_pos (Option.some.inj isMpls), recorded.carried.2] at length
  exact Except.ok.inj length

end Aggregate

/-- The aggregate of sniffed packets that follow on from each other is a packet with their joined
payload exactly when the headers of the last packet can describe it. -/
theorem aggregatePackets_aggregates_iff (allocated : Mem) (layer : PacketLayer) {first : Packet} {rest : List Packet}
    (sniffed : ∀ p ∈ first :: rest, Sniffed layer p)
    (follows : (first :: rest).IsChain FollowsOn) :
    (∃ r, aggregatePackets allocated first rest ((first :: rest).map carriedLen).sum = .ok r ∧
      Aggregates layer (first :: rest) first (rest.getLastD first) r) ↔
    Aggregatable (first :: rest) (rest.getLastD first) := by
  have types := followsOn_types sniffed follows
  have readable (p : Packet) (member : p ∈ first :: rest) := (sniffed p member).readable
  have lastIn := getLastD_mem first rest
  obtain ⟨inBytes, es, t, recorded⟩ := (sniffed _ lastIn).recordedAs
  obtain ⟨_, fs, u, recorded'⟩ := (sniffed first List.mem_cons_self).recordedAs
  have same := types _ lastIn
  rw [extents_of_layout recorded.layout, extents_of_layout recorded'.layout] at same
  have continues (isTcp : t.type = .tcp) : first.tcp = some u.start := by
    have ends := congrArg List.getLast? same
    rw [List.getLast?_map, List.getLast?_map, recorded.last, recorded'.last] at ends
    rw [recorded'.tcp, if_pos ((Option.some.inj ends).symm.trans isTcp)]
  have labelled (isMpls : es.head?.map Extent.type = some .mpls) : ((first :: rest).map carriedLen).sum = 0 := by
    apply List.sum_eq_zero
    intro n inside
    obtain ⟨p, member, rfl⟩ := List.mem_map.mp inside
    apply (sniffed p member).carriedLen_mpls
    rw [← List.head?_map, types p member, extents_of_layout recorded'.layout, ← same, List.head?_map, isMpls]
  constructor
  · rintro ⟨r, returned, -, -, q, parsed, sameHeaders, carries⟩
    exact recorded.aggregatable continues readable returned parsed sameHeaders carries
  · exact recorded.aggregates allocated continues readable labelled

/-! ### Two packets -/

def sniffedPacket (bytes : List UInt8) : Packet :=
  match parsePacket (packetNew (.ofList bytes) bytes.length) bytes.length .layer3Ip with
  | .ok (_, q) => { q with direction := .outbound }
  | .error _ => packetNew (.ofList bytes) 0

theorem sniffedPacket_sniffed {bytes : List UInt8}
    (accepted : (parsePacket (packetNew (.ofList bytes) bytes.length) bytes.length .layer3Ip).toOption.map Prod.fst =
      some .ok) : Sniffed .layer3Ip (sniffedPacket bytes) := by
  obtain ⟨⟨result, q⟩, parsed, rfl⟩ := ok_of_toOption accepted
  refine ⟨.ofList bytes, bytes.length, bytes.length, q, q.timeUsecs, Nat.le_refl _, parsed, ?_⟩
  rw [sniffedPacket, parsed]

def oneByteDatagram (byte : UInt8) : List UInt8 :=
  [0x45, 0, 0, 29, 0, 0, 0, 0, 64, 17, 0, 0, 1, 1, 1, 1, 2, 2, 2, 2, 0, 7, 0, 8, 0, 9, 0, 0, byte]

/-- The length of a UDP header does not follow the payload, so that the aggregate is not accepted. -/
theorem aggregatePackets_datagrams :
    (∀ p ∈ [sniffedPacket (oneByteDatagram 1), sniffedPacket (oneByteDatagram 2)], Sniffed .layer3Ip p) ∧
    [sniffedPacket (oneByteDatagram 1), sniffedPacket (oneByteDatagram 2)].IsChain FollowsOn ∧
    ¬∃ r, aggregatePackets (fun _ => 0) (sniffedPacket (oneByteDatagram 1)) [sniffedPacket (oneByteDatagram 2)]
        ([sniffedPacket (oneByteDatagram 1), sniffedPacket (oneByteDatagram 2)].map carriedLen).sum = .ok r ∧
      Aggregates .layer3Ip [sniffedPacket (oneByteDatagram 1), sniffedPacket (oneByteDatagram 2)]
        (sniffedPacket (oneByteDatagram 1)) (sniffedPacket (oneByteDatagram 2)) r := by
  refine ⟨?_, ?_, ?_⟩
  · intro p member
    rcases List.mem_pair.mp member with rfl | rfl <;> exact sniffedPacket_sniffed (by decide +kernel)
  · exact .cons_cons ⟨1, 2, Check.passed_of_eval (by decide +kernel)⟩ (.singleton _)
  · rintro ⟨r, returned, -, -, q, parsed, -⟩
    have evaluated : (aggregatePackets (fun _ => 0) (sniffedPacket (oneByteDatagram 1))
        [sniffedPacket (oneByteDatagram 2)]
        ([sniffedPacket (oneByteDatagram 1), sniffedPacket (oneByteDatagram 2)].map carriedLen).sum).toOption.map
          (fun r => (parsePacket (packetNew r.buffer r.bufferBytes) r.bufferBytes .layer3Ip).toOption.map
            fun parsed => decide (parsed.1 = .ok)) = some (some false) := by decide +kernel
    rw [returned, Except.toOption, Option.map_some, parsed] at evaluated
    cases evaluated

def oneByteSegment (seq byte : UInt8) : List UInt8 :=
  [0x45, 0, 0, 41, 0, 0, 0, 0, 64, 6, 0, 0, 1, 1, 1, 1, 2, 2, 2, 2, 0, 7, 0, 8, 0, 0, 0, seq, 0, 0, 0, 1, 0x50, 0x10,
    1, 0, 0, 0, 0, 0, byte]

theorem aggregatePackets_aggregates_segments :
    ∃ r, aggregatePackets (fun _ => 0) (sniffedPacket (oneByteSegment 1 7)) [sniffedPacket (oneByteSegment 2 8)]
        ([sniffedPacket (oneByteSegment 1 7), sniffedPacket (oneByteSegment 2 8)].map carriedLen).sum = .ok r ∧
      Aggregates .layer3Ip [sniffedPacket (oneByteSegment 1 7), sniffedPacket (oneByteSegment 2 8)]
        (sniffedPacket (oneByteSegment 1 7)) (sniffedPacket (oneByteSegment 2 8)) r := by
  have table : extents (sniffedPacket (oneByteSegment 2 8)) = [⟨.ipv4, 0, 20, 41⟩, ⟨.tcp, 20, 20, 21⟩] := by
    decide +kernel
  have carried (p : Packet) (member : p ∈ [sniffedPacket (oneByteSegment 1 7), sniffedPacket (oneByteSegment 2 8)]) :
      carriedLen p = 1 := by
    rcases List.mem_pair.mp member with rfl | rfl <;> decide +kernel
  have sum : ([sniffedPacket (oneByteSegment 1 7), sniffedPacket (oneByteSegment 2 8)].map carriedLen).sum = 2 := by
    decide +kernel
  refine (aggregatePackets_aggregates_iff (fun _ => 0) .layer3Ip ?_ ?_).mpr ⟨?_, ?_, ?_, ?_, ?_⟩
  · intro p member
    rcases List.mem_pair.mp member with rfl | rfl <;> exact sniffedPacket_sniffed (by decide +kernel)
  · exact .cons_cons ⟨1, 2, Check.passed_of_eval (by decide +kernel)⟩ (.singleton _)
  · intro p member
    rw [carried p member]
    decide
  · change ∀ e ∈ extents (sniffedPacket (oneByteSegment 2 8)), _
    rw [table]
    decide
  · intro t last
    change (extents (sniffedPacket (oneByteSegment 2 8))).getLast? = some t at last
    rw [table] at last
    cases last
    exact carried _ (List.mem_cons_of_mem _ List.mem_cons_self)
  · intro isUdp
    have none : (sniffedPacket (oneByteSegment 2 8)).udp = none := by decide +kernel
    exact (isUdp none).elim
  · intro t last
    change (extents (sniffedPacket (oneByteSegment 2 8))).getLast? = some t at last
    change ∀ e ∈ extents (sniffedPacket (oneByteSegment 2 8)), _
    rw [table] at last ⊢
    cases last
    rw [sum]
    simp [Extent.endAt, Extent.inner, Extent.Short]

end TcpFuzz
