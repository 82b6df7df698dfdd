import TcpFuzz.Packet.Metadata

/-! Every header claims a length, and the accessors of `packet.h` use one of these claims. The parser compares each
only with the number of bytes received, so they need not agree. -/

namespace TcpFuzz
open Bytes

variable {es : List Extent} {m : Mem} {stop pos : Nat} {x : Expect} {last : Extent}

def Header.extent? (h : Header) : Option Extent :=
  if h.type = .none then none else h.ptr.map fun start => ⟨h.type, start, h.headerBytes, h.totalBytes⟩

def extents (q : Packet) : List Extent := q.headers.toList.filterMap Header.extent?

theorem extents_of_layout {q : Packet} (layout : Layout q (es.map Extent.header)) :
    extents q = es := by
  have used : ∀ e ∈ es, e.header.extent? = some e := by
    intro e member
    have type := layout.used e.header (List.mem_map_of_mem member)
    simp only [Extent.header] at type
    simp [Header.extent?, Extent.header, type]
  unfold extents
  rw [layout.table, List.filterMap_append, List.filterMap_map]
  have unused : (List.replicate (packetMaxHeaders - (es.map Extent.header).length) Header.unused).filterMap
      Header.extent? = [] := by
    simp [Header.extent?, Header.unused]
  rw [unused, List.append_nil]
  calc es.filterMap (Header.extent? ∘ Extent.header) = es.filterMap some := List.filterMap_congr used
    _ = es := List.filterMap_some

/-- The packet's end and payload agree with the lengths its headers claim, and every header's
contents lie inside those of the header around it. -/
structure LengthsAgree (q : Packet) (inBytes : Nat) : Prop where
  payload : ∃ last, (extents q).getLast? = some last ∧
    packetPayloadLen q = .ok ((last.totalBytes : Int) - last.headerBytes) ∧
    (0 : Int) ≤ (last.totalBytes : Int) - last.headerBytes
  ends : ∃ stop, packetEnd q = .ok stop ∧ stop ≤ inBytes
  nested : (extents q).IsChain fun outer inner => inner.stop ≤ outer.stop

/-- The lengths that a chain of headers claims are consistent: behind an IP header all contents
end where those of the first header end; behind a label stack the contents are nested and the
last header has no contents of its own. -/
def ConsistentLengths (es : List Extent) : Prop :=
  ∃ first last, es.head? = some first ∧ es.getLast? = some last ∧
    if first.type = .mpls then
      last.totalBytes = last.headerBytes ∧ es.IsChain fun outer inner => inner.stop ≤ outer.stop
    else ∀ e ∈ es, e.stop = first.stop

theorem Wire.first (wire : Wire m stop x pos es)
    (above : ∀ proto bytes, x ≠ .layer4 proto bytes) :
    ∃ first rest, es = first :: rest ∧ (first.type.IsIp ∨ first.type = .mpls) := by
  induction wire with
  | ipv4 => exact ⟨_, _, rfl, .inl (.inl rfl)⟩
  | ipv6 => exact ⟨_, _, rfl, .inl (.inr rfl)⟩
  | mpls => exact ⟨_, _, rfl, .inr rfl⟩
  | tcp | udp | icmpv4 | icmpv6 | gre | ipip | ip6 => exact absurd rfl (above _ _)
  | layer3Ipv4 _ _ _ ih | layer3Ipv6 _ _ ih | etherIpv4 _ _ _ ih | etherIpv6 _ _ ih | etherMpls _ _ ih => exact ih (by simp)

theorem Contiguous.last_inner (contiguous : Contiguous pos es)
    (found : es.getLast? = some last) : last.inner = pos + (es.map Extent.headerBytes).sum := by
  induction es generalizing pos with
  | nil => cases found
  | cons e es ih =>
    have start := contiguous.1
    cases es with
    | nil =>
      cases found
      simp [Extent.inner, start]
    | cons d ds =>
      rw [List.getLast?_cons_cons] at found
      rw [ih contiguous.2 found, Extent.inner, start]
      simp only [List.map_cons, List.sum_cons]
      omega

theorem IsChain.last_stop_le {e : Extent}
    (chain : (e :: es).IsChain fun outer inner => inner.stop ≤ outer.stop)
    (found : (e :: es).getLast? = some last) : ∀ d ∈ e :: es, last.stop ≤ d.stop ∧ d.stop ≤ e.stop := by
  induction es generalizing e with
  | nil =>
    cases found
    simp
  | cons c cs ih =>
    rw [List.getLast?_cons_cons] at found
    have outer := (List.isChain_cons_cons.mp chain).1
    have inner := ih (List.isChain_cons_cons.mp chain).2 found
    intro d member
    rcases List.mem_cons.mp member with rfl | member
    · have := inner c List.mem_cons_self
      omega
    · have := inner d member
      omega

def transportLen (m : Mem) (e : Extent) : Nat := if e.type = .tcp then tcpDoff m e.start * 4 else 8

theorem Wire.last_induction {motive : Extent → Prop}
    (wire : Wire m stop x pos es) (found : es.getLast? = some last)
    (tcp : ∀ p bytes, TcpHeader m bytes p → motive ⟨.tcp, p, tcpDoff m p * 4, bytes⟩)
    (udp : ∀ p bytes, UdpHeader m bytes p → motive ⟨.udp, p, 8, bytes⟩)
    (icmpv4 : ∀ p bytes, motive ⟨.icmpv4, p, 8, bytes⟩) (icmpv6 : ∀ p bytes, motive ⟨.icmpv6, p, 8, bytes⟩) :
    motive last := by
  have skip {e : Extent} {es : List Extent} (inner : es ≠ []) (found : (e :: es).getLast? = some last) :
      es.getLast? = some last := by
    obtain ⟨d, ds, rfl⟩ := List.exists_cons_of_ne_nil inner
    rwa [List.getLast?_cons_cons] at found
  induction wire with
  | ipv4 _ next ih | ipv6 _ next ih | mpls _ next ih | gre _ next ih => exact ih (skip next.ne_nil found)
  | tcp header => cases found; exact tcp _ _ header
  | udp header => cases found; exact udp _ _ header
  | icmpv4 => cases found; exact icmpv4 _ _
  | icmpv6 => cases found; exact icmpv6 _ _
  | layer3Ipv4 _ _ _ ih | layer3Ipv6 _ _ ih | etherIpv4 _ _ _ ih | etherIpv6 _ _ ih | etherMpls _ _ ih
  | ipip _ ih | ip6 _ ih => exact ih found

theorem Wire.last_headerBytes
    (wire : Wire m stop x pos es) (found : es.getLast? = some last) :
    last.headerBytes = transportLen m last := by
  apply wire.last_induction found <;> intros <;> rfl

theorem Wire.last_doff (wire : Wire m stop x pos es)
    (found : es.getLast? = some last) : last.type = .tcp → 5 ≤ tcpDoff m last.start := by
  apply wire.last_induction found
  · intro p bytes header _
    exact header.long
  · intro p bytes header other
    cases other
  all_goals
    intro p bytes other
    cases other

section Recorded

variable {p : Packet} {inBytes : Nat} {layer : PacketLayer} {es : List Extent}

theorem recorded_payload (data : Metadata (recorded layer p es) inBytes es)
    (wire : WirePacket p.buffer inBytes layer es) (found : es.getLast? = some last) :
    packetPayload (recorded layer p es) = .ok last.inner := by
  have buffer : (recorded layer p es).buffer = p.buffer := (parsed_frame wire.2.nested).1
  have length := wire.2.last_headerBytes found
  obtain ⟨last', found', type, tcp, udp, icmpv4, icmpv6⟩ := data.transport
  obtain rfl : last' = last := Option.some.inj (found'.symm.trans found)
  unfold packetPayload
  rw [tcp, udp, icmpv4, icmpv6, buffer]
  rcases type with type | type | type | type <;>
    simp [type, transportLen, Extent.inner] at length ⊢ <;> omega

theorem recorded_packetEnd (fresh : Fresh p) (data : Metadata (recorded layer p es) inBytes es)
    (wire : WirePacket p.buffer inBytes layer es) :
    packetEnd (recorded layer p es) = .ok (layer.headerBytes + recordedLength 0 es) := by
  have nested := wire.2.nested
  have contiguous := wire.2.contiguous
  have length : (recorded layer p es).ipBytes = recordedLength 0 es := by
    have := parsed_ipBytes (p := layer.started p) nested fun e member => (wire.within e member).positive
    rwa [show (layer.started p).ipBytes = 0 from fresh.ipBytes] at this
  obtain ⟨e, ds, rfl⟩ := List.exists_cons_of_ne_nil nested.ne_nil
  have start : packetStart (recorded layer p (e :: ds)) = .ok layer.headerBytes := by
    rw [(show Layout _ (e.header :: ds.map Extent.header) from data.layout).packetStart]
    simp [requirePtr, Extent.header, contiguous.1]
  simp only [packetEnd, start, ok_bind, run_pure, length]

/-- The lengths of a recorded packet agree exactly when the claims of its headers are consistent. -/
theorem recorded_lengthsAgree_iff (fresh : Fresh p) (data : Metadata (recorded layer p es) inBytes es)
    (wire : WirePacket p.buffer inBytes layer es) :
    LengthsAgree (recorded layer p es) inBytes ↔ ConsistentLengths es := by
  obtain ⟨first, rest, rfl, type⟩ := wire.2.first (by cases layer <;> simp [PacketLayer.expect])
  obtain ⟨last, found, -⟩ := wire.2.nested.last
  have contiguous := wire.2.contiguous
  have within := wire.within
  have table := extents_of_layout data.layout
  have stops := recorded_packetEnd fresh data wire
  have payload := recorded_payload data wire found
  have sum := contiguous.last_inner found
  have lastIn := List.mem_of_getLast? found
  have lastWithin := within last lastIn
  have firstWithin := within first List.mem_cons_self
  have firstStart : first.start = layer.headerBytes := contiguous.1
  have payloadLen : packetPayloadLen (recorded layer p (first :: rest)) =
      .ok (((layer.headerBytes + recordedLength 0 (first :: rest) : Nat) : Int) - last.inner) := by
    simp only [packetPayloadLen, stops, payload, ok_bind, run_pure]
  have firstLast {Q : Extent → Extent → Prop} :
      (∃ a b, (first :: rest).head? = some a ∧ (first :: rest).getLast? = some b ∧ Q a b) ↔ Q first last := by
    simp [found]
  unfold ConsistentLengths
  rw [firstLast]
  by_cases mpls : first.type = .mpls
  · -- a label stack in front does not count as the outermost header: the length is the sum
    have length : layer.headerBytes + recordedLength 0 (first :: rest) = last.inner := by
      simp [recordedLength, mpls, HeaderType.IsIp, sum]
    rw [length] at stops payloadLen
    rw [if_pos mpls]
    constructor
    · rintro ⟨⟨last', found', payload', -⟩, -, nested⟩
      rw [table] at found' nested
      obtain rfl : last' = last := Option.some.inj (found'.symm.trans found)
      have same := Except.ok.inj (payloadLen.symm.trans payload')
      exact ⟨by omega, nested⟩
    · rintro ⟨bare, nested⟩
      refine ⟨⟨last, by rw [table, found], ?_, by omega⟩, ⟨last.inner, stops, ?_⟩, by rwa [table]⟩
      · rw [payloadLen]
        congr 1
        omega
      · have := lastWithin.inside
        simp only [Extent.inner, Extent.stop] at *
        omega
  · have length : layer.headerBytes + recordedLength 0 (first :: rest) = first.stop := by
      have ip := type.resolve_right mpls
      simp [recordedLength, ip, Extent.stop, firstStart]
    rw [length] at stops payloadLen
    rw [if_neg mpls]
    have lastStop : last.stop = last.inner - last.headerBytes + last.totalBytes := by
      simp [Extent.stop, Extent.inner]
    have lastInner : last.headerBytes ≤ last.inner := by simp [Extent.inner]
    constructor
    · rintro ⟨⟨last', found', payload', -⟩, -, nested⟩
      rw [table] at found' nested
      obtain rfl : last' = last := Option.some.inj (found'.symm.trans found)
      have same := Except.ok.inj (payloadLen.symm.trans payload')
      intro e member
      have between := IsChain.last_stop_le nested found e member
      omega
    · intro same
      have lastSame := same last lastIn
      have contained := lastWithin.contained
      refine ⟨⟨last, by rw [table, found], ?_, by omega⟩, ⟨first.stop, stops, firstWithin.inside⟩, ?_⟩
      · rw [payloadLen]
        congr 1
        omega
      · rw [table]
        refine List.IsChain.imp_of_mem_imp (fun a b inA inB _ => ?_) contiguous.isChain
        rw [same a inA, same b inB]

end Recorded

/-- The lengths of an accepted packet agree exactly when the length fields in its bytes do. -/
theorem parsePacket_lengthsAgree_iff (m : Mem) (bufferBytes inBytes : Nat) (layer : PacketLayer) (q : Packet)
    (buffered : inBytes ≤ bufferBytes)
    (accepted : parsePacket (packetNew m bufferBytes) inBytes layer = .ok (.ok, q)) :
    LengthsAgree q inBytes ↔
      ∃ es, WirePacket m inBytes layer es ∧ es.length ≤ packetMaxHeaders ∧ ConsistentLengths es := by
  have fresh := packetNew_fresh m bufferBytes
  have agrees {es : List Extent} (wire : WirePacket m inBytes layer es) (fits : es.length ≤ packetMaxHeaders) :
      LengthsAgree (recorded layer (packetNew m bufferBytes) es) inBytes ↔ ConsistentLengths es :=
    recorded_lengthsAgree_iff fresh
      (recorded_metadata fresh ⟨rfl, rfl, rfl, rfl, rfl, rfl⟩ wire fits) wire
  obtain ⟨es, wire, fits, rfl⟩ := (parsePacket_ok_iff fresh buffered).mp accepted
  constructor
  · intro lengths
    exact ⟨es, wire, fits, (agrees wire fits).mp lengths⟩
  · rintro ⟨es', wire', fits', consistent⟩
    have accepted' := (parsePacket_ok_iff fresh buffered).mpr ⟨es', wire', fits', rfl⟩
    obtain ⟨-, same⟩ := Prod.mk.inj (Except.ok.inj (accepted.symm.trans accepted'))
    rw [same]
    exact (agrees wire' fits').mpr consistent

theorem parsePacket_lengthsAgree_iff_emptyUdpDatagram :
    ∃ q, parsePacket (packetNew emptyUdpDatagram 28) 28 .layer3Ip = .ok (.ok, q) ∧
      (LengthsAgree q 28 ↔ ∃ es, WirePacket emptyUdpDatagram 28 .layer3Ip es ∧
        es.length ≤ packetMaxHeaders ∧ ConsistentLengths es) := by
  have evaluated : (parsePacket (packetNew emptyUdpDatagram 28) 28 .layer3Ip).toOption.map Prod.fst =
      some .ok := by decide +kernel
  obtain ⟨⟨result, q⟩, accepted, rfl⟩ := ok_of_toOption evaluated
  exact ⟨q, accepted, parsePacket_lengthsAgree_iff emptyUdpDatagram 28 28 .layer3Ip q (by decide) accepted⟩

def mplsFrame : Mem := .ofList
  [0, 0, 0, 0, 0, 1, 0, 0, 0, 0, 0, 2, 0x88, 0x47,
   0, 0, 1, 64,
   0x45, 0, 0, 29, 0, 0, 0, 0, 255, 17, 0, 0, 1, 1, 1, 1, 2, 2, 2, 2,
   0, 7, 0, 8, 0, 9, 0, 0,
   0xaa]

/-- The frame is accepted, but its payload length is computed as zero. -/
theorem mplsFrame_lengths_disagree :
    ∃ q, parsePacket (packetNew mplsFrame 47) 47 .layer2Ethernet = .ok (.ok, q) ∧ ¬LengthsAgree q 47 := by
  have evaluated : (parsePacket (packetNew mplsFrame 47) 47 .layer2Ethernet).toOption.map (fun r =>
      (r.1, (packetPayloadLen r.2).toOption, (extents r.2).getLast?.map fun e => (e.headerBytes, e.totalBytes))) =
      some (.ok, some 0, some (8, 9)) := by decide +kernel
  obtain ⟨⟨result, q⟩, accepted, facts⟩ := ok_of_toOption evaluated
  simp only [Prod.mk.injEq] at facts
  obtain ⟨rfl, payload, last⟩ := facts
  refine ⟨q, accepted, fun lengths => ?_⟩
  obtain ⟨e, found, payload', -⟩ := lengths.payload
  rw [found, Option.map_some, Option.some.injEq, Prod.mk.injEq] at last
  rw [payload', last.1, last.2] at payload
  exact absurd payload (by decide)

end TcpFuzz
