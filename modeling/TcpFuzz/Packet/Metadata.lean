import Mathlib.Data.List.Chain
import TcpFuzz.Packet.ParserCorrect

/-! What the header table, the header pointers and the length say about a packet that the parser accepted. -/

namespace TcpFuzz
open Bytes

def HeaderType.IsEncapsulation (t : HeaderType) : Prop := t = .ipv4 ∨ t = .ipv6 ∨ t = .gre ∨ t = .mpls

def Contiguous (pos : Nat) : List Extent → Prop
  | [] => True
  | e :: es => e.start = pos ∧ Contiguous e.inner es

/-- Encapsulation headers around one transport header. -/
inductive Nested : List Extent → Prop where
  | transport {e : Extent} (type : e.type.IsTransport) : Nested [e]
  | around {e : Extent} {es : List Extent} (type : e.type.IsEncapsulation) (inner : Nested es) :
      Nested (e :: es)

def lastIp (es : List Extent) : Option Extent := (es.filter fun e => e.type.IsIp).getLast?

theorem lastIp_cons (e : Extent) (es : List Extent) :
    lastIp (e :: es) = (lastIp es).or (if e.type.IsIp then some e else none) := by
  unfold lastIp
  by_cases ip : e.type.IsIp
  · rw [List.filter_cons_of_pos (by simpa using ip), List.getLast?_cons, if_pos ip]
    cases (es.filter fun e => e.type.IsIp).getLast? <;> rfl
  · rw [List.filter_cons_of_neg (by simpa using ip), if_neg ip, Option.or_none]

theorem lastIp_isIp {es : List Extent} {e : Extent} (found : lastIp es = some e) : e.type.IsIp := by
  have member := List.mem_of_getLast? found
  simpa using (List.mem_filter.mp member).2

def Expect.Fits (stop pos : Nat) : Expect → Prop
  | .layer4 _ bytes => pos + bytes ≤ stop
  | _ => True

namespace Wire

variable {m : Mem} {stop pos : Nat} {x : Expect} {es : List Extent}

theorem contiguous (wire : Wire m stop x pos es) : Contiguous pos es := by
  induction wire with
  | ipv4 _ _ ih | ipv6 _ _ ih | mpls _ _ ih | gre _ _ ih => exact ⟨rfl, ih⟩
  | tcp | udp | icmpv4 | icmpv6 => exact ⟨rfl, trivial⟩
  | layer3Ipv4 _ _ _ ih | layer3Ipv6 _ _ ih | etherIpv4 _ _ _ ih | etherIpv6 _ _ ih | etherMpls _ _ ih
  | ipip _ ih | ip6 _ ih => exact ih

theorem nested (wire : Wire m stop x pos es) : Nested es := by
  induction wire with
  | ipv4 _ _ ih => exact .around (.inl rfl) ih
  | ipv6 _ _ ih => exact .around (.inr (.inl rfl)) ih
  | mpls _ _ ih => exact .around (.inr (.inr (.inr rfl))) ih
  | gre _ _ ih => exact .around (.inr (.inr (.inl rfl))) ih
  | tcp => exact .transport (.inl rfl)
  | udp => exact .transport (.inr (.inl rfl))
  | icmpv4 => exact .transport (.inr (.inr (.inl rfl)))
  | icmpv6 => exact .transport (.inr (.inr (.inr rfl)))
  | layer3Ipv4 _ _ _ ih | layer3Ipv6 _ _ ih | etherIpv4 _ _ _ ih | etherIpv6 _ _ ih | etherMpls _ _ ih
  | ipip _ ih | ip6 _ ih => exact ih

structure Within (stop : Nat) (e : Extent) : Prop where
  positive : 0 < e.headerBytes
  contained : e.headerBytes ≤ e.totalBytes
  inside : e.stop ≤ stop

theorem within (wire : Wire m stop x pos es) (fits : x.Fits stop pos) : ∀ e ∈ es, Within stop e := by
  induction wire with
  | ipv4 header _ ih =>
    obtain ⟨long, contained, total, -⟩ := header
    refine List.forall_mem_cons.mpr ⟨⟨?_, contained, total⟩, ih ?_⟩
    · simp only; omega
    · simp only [Expect.Fits]; omega
  | ipv6 header _ ih =>
    have total := header.fits
    refine List.forall_mem_cons.mpr ⟨⟨by simp, Nat.le_add_right _ _, ?_⟩, ih ?_⟩
    · simp only [Extent.stop]; omega
    · simp only [Expect.Fits]; omega
  | mpls _ next ih =>
    have room := next.layer3_fits
    refine List.forall_mem_cons.mpr ⟨⟨by simp, ?_, ?_⟩, ih trivial⟩
    · simp only; omega
    · simp only [Extent.stop]; omega
  | gre header next ih =>
    rename_i p bytes es
    have minimal := greFlagsLen_ge m p
    refine List.forall_mem_cons.mpr ⟨⟨?_, header.contained, fits⟩, ih trivial⟩
    simp only
    omega
  | tcp header =>
    obtain ⟨long, contained⟩ := header
    refine List.forall_mem_singleton.mpr ⟨?_, contained, fits⟩
    simp only
    omega
  | udp header => exact List.forall_mem_singleton.mpr ⟨by simp, header.long, fits⟩
  | icmpv4 long | icmpv6 long => exact List.forall_mem_singleton.mpr ⟨by simp, long, fits⟩
  | layer3Ipv4 _ _ _ ih | layer3Ipv6 _ _ ih | etherIpv4 _ _ _ ih | etherIpv6 _ _ ih | etherMpls _ _ ih
  | ipip _ ih | ip6 _ ih => exact ih trivial

theorem network (wire : Wire m stop x pos es) (above : ∀ proto bytes, x ≠ .layer4 proto bytes) :
    2 ≤ es.length ∧ ∃ e, lastIp es = some e := by
  induction wire with
  | ipv4 _ next _ | ipv6 _ next _ =>
    have inner := List.length_pos_of_ne_nil next.ne_nil
    refine ⟨by rw [List.length_cons]; omega, ?_⟩
    rw [lastIp_cons]
    cases lastIp _ with
    | none => exact ⟨_, by simp [HeaderType.IsIp]; rfl⟩
    | some e => exact ⟨e, rfl⟩
  | mpls _ _ ih =>
    obtain ⟨two, e, found⟩ := ih (by simp)
    refine ⟨by rw [List.length_cons]; omega, e, ?_⟩
    rw [lastIp_cons, found, Option.some_or]
  | tcp | udp | icmpv4 | icmpv6 | gre | ipip | ip6 => exact absurd rfl (above _ _)
  | layer3Ipv4 _ _ _ ih | layer3Ipv6 _ _ ih | etherIpv4 _ _ _ ih | etherIpv6 _ _ ih | etherMpls _ _ ih => exact ih (by simp)

end Wire

section Parsed

variable {p : Packet} {e : Extent} {es : List Extent}

theorem parsed_around (type : e.type.IsEncapsulation) :
    parsed p (e :: es) =
      { parsed (appended p e.type e.headerBytes e.totalBytes) es with
        ipv4 := (parsed p (e :: es)).ipv4
        ipv6 := (parsed p (e :: es)).ipv6
        ipBytes := (parsed p (e :: es)).ipBytes } := by
  obtain ⟨type', start, headerBytes, totalBytes⟩ := e
  rcases type with rfl | rfl | rfl | rfl
  · simp only [parsed, parsed.finishIp]
    split <;> split <;> rfl
  · simp only [parsed, parsed.finishIp]
    split <;> split <;> rfl
  · rfl
  · rfl

theorem parsed_transport (type : e.type.IsTransport) :
    parsed p [e] =
      { appended p e.type e.headerBytes e.totalBytes with
        tcp := if e.type = .tcp then some e.start else p.tcp
        udp := if e.type = .udp then some e.start else p.udp
        icmpv4 := if e.type = .icmpv4 then some e.start else p.icmpv4
        icmpv6 := if e.type = .icmpv6 then some e.start else p.icmpv6 } := by
  obtain ⟨type', start, headerBytes, totalBytes⟩ := e
  rcases type with rfl | rfl | rfl | rfl <;> rfl

theorem HeaderType.IsEncapsulation.ne_none {t : HeaderType} (type : t.IsEncapsulation) : t ≠ .none := by
  rcases type with rfl | rfl | rfl | rfl <;> simp

theorem HeaderType.IsTransport.ne_none {t : HeaderType} (type : t.IsTransport) : t ≠ .none := by
  rcases type with rfl | rfl | rfl | rfl <;> simp

theorem HeaderType.IsTransport.not_isIp {t : HeaderType} (type : t.IsTransport) : ¬t.IsIp := by
  rcases type with rfl | rfl | rfl | rfl <;> simp [HeaderType.IsIp]

theorem parsed_layout (nested : Nested es) {pos : Nat} (contiguous : Contiguous pos es)
    (here : p.l2HeaderBytes + p.ipBytes = pos) {hs : List Header} (layout : Layout p hs)
    (room : hs.length + es.length ≤ packetMaxHeaders) :
    Layout (parsed p es) (hs ++ es.map Extent.header) := by
  induction nested generalizing p pos hs with
  | @transport e type =>
    rw [parsed_transport type]
    have appends := layout.append (by simp at room; omega) type.ne_none e.headerBytes e.totalBytes
    rw [here, ← contiguous.1] at appends
    exact ⟨appends.table, appends.used⟩
  | @around e es type _ ih =>
    rw [List.length_cons] at room
    have appends := layout.append (by omega) type.ne_none e.headerBytes e.totalBytes
    rw [here, ← contiguous.1] at appends
    have next := ih contiguous.2 (p := appended p e.type e.headerBytes e.totalBytes)
      (by simp only [appended, updateHeader, Extent.inner, contiguous.1]; omega) appends
      (by rw [List.length_append, List.length_singleton]; omega)
    rw [List.append_assoc] at next
    rw [parsed_around type]
    exact ⟨next.table, next.used⟩

theorem parsed_frame (nested : Nested es) :
    (parsed p es).buffer = p.buffer ∧ (parsed p es).bufferBytes = p.bufferBytes ∧
      (parsed p es).l2HeaderBytes = p.l2HeaderBytes := by
  induction nested generalizing p with
  | transport type => rw [parsed_transport type]; exact ⟨rfl, rfl, rfl⟩
  | around type _ ih => rw [parsed_around type]; exact ih

def transportPtr (type : HeaderType) (es : List Extent) : Option Nat :=
  es.getLast?.bind fun e => if e.type = type then some e.start else none

theorem transportPtr_cons {es : List Extent} (nonempty : es ≠ []) (type : HeaderType) (e : Extent) :
    transportPtr type (e :: es) = transportPtr type es := by
  obtain ⟨d, ds, rfl⟩ := List.exists_cons_of_ne_nil nonempty
  rw [transportPtr, List.getLast?_cons_cons]
  rfl

theorem Nested.ne_nil (nested : Nested es) : es ≠ [] := by
  cases nested <;> simp

theorem parsed_transportPtr (nested : Nested es)
    (unset : p.tcp = none ∧ p.udp = none ∧ p.icmpv4 = none ∧ p.icmpv6 = none) :
    (parsed p es).tcp = transportPtr .tcp es ∧ (parsed p es).udp = transportPtr .udp es ∧
      (parsed p es).icmpv4 = transportPtr .icmpv4 es ∧ (parsed p es).icmpv6 = transportPtr .icmpv6 es := by
  induction nested generalizing p with
  | transport type =>
    rw [parsed_transport type]
    simp [transportPtr, unset]
  | @around e es type inner ih =>
    rw [parsed_around type]
    simp only [transportPtr_cons inner.ne_nil]
    exact ih unset

def ipPtr (type : HeaderType) (es : List Extent) : Option Nat :=
  (lastIp es).bind fun e => if e.type = type then some e.start else none

theorem ipPtr_eq_none_iff (es : List Extent) :
    ipPtr .ipv4 es = none ∧ ipPtr .ipv6 es = none ↔ lastIp es = none := by
  unfold ipPtr
  cases found : lastIp es with
  | none => simp
  | some e => rcases lastIp_isIp found with ip | ip <;> simp [ip]

theorem finishIp_ptrs (q : Packet) (setPtr : Packet → Packet) (total : Nat) :
    (parsed.finishIp p setPtr q total).ipv4 = (if q.ipv4 = none ∧ q.ipv6 = none then setPtr q else q).ipv4 ∧
      (parsed.finishIp p setPtr q total).ipv6 = (if q.ipv4 = none ∧ q.ipv6 = none then setPtr q else q).ipv6 := by
  unfold parsed.finishIp
  by_cases outer : p.ipBytes = 0 <;> simp [outer]

theorem parsed_ipPtr (nested : Nested es) (unset : p.ipv4 = none ∧ p.ipv6 = none) :
    (parsed p es).ipv4 = ipPtr .ipv4 es ∧ (parsed p es).ipv6 = ipPtr .ipv6 es := by
  induction nested generalizing p with
  | transport type =>
    rw [parsed_transport type]
    simp [ipPtr, lastIp, type.not_isIp, appended, updateHeader, unset]
  | @around e es type inner ih =>
    have next := ih (p := appended p e.type e.headerBytes e.totalBytes) unset
    have both := ipPtr_eq_none_iff es
    rw [← next.1, ← next.2] at both
    obtain ⟨type', start, headerBytes, totalBytes⟩ := e
    rcases type with rfl | rfl | rfl | rfl
    · simp only [parsed, finishIp_ptrs, both]
      cases found : lastIp es with
      | none => simpa [ipPtr, lastIp_cons, found, HeaderType.IsIp] using next.2
      | some d => simpa [ipPtr, lastIp_cons, found] using next
    · simp only [parsed, finishIp_ptrs, both]
      cases found : lastIp es with
      | none => simpa [ipPtr, lastIp_cons, found, HeaderType.IsIp] using next.1
      | some d => simpa [ipPtr, lastIp_cons, found] using next
    · simpa [parsed, ipPtr, lastIp_cons, HeaderType.IsIp] using next
    · simpa [parsed, ipPtr, lastIp_cons, HeaderType.IsIp] using next

/-- The packet length: what the outermost header claims if it is an IP header, and otherwise
the sum of the header lengths. -/
def recordedLength (before : Nat) : List Extent → Nat
  | [] => before
  | e :: es => if before = 0 ∧ e.type.IsIp then e.totalBytes
      else before + ((e :: es).map Extent.headerBytes).sum

theorem parsed_ipBytes (nested : Nested es) (positive : ∀ e ∈ es, 0 < e.headerBytes) :
    (parsed p es).ipBytes = recordedLength p.ipBytes es := by
  induction nested generalizing p with
  | transport type =>
    rw [parsed_transport type]
    simp [recordedLength, type.not_isIp, appended, updateHeader]
  | @around e es type inner ih =>
    have next := ih (p := appended p e.type e.headerBytes e.totalBytes)
      fun d member => positive d (List.mem_cons_of_mem e member)
    have nonzero : (appended p e.type e.headerBytes e.totalBytes).ipBytes ≠ 0 := by
      have := positive e List.mem_cons_self
      simp only [appended, updateHeader]
      omega
    have sum : (parsed (appended p e.type e.headerBytes e.totalBytes) es).ipBytes =
        p.ipBytes + ((e :: es).map Extent.headerBytes).sum := by
      rw [next]
      obtain ⟨d, ds, rfl⟩ := List.exists_cons_of_ne_nil inner.ne_nil
      simp only [recordedLength, nonzero, false_and, if_false]
      simp [appended, updateHeader, Nat.add_assoc]
    obtain ⟨type', start, headerBytes, totalBytes⟩ := e
    rcases type with rfl | rfl | rfl | rfl
    iterate 2
      · simp only [parsed, parsed.finishIp, recordedLength, HeaderType.IsIp]
        by_cases outer : p.ipBytes = 0
        · simp [outer]
        · simp only [outer, if_false, false_and]
          rw [← sum]
          split <;> rfl
    all_goals simpa [parsed, recordedLength, HeaderType.IsIp] using sum

end Parsed

/-- The metadata of a packet of `inBytes` bytes whose headers are `es`. -/
structure Metadata (q : Packet) (inBytes : Nat) (es : List Extent) : Prop where
  layout : Layout q (es.map Extent.header)
  atLeastTwo : 2 ≤ es.length
  atMostSix : es.length ≤ packetMaxHeaders
  first : es.head?.map Extent.start = some q.l2HeaderBytes
  contiguous : es.IsChain fun outer inner => inner.start = outer.start + outer.headerBytes
  inside : ∀ e ∈ es, e.start + e.headerBytes ≤ inBytes
  contained : ∀ e ∈ es, e.headerBytes ≤ e.totalBytes
  transport : ∃ last, es.getLast? = some last ∧ last.type.IsTransport ∧
    q.tcp = (if last.type = .tcp then some last.start else none) ∧
    q.udp = (if last.type = .udp then some last.start else none) ∧
    q.icmpv4 = (if last.type = .icmpv4 then some last.start else none) ∧
    q.icmpv6 = (if last.type = .icmpv6 then some last.start else none)
  network : ∃ ip, lastIp es = some ip ∧
    (ip.type = .ipv4 ∧ q.ipv4 = some ip.start ∧ q.ipv6 = none ∨
      ip.type = .ipv6 ∧ q.ipv6 = some ip.start ∧ q.ipv4 = none)

theorem Contiguous.isChain {pos : Nat} {es : List Extent} (contiguous : Contiguous pos es) :
    es.IsChain fun outer inner => inner.start = outer.start + outer.headerBytes := by
  induction es generalizing pos with
  | nil => exact .nil
  | cons e es ih =>
    cases es with
    | nil => exact .singleton e
    | cons d ds => exact .cons_cons contiguous.2.1 (ih contiguous.2)

theorem Nested.last {es : List Extent} (nested : Nested es) :
    ∃ e, es.getLast? = some e ∧ e.type.IsTransport := by
  induction nested with
  | transport type => exact ⟨_, rfl, type⟩
  | around _ inner ih =>
    obtain ⟨e, found, type⟩ := ih
    obtain ⟨d, ds, rfl⟩ := List.exists_cons_of_ne_nil inner.ne_nil
    exact ⟨e, by rw [List.getLast?_cons_cons, found], type⟩

theorem WirePacket.within {m : Mem} {stop : Nat} {layer : PacketLayer} {es : List Extent}
    (wire : WirePacket m stop layer es) : ∀ e ∈ es, Wire.Within stop e :=
  wire.2.within (by cases layer <;> trivial)

theorem recorded_metadata {p : Packet} (fresh : Fresh p)
    (unset : p.ipv4 = none ∧ p.ipv6 = none ∧ p.tcp = none ∧ p.udp = none ∧ p.icmpv4 = none ∧ p.icmpv6 = none)
    {inBytes : Nat} {layer : PacketLayer} {es : List Extent} (wire : WirePacket p.buffer inBytes layer es)
    (fits : es.length ≤ packetMaxHeaders) : Metadata (recorded layer p es) inBytes es := by
  obtain ⟨noIpv4, noIpv6, noTransport⟩ := unset
  have nested := wire.2.nested
  have contiguous := wire.2.contiguous
  have within := wire.within
  obtain ⟨two, ip, foundIp⟩ := wire.2.network (by cases layer <;> simp [PacketLayer.expect])
  obtain ⟨last, foundLast, transport⟩ := nested.last
  obtain ⟨ptr4, ptr6⟩ := parsed_ipPtr (p := layer.started p) nested ⟨noIpv4, noIpv6⟩
  have ptrs := parsed_transportPtr (p := layer.started p) nested noTransport
  have here : (layer.started p).l2HeaderBytes + (layer.started p).ipBytes = layer.headerBytes := by
    simp [PacketLayer.started, fresh.ipBytes]
  have layout : Layout (layer.started p) [] := ⟨fresh.layout.table, fresh.layout.used⟩
  unfold recorded
  constructor
  case layout => simpa using parsed_layout nested contiguous here layout (by simpa using fits)
  case atLeastTwo => exact two
  case atMostSix => exact fits
  case first =>
    rw [(parsed_frame nested).2.2]
    obtain ⟨e, ds, rfl⟩ := List.exists_cons_of_ne_nil nested.ne_nil
    simpa [PacketLayer.started] using contiguous.1
  case contiguous => exact contiguous.isChain
  case inside =>
    intro e member
    obtain ⟨_, contained, inside⟩ := within e member
    unfold Extent.stop at inside
    omega
  case contained => exact fun e member => (within e member).contained
  case transport =>
    refine ⟨last, foundLast, transport, ?_⟩
    simpa only [transportPtr, foundLast, Option.bind_some] using ptrs
  case network =>
    refine ⟨ip, foundIp, ?_⟩
    simp only [ipPtr, foundIp, Option.bind_some] at ptr4 ptr6
    rcases lastIp_isIp foundIp with type | type
    · exact .inl ⟨type, by simp [ptr4, type], by simp [ptr6, type]⟩
    · exact .inr ⟨type, by simp [ptr6, type], by simp [ptr4, type]⟩

/-- `parse_packet` on a new packet terminates without a failing assertion, and the metadata of
every packet it accepts is right. -/
theorem parsePacket_metadata (m : Mem) (bufferBytes inBytes : Nat) (layer : PacketLayer)
    (buffered : inBytes ≤ bufferBytes) :
    ∃ result q, parsePacket (packetNew m bufferBytes) inBytes layer = .ok (result, q) ∧
      (result = .ok → ∃ es, Metadata q inBytes es) := by
  obtain ⟨result, q, returned, sound, complete⟩ :=
    parsePacket_spec (packetNew_fresh m bufferBytes) buffered layer
  refine ⟨result, q, returned, fun ok => ?_⟩
  obtain ⟨es, wire, fits⟩ := sound ok
  obtain ⟨-, rfl⟩ := complete es wire fits
  exact ⟨es, recorded_metadata (packetNew_fresh m bufferBytes) ⟨rfl, rfl, rfl, rfl, rfl, rfl⟩ wire fits⟩

def emptyUdpDatagram : Mem := .ofList
  [0x45, 0, 0, 28, 0, 0, 0, 0, 255, 17, 0, 0, 1, 1, 1, 1, 2, 2, 2, 2, 0, 7, 0, 8, 0, 8, 0, 0]

theorem parsePacket_metadata_emptyUdpDatagram :
    (parsePacket (packetNew emptyUdpDatagram 28) 28 .layer3Ip).toOption.map Prod.fst = some .ok ∧
    ∃ result q, parsePacket (packetNew emptyUdpDatagram 28) 28 .layer3Ip = .ok (result, q) ∧
      (result = .ok → ∃ es, Metadata q 28 es) :=
  ⟨by decide +kernel, parsePacket_metadata emptyUdpDatagram 28 28 .layer3Ip (by decide)⟩

end TcpFuzz
