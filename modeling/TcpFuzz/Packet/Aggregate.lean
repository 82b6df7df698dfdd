import Mathlib.Algebra.Order.BigOperators.Group.List
import TcpFuzz.Packet.Encapsulated

/-! `aggregate_packets` joins the payloads of a list of packets behind the headers of the last one. -/

namespace TcpFuzz
open Bytes Mem

variable {es : List Extent} {pos : Nat} {t : Extent}

/-- The payloads, one after the other from `pos` on. A negative length or a copy that leaves the
buffer is undefined. -/
def copyPayloads (bufferBytes : Nat) (m : Mem) (pos : Nat) : List Packet → Run Mem
  | [] => .ok m
  | p :: ps => do
    let payload ← packetPayload p
    let len ← packetPayloadLen p
    if len < 0 ∨ bufferBytes < pos + len.toNat then .error .invalidAccess
    else copyPayloads bufferBytes (m.copy pos p.buffer payload len.toNat) (pos + len.toNat) ps

def copySeqAndCwr (m : Mem) (tcp : Nat) (other : Mem) (otherTcp : Nat) : Mem :=
  let m := m.copy (tcp + 4) other (otherTcp + 4) 4
  m.put8 (tcp + 13) (other.get8 (otherTcp + 13) / 128 * 128 + m.get8 (tcp + 13) % 128)

def growHeaders (tcp : Option Nat) (first : Packet) (extraPayload : Nat) (m : Mem) : List Header → Run (Mem × List Header)
  | [] => .ok (m, [])
  | header :: headers =>
    if header.type = .none then .ok (m, header :: headers)
    else do
      let grown := { header with totalBytes := header.totalBytes + extraPayload }
      let m ← if header.type = .tcp then do
          let tcp ← requirePtr tcp
          let firstTcp ← requirePtr first.tcp
          pure (copySeqAndCwr m tcp first.buffer firstTcp)
        else pure m
      let (m, headers) ← growHeaders tcp first extraPayload m headers
      return (m, grown :: headers)

def growPacket (p first : Packet) (extraPayload : Nat) : Run Packet := do
  let (buffer, headers) ← growHeaders p.tcp first extraPayload p.buffer p.headers.toList
  packetFinishEncapsulationHeaders { p with buffer, headers := Vector.ofFn fun i => headers.getD i .unused }

def aggregatePackets (allocated : Mem) (first : Packet) (rest : List Packet) (payloadSize : Int) : Run Packet := do
  let last := rest.getLastD first
  let lastPayload ← packetPayloadLen last
  let extraPayload := payloadSize - lastPayload
  let headersLen ← packetPayload last
  let oldPacketSize ← packetEnd last
  if oldPacketSize + extraPayload < headersLen then .error .invalidAccess
  let bufferBytes := (oldPacketSize + extraPayload).toNat
  let buffer := allocated.copy 0 last.buffer 0 headersLen
  let buffer ← copyPayloads bufferBytes buffer headersLen (first :: rest)
  -- every payload fits, that of the last packet too, so that `extraPayload` is not negative
  growPacket (packetDuplicateInfo (packetNew buffer bufferBytes) last 0 extraPayload.toNat) first extraPayload.toNat

def carriedLen (p : Packet) : Int := (packetPayloadLen p).toOption.getD 0

section Payloads

variable {bufferBytes pos : Nat} {m m' : Mem} {ps : List Packet}

theorem copyPayloads_nonneg (readable : ∀ p ∈ ps, ∃ start, packetPayload p = .ok start ∧ packetPayloadLen p = .ok (carriedLen p))
    (returned : copyPayloads bufferBytes m pos ps = .ok m') : ∀ p ∈ ps, 0 ≤ carriedLen p := by
  induction ps generalizing m pos with
  | nil => simp
  | cons p ps ih =>
    obtain ⟨⟨start, payload, len⟩, others⟩ := List.forall_mem_cons.mp readable
    rw [copyPayloads, payload, len, ok_bind, ok_bind] at returned
    split at returned
    · cases returned
    next inside =>
      have nonneg : 0 ≤ carriedLen p := by omega
      exact List.forall_mem_cons.mpr ⟨nonneg, ih others returned⟩

theorem copyPayloads_frame (returned : copyPayloads bufferBytes m pos ps = .ok m') :
    ∀ j < pos, m'.get8 j = m.get8 j := by
  induction ps generalizing m pos with
  | nil =>
    cases returned
    exact fun _ _ => rfl
  | cons p ps ih =>
    intro j before
    rw [copyPayloads] at returned
    cases payload : packetPayload p with
    | error f => rw [payload] at returned; cases returned
    | ok start =>
      cases length : packetPayloadLen p with
      | error f => rw [payload, length] at returned; cases returned
      | ok len =>
        rw [payload, length, ok_bind, ok_bind] at returned
        split at returned
        · cases returned
        · rw [ih returned j (by omega), get8_copy_ne _ _ _ (.inl before)]

theorem copyPayloads_ok (readable : ∀ p ∈ ps, ∃ start, packetPayload p = .ok start ∧ packetPayloadLen p = .ok (carriedLen p))
    (nonneg : ∀ p ∈ ps, 0 ≤ carriedLen p) (fits : pos + (ps.map carriedLen).sum ≤ bufferBytes) :
    ∃ m' payloads, copyPayloads bufferBytes m pos ps = .ok m' ∧
      List.Forall₂ (fun p bytes => packetPayloadBytes p = .ok bytes) ps payloads ∧
      m'.bytes pos (ps.map carriedLen).sum.toNat = payloads.flatten := by
  induction ps generalizing m pos with
  | nil => exact ⟨m, [], rfl, .nil, rfl⟩
  | cons p ps ih =>
    obtain ⟨⟨start, payload, len⟩, others⟩ := List.forall_mem_cons.mp readable
    obtain ⟨here, rest⟩ := List.forall_mem_cons.mp nonneg
    rw [List.map_cons, List.sum_cons] at fits ⊢
    have tail : 0 ≤ (ps.map carriedLen).sum := List.sum_nonneg (by simpa using rest)
    obtain ⟨m', payloads, returned, carried, joined⟩ : ∃ m' payloads, copyPayloads bufferBytes
        (m.copy pos p.buffer start (carriedLen p).toNat) (pos + (carriedLen p).toNat) ps = .ok m' ∧ _ :=
      ih others rest (by omega)
    refine ⟨m', p.buffer.bytes start (carriedLen p).toNat :: payloads, ?_, .cons ?_ carried, ?_⟩
    · rw [copyPayloads, payload, len, ok_bind, ok_bind, if_neg (by omega)]
      exact returned
    · simp only [packetPayloadBytes, payload, len, ok_bind, run_pure]
    · have kept := copyPayloads_frame returned
      have front : m'.bytes pos (carriedLen p).toNat = p.buffer.bytes start (carriedLen p).toNat := by
        rw [bytes_of_get8 fun k _ upper => kept k upper, bytes_copy_self]
      rw [Int.toNat_add here tail, bytes_append, front, joined, List.flatten_cons]

end Payloads

def Extent.grow (extra : Nat) (e : Extent) : Extent := { e with totalBytes := e.totalBytes + extra }

theorem Nested.grow (nested : Nested es) (extra : Nat) : Nested (es.map (Extent.grow extra)) := by
  induction nested with
  | transport type => exact .transport type
  | around type _ ih => exact .around type ih

theorem Contiguous.grow (contiguous : Contiguous pos es) (extra : Nat) :
    Contiguous pos (es.map (Extent.grow extra)) := by
  induction es generalizing pos with
  | nil => trivial
  | cons e es ih => exact ⟨contiguous.1, ih contiguous.2⟩

theorem growHeaders_unused (tcp : Option Nat) (first : Packet) (extra : Nat) (m : Mem) (k : Nat) :
    growHeaders tcp first extra m (List.replicate k Header.unused) = .ok (m, List.replicate k Header.unused) := by
  cases k with
  | zero => rfl
  | succ k => rw [List.replicate_succ, growHeaders, if_pos Header.unused_type]

theorem growHeaders_ok {tcp : Option Nat} {first : Packet} {firstTcp : Nat} (m : Mem)
    (extra k : Nat) (nested : Nested es) (last : es.getLast? = some t)
    (pointers : t.type = .tcp → tcp = some t.start ∧ first.tcp = some firstTcp) :
    growHeaders tcp first extra m (es.map Extent.header ++ List.replicate k Header.unused) =
      .ok (if t.type = .tcp then copySeqAndCwr m t.start first.buffer firstTcp else m,
        (es.map (Extent.grow extra)).map Extent.header ++ List.replicate k Header.unused) := by
  induction nested with
  | @transport e type =>
    obtain rfl : e = t := Option.some.inj last
    rw [List.map_singleton, List.singleton_append, growHeaders, if_neg (show e.header.type ≠ .none from type.ne_none)]
    by_cases isTcp : e.type = .tcp
    · obtain ⟨here, there⟩ := pointers isTcp
      simp [Extent.header, Extent.grow, isTcp, here, there, requirePtr, growHeaders_unused]
    · simp [Extent.header, Extent.grow, isTcp, growHeaders_unused]
  | @around e es type inner ih =>
    obtain ⟨d, ds, rfl⟩ := List.exists_cons_of_ne_nil inner.ne_nil
    rw [List.getLast?_cons_cons] at last
    have used : e.header.type ≠ .none := type.ne_none
    have notTcp : e.header.type ≠ .tcp := by
      rcases type with type | type | type | type <;> simp [Extent.header, type]
    rw [List.map_cons, List.cons_append, growHeaders, if_neg used]
    simp only [if_neg notTcp, run_pure, ok_bind, ih last]
    rfl

def continuedMem (buffer : Mem) (t : Extent) (first : Packet) (firstTcp : Nat) : Mem :=
  if t.type = .tcp then copySeqAndCwr buffer t.start first.buffer firstTcp else buffer

theorem withTable_layout (p : Packet) {hs : List Header} (length : hs.length ≤ packetMaxHeaders)
    (used : ∀ h ∈ hs, h.type ≠ .none) (n : Nat) :
    Layout { p with headers := Vector.ofFn fun i => (hs ++ List.replicate n Header.unused).getD i .unused } hs := by
  apply Layout.of_get length used
  intro i
  rw [get_ofFn, getD_append_replicate]

theorem growPacket_eq {p first : Packet} {firstTcp : Nat} (extra : Nat)
    (layout : Layout p (es.map Extent.header)) (nested : Nested es) (last : es.getLast? = some t)
    (pointers : t.type = .tcp → p.tcp = some t.start ∧ first.tcp = some firstTcp) :
    growPacket p first extra =
      (finishHeaders (continuedMem p.buffer t first firstTcp) ((es.map (Extent.grow extra)).map Extent.header ++
        List.replicate (packetMaxHeaders - es.length) Header.unused) >>= fun result =>
          .ok { p with buffer := result.1, headers := Vector.ofFn fun i => result.2.getD i .unused }) := by
  have grown := growHeaders_ok p.buffer extra (packetMaxHeaders - es.length) nested last pointers
  have table := layout.table
  rw [List.length_map] at table
  have used : ∀ h ∈ (es.map (Extent.grow extra)).map Extent.header, h.type ≠ .none := by
    simp only [List.map_map, List.mem_map]
    rintro h ⟨e, member, rfl⟩
    exact layout.used e.header (List.mem_map_of_mem member)
  have length : ((es.map (Extent.grow extra)).map Extent.header).length ≤ packetMaxHeaders := by
    simpa using layout.length_le
  have table' := (withTable_layout p length used (packetMaxHeaders - es.length)).table
  rw [List.length_map, List.length_map] at table'
  rw [growPacket, table, grown, ok_bind]
  simp only [packetFinishEncapsulationHeaders, table', run_pure]
  rfl

/-- What finishing takes for the length of a header: IPv4 options are not counted. -/
def Extent.counted (e : Extent) : Nat := if e.type = .ipv4 then 20 else e.headerBytes

def Extent.around (e : Extent) (contents : Nat) : Extent := { e with totalBytes := e.counted + contents }

section Finished

variable {m m' : Mem} {e : Extent} {h d : Header}

/-- Whenever a header is finished from the one behind it, its contents are counted and nothing but
its own fields is written. -/
theorem headerFinish_around (encapsulation : e.type.IsEncapsulation) (form : e.type ≠ .ipv4 → Unfinished m e)
    (returned : headerFinish m e.header (some d) = .ok (m', h)) :
    h = (e.around d.totalBytes).header ∧ ∀ j ∉ e.rewritten, m'.get8 j = m.get8 j := by
  obtain ⟨type, start, headerBytes, totalBytes⟩ := e
  rcases encapsulation with rfl | rfl | rfl | rfl
  · simp only [headerFinish, Extent.header, ipv4HeaderFinish, deref, ok_bind] at returned
    cases info : headerTypeInfo d.type with
    | error f => rw [info] at returned; cases returned
    | ok found =>
      rw [info] at returned
      cases returned
      refine ⟨rfl, fun j kept => ?_⟩
      simp only [Extent.rewritten, List.mem_cons, List.not_mem_nil, or_false, not_or] at kept
      rw [setIpv4Check_frame _ (by omega), get8_put8_ne _ _ (by omega), get8_putBe16_ne _ _ (by omega)]
  · obtain rfl : headerBytes = 40 := form (by simp)
    simp only [headerFinish, Extent.header, ipv6HeaderFinish, deref, ok_bind] at returned
    by_cases short : d.totalBytes ≤ 0xffff
    · rw [assertThat_ok short, ok_bind] at returned
      cases info : headerTypeInfo d.type with
      | error f => rw [info] at returned; cases returned
      | ok found =>
        rw [info] at returned
        cases returned
        refine ⟨rfl, fun j kept => ?_⟩
        simp only [Extent.rewritten, List.mem_cons, List.not_mem_nil, or_false, not_or] at kept
        rw [get8_put8_ne _ _ (by omega), get8_putBe16_ne _ _ (by omega)]
    · rw [assertThat, if_neg short] at returned
      cases returned
  · obtain ⟨length, version, direct⟩ := form (by simp)
    simp only [headerFinish, Extent.header, greHeaderFinish, deref, ok_bind, greLen_ok version direct] at returned
    cases info : headerTypeInfo d.type with
    | error f => rw [info] at returned; cases returned
    | ok found =>
      rw [info] at returned
      cases returned
      refine ⟨?_, fun j kept => ?_⟩
      · simp only at length
        rw [← length]
        rfl
      · simp only [Extent.rewritten, List.mem_cons, List.not_mem_nil, or_false, not_or] at kept
        rw [get8_putBe16_ne _ _ (by omega)]
  · cases returned
    exact ⟨rfl, fun _ _ => rfl⟩

theorem Contiguous.behind (contiguous : Contiguous pos es) :
    ∀ e ∈ es, pos ≤ e.start := by
  induction es generalizing pos with
  | nil => simp
  | cons e es ih =>
    obtain ⟨rfl, rest⟩ := contiguous
    refine List.forall_mem_cons.mpr ⟨Nat.le_refl _, fun d member => ?_⟩
    exact Nat.le_trans (Nat.le_add_right _ _) (ih rest d member)

def finishedTable : List Extent → List Extent
  | [] => []
  | e :: es =>
    match finishedTable es with
    | [] => [e]
    | d :: ds => e.around d.totalBytes :: d :: ds

theorem finishedTable_ne_nil (nonempty : es ≠ []) : finishedTable es ≠ [] := by
  cases es with
  | nil => exact (nonempty rfl).elim
  | cons e es =>
    rw [finishedTable]
    split <;> simp

theorem finishHeaders_returned {k : Nat} {hs : List Header} (nested : Nested es)
    (contiguous : Contiguous pos es) (form : ∀ e ∈ es, e.type.IsEncapsulation → e.type ≠ .ipv4 → Unfinished m e)
    (returned : finishHeaders m (es.map Extent.header ++ List.replicate k Header.unused) = .ok (m', hs)) :
    hs = (finishedTable es).map Extent.header ++ List.replicate k Header.unused ∧
      ∀ j ∉ es.flatMap Extent.rewritten, m'.get8 j = m.get8 j := by
  induction nested generalizing pos m' hs with
  | @transport e type =>
    have used : e.header.type ≠ .none := type.ne_none
    have transport : e.header.type.IsTransport := type
    simp only [List.map_singleton, List.singleton_append, finishHeaders, finishHeaders_unused, ok_bind, if_neg used,
      headerFinish_transport transport, run_pure] at returned
    cases returned
    exact ⟨rfl, fun _ _ => rfl⟩
  | @around e es type inner ih =>
    obtain ⟨rfl, rest⟩ := contiguous
    obtain ⟨here, others⟩ := List.forall_mem_cons.mp form
    rw [List.map_cons, List.cons_append, finishHeaders] at returned
    cases behind : finishHeaders m (es.map Extent.header ++ List.replicate k Header.unused) with
    | error f => rw [behind] at returned; cases returned
    | ok result =>
      obtain ⟨m₁, inner'⟩ := result
      obtain ⟨rfl, frame⟩ := ih rest others behind
      obtain ⟨d, ds, table⟩ := List.exists_cons_of_ne_nil (finishedTable_ne_nil inner.ne_nil)
      have used : e.header.type ≠ .none := type.ne_none
      have form' : e.type ≠ .ipv4 → Unfinished m₁ e := by
        intro notIpv4
        refine (here type notIpv4).congr fun j _ before => frame j fun member => ?_
        obtain ⟨x, inside, written⟩ := List.mem_flatMap.mp member
        have after := rest.behind x inside
        have first := Extent.rewritten_ge written
        omega
      rw [behind, table, ok_bind] at returned
      simp only [if_neg used, List.map_cons, List.cons_append, List.head?_cons] at returned
      cases step : headerFinish m₁ e.header (some d.header) with
      | error f => rw [step] at returned; cases returned
      | ok finished =>
        obtain ⟨m₂, h⟩ := finished
        obtain ⟨rfl, frame'⟩ := headerFinish_around type form' step
        rw [step] at returned
        cases returned
        refine ⟨?_, fun j kept => ?_⟩
        · rw [finishedTable, table]
          rfl
        · rw [List.flatMap_cons, List.mem_append, not_or] at kept
          rw [frame' j kept.1, frame j kept.2]

theorem finishedTable_types (es : List Extent) : (finishedTable es).map Extent.type = es.map Extent.type := by
  induction es with
  | nil => rfl
  | cons e es ih =>
    rw [List.map_cons, ← ih, finishedTable]
    cases finishedTable es <;> rfl

theorem finishedTable_getLast? (nested : Nested es) :
    (finishedTable es).getLast? = es.getLast? := by
  induction nested with
  | transport => rfl
  | @around e es type inner ih =>
    obtain ⟨c, cs, rfl⟩ := List.exists_cons_of_ne_nil inner.ne_nil
    obtain ⟨d, ds, table⟩ := List.exists_cons_of_ne_nil (finishedTable_ne_nil inner.ne_nil)
    rw [table] at ih
    rw [finishedTable, table, List.getLast?_cons_cons, List.getLast?_cons_cons, ih]

/-- No header is counted longer than it is, so that the contents of an outer header cannot end
behind those of the innermost one; where they end together, no options were left out. -/
theorem finishedTable_stop (nested : Nested es)
    (contiguous : Contiguous pos es) (last : es.getLast? = some t) (counted : ∀ e ∈ es, e.counted ≤ e.headerBytes) :
    ∃ f fs, finishedTable es = f :: fs ∧ f.start = pos ∧ f.stop ≤ t.stop ∧
      (f.stop = t.stop → finishedTable es = es.map (Extent.endAt t.stop) ∧
        ∀ e ∈ es, e.type = .ipv4 → e.headerBytes = 20) := by
  induction nested generalizing pos with
  | @transport e type =>
    obtain ⟨rfl, -⟩ := contiguous
    obtain rfl : e = t := Option.some.inj last
    refine ⟨e, [], rfl, rfl, Nat.le_refl _, fun _ => ⟨?_, ?_⟩⟩
    · rw [List.map_singleton, Extent.endAt_eq rfl]
      rfl
    · intro x member four
      rw [List.mem_singleton.mp member] at four
      exact absurd (.inl four) type.not_isIp
  | @around e es type inner ih =>
    obtain ⟨rfl, rest⟩ := contiguous
    obtain ⟨here, others⟩ := List.forall_mem_cons.mp counted
    obtain ⟨c, cs, rfl⟩ := List.exists_cons_of_ne_nil inner.ne_nil
    rw [List.getLast?_cons_cons] at last
    obtain ⟨d, ds, table, start, stop, closed⟩ := ih rest last others
    refine ⟨e.around d.totalBytes, d :: ds, by rw [finishedTable, table], rfl, ?_, fun ends => ?_⟩
    · simp only [Extent.stop, Extent.around, Extent.inner] at *
      omega
    · simp only [Extent.stop, Extent.around, Extent.inner] at ends stop start
      have whole : e.counted = e.headerBytes := by omega
      obtain ⟨inside, plain⟩ := closed (by simp only [Extent.stop]; omega)
      refine ⟨?_, List.forall_mem_cons.mpr ⟨fun four => ?_, plain⟩⟩
      · have total : e.counted + d.totalBytes = t.stop - e.start := by simp only [Extent.stop]; omega
        rw [finishedTable, table, List.map_cons, ← inside, table]
        change e.around d.totalBytes :: d :: ds = _
        rw [Extent.around, Extent.endAt, total]
      · rw [← whole, Extent.counted, if_pos four]

end Finished

section Chain

variable {m : Mem} {stop pos : Nat} {x : Expect} {es : List Extent} {t : Extent}

theorem Nested.isTransport_iff (nested : Nested es) (last : es.getLast? = some t) :
    ∀ e ∈ es, e.type.IsTransport ∧ e = t ∨ e.type.IsEncapsulation := by
  induction nested with
  | @transport e type =>
    obtain rfl : e = t := Option.some.inj last
    exact List.forall_mem_singleton.mpr (.inl ⟨type, rfl⟩)
  | @around e es type inner ih =>
    obtain ⟨d, ds, rfl⟩ := List.exists_cons_of_ne_nil inner.ne_nil
    rw [List.getLast?_cons_cons] at last
    exact List.forall_mem_cons.mpr ⟨.inr type, ih last⟩

theorem Contiguous.inner_le_last (contiguous : Contiguous pos es) (nested : Nested es) (last : es.getLast? = some t) :
    ∀ e ∈ es, e.type.IsEncapsulation → e.inner ≤ t.start := by
  induction nested generalizing pos with
  | @transport e type =>
    refine List.forall_mem_singleton.mpr fun encapsulation => ?_
    rcases type with type | type | type | type <;> simp [HeaderType.IsEncapsulation, type] at encapsulation
  | @around e es type inner ih =>
    obtain ⟨d, ds, rfl⟩ := List.exists_cons_of_ne_nil inner.ne_nil
    rw [List.getLast?_cons_cons] at last
    refine List.forall_mem_cons.mpr ⟨fun _ => ?_, ih contiguous.2 last⟩
    exact contiguous.2.behind t (List.mem_of_getLast? last)

theorem Wire.counted_le (wire : Wire m stop x pos es) : ∀ e ∈ es, e.counted ≤ e.headerBytes := by
  induction wire with
  | ipv4 header _ ih => exact List.forall_mem_cons.mpr ⟨header.long, ih⟩
  | ipv6 _ _ ih | mpls _ _ ih | gre _ _ ih => exact List.forall_mem_cons.mpr ⟨Nat.le_refl _, ih⟩
  | tcp | udp | icmpv4 | icmpv6 => exact List.forall_mem_singleton.mpr (Nat.le_refl _)
  | layer3Ipv4 _ _ _ ih | layer3Ipv6 _ _ ih | etherIpv4 _ _ _ ih | etherIpv6 _ _ ih | etherMpls _ _ ih
  | ipip _ ih | ip6 _ ih => exact ih

theorem Wire.short (wire : Wire m stop x pos es) : ∀ e ∈ es, e.Short := by
  induction wire with
  | @ipv4 p _ header _ ih => exact List.forall_mem_cons.mpr ⟨Nat.le_of_lt_succ (be16_lt m (p + 2)), ih⟩
  | @ipv6 p _ _ _ ih =>
    exact List.forall_mem_cons.mpr ⟨Nat.add_le_add_left (Nat.le_of_lt_succ (be16_lt m (p + 4))) 40, ih⟩
  | mpls _ _ ih | gre _ _ ih => exact List.forall_mem_cons.mpr ⟨trivial, ih⟩
  | tcp | udp | icmpv4 | icmpv6 => exact List.forall_mem_singleton.mpr trivial
  | layer3Ipv4 _ _ _ ih | layer3Ipv6 _ _ ih | etherIpv4 _ _ _ ih | etherIpv6 _ _ ih | etherMpls _ _ ih
  | ipip _ ih | ip6 _ ih => exact ih

theorem Wire.first_mpls {f : Extent} {fs : List Extent} (wire : Wire m stop x pos (f :: fs)) (type : f.type = .mpls)
    (inside : pos ≤ stop) : f.stop = stop := by
  generalize list : f :: fs = es at wire
  induction wire with
  | mpls =>
    cases list
    exact Nat.add_sub_cancel' inside
  | ipv4 | ipv6 | gre | tcp | udp | icmpv4 | icmpv6 => cases list; cases type
  | layer3Ipv4 _ _ _ ih | layer3Ipv6 _ _ ih | etherIpv4 _ _ _ ih | etherIpv6 _ _ ih | etherMpls _ _ ih
  | ipip _ ih | ip6 _ ih => exact ih inside list

theorem Finished.reexpect {m' : Mem} {stop' : Nat} {d d' : Extent} {ds ds' : List Extent}
    (finished : Finished m' stop' pos (d' :: ds')) (versioned : Versioned m' d') (type : d'.type = d.type)
    (wire : Wire m stop x pos (d :: ds)) (asks : x.AsksVersion) : Wire m' stop' x pos (d' :: ds') := by
  have first := finished.wire d' rfl
  cases wire with
  | layer3Ipv4 _ _ next =>
    cases next with
    | ipv4 => exact finished.layer3 (.inl type) versioned
  | layer3Ipv6 _ next =>
    cases next with
    | ipv6 => exact finished.layer3 (.inr type) versioned
  | etherIpv4 _ _ next =>
    cases next with
    | ipv4 =>
      have found := finished.etherType (.inl (.inl type)) versioned
      rwa [type] at found
  | etherIpv6 _ next =>
    cases next with
    | ipv6 =>
      have found := finished.etherType (.inl (.inr type)) versioned
      rwa [type] at found
  | etherMpls proto next =>
    cases next with
    | mpls =>
      rw [type] at first
      exact .etherMpls proto first
  | _ => exact asks.elim

theorem PacketLayer.expect_congr {m' : Mem} {layer : PacketLayer}
    (same : ∀ j < layer.headerBytes, m'.get8 j = m.get8 j) : layer.expect m' = layer.expect m := by
  cases layer with
  | layer2Ethernet =>
    exact congrArg Expect.etherType (be16_of_get8 (same 12 (by decide)) (same 13 (by decide)))
  | layer3Ip => rfl

theorem PacketLayer.asksVersion (layer : PacketLayer) (m : Mem) : (layer.expect m).AsksVersion := by
  cases layer <;> trivial

theorem Extent.rewritten_lt {e : Extent} (ready : Unfinished m e) {j : Nat} (member : j ∈ e.rewritten) :
    j < e.inner ∧ e.type.IsEncapsulation := by
  unfold Extent.rewritten at member
  unfold Unfinished at ready
  unfold Extent.inner
  split at member
  next type =>
    simp only [type, List.mem_cons, List.not_mem_nil, or_false] at ready member
    exact ⟨by omega, .inl type⟩
  next type =>
    simp only [type, List.mem_cons, List.not_mem_nil, or_false] at ready member
    exact ⟨by omega, .inr (.inl type)⟩
  next type =>
    have long := greFlagsLen_ge m e.start
    simp only [type, List.mem_cons, List.not_mem_nil, or_false] at ready member
    exact ⟨by omega, .inr (.inr (.inl type))⟩
  next => cases member

end Chain

end TcpFuzz
