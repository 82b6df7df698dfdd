import TcpFuzz.Packet.Encapsulate
import TcpFuzz.Packet.Metadata

/-! `packet_finish_encapsulation_headers` goes from the innermost header to the outermost. On headers that admit each
other it leaves a chain in the wire format. -/

namespace TcpFuzz
open Bytes Mem

def HeaderType.Admits (outer inner : HeaderType) : Prop :=
  match outer with
  | .ipv4 | .ipv6 => inner.IsIp ∨ inner = .gre ∨ inner.IsTransport
  | .gre => inner.IsIp ∨ inner = .mpls
  | .mpls => inner.IsIp
  | _ => False

def Unfinished (m : Mem) (e : Extent) : Prop :=
  match e.type with
  | .ipv4 => e.headerBytes = 20 ∧ ipv4HeaderLen m e.start = 20 ∧ ipv4FragOff m e.start % 0x4000 = 0
  | .ipv6 => e.headerBytes = 40
  | .gre => e.headerBytes = greFlagsLen m e.start ∧ greVersion m e.start = 0 ∧ ¬greHasRouting m e.start
  | .mpls => ∃ n, e.headerBytes = 4 * (n + 1) ∧ LabelStack m e.start n
  | .tcp => e.headerBytes = tcpDoff m e.start * 4 ∧ TcpHeader m e.totalBytes e.start
  | .udp => e.headerBytes = 8 ∧ UdpHeader m e.totalBytes e.start
  | .icmpv4 | .icmpv6 => e.headerBytes = 8 ∧ 8 ≤ e.totalBytes
  | .none => False

/-- An IP header carries its version. An enclosing IP header does not ask for that. -/
def Versioned (m : Mem) (e : Extent) : Prop :=
  (e.type = .ipv4 → ipVersion m e.start = 4) ∧ (e.type = .ipv6 → ipVersion m e.start = 6)

/-- Headers from `pos` on that admit each other, all of whose contents end at `stop`. -/
inductive HeaderChain (m : Mem) (stop : Nat) : Nat → List Extent → Prop where
  | transport {e : Extent} (type : e.type.IsTransport) (ends : e.stop = stop) (ready : Unfinished m e) :
      HeaderChain m stop e.start [e]
  | around {e d : Extent} {es : List Extent} (admits : e.type.Admits d.type) (ends : e.stop = stop)
      (ready : Unfinished m e) (versioned : ¬e.type.IsIp → Versioned m d)
      (inner : HeaderChain m stop e.inner (d :: es)) :
      HeaderChain m stop e.start (e :: d :: es)

def Extent.Short (e : Extent) : Prop :=
  match e.type with
  | .ipv4 => e.totalBytes ≤ 65535
  | .ipv6 => e.totalBytes ≤ 40 + 65535
  | _ => True

theorem Extent.short_of_stop {e : Extent} (bound : e.stop ≤ 65535) : e.Short := by
  unfold Extent.stop at bound
  unfold Extent.Short
  split
  · omega
  · omega
  · trivial

/-- A table entry that knows the extent, except for the length that finishing sets. -/
structure Announces (h : Header) (e : Extent) : Prop where
  type : h.type = e.type
  headerBytes : h.headerBytes = e.headerBytes
  ptr : h.ptr = some e.start
  total : e.type.IsTransport → h.totalBytes = e.totalBytes

def Extent.rewritten (e : Extent) : List Nat :=
  match e.type with
  | .ipv4 => [e.start + 2, e.start + 3, e.start + 9, e.start + 10, e.start + 11]
  | .ipv6 => [e.start + 4, e.start + 5, e.start + 6]
  | .gre => [e.start + 2, e.start + 3]
  | _ => []

/-- The length and protocol fields of a header agree with its extent and the header behind it. -/
def FieldsAgreeAt (m : Mem) (e : Extent) (next : Option Extent) : Prop :=
  match e.type with
  | .ipv4 => ipv4TotLen m e.start = e.totalBytes ∧ some (ipv4Protocol m e.start) = next.map (·.type.ipProto)
  | .ipv6 => 40 + ipv6PayloadLen m e.start = e.totalBytes ∧
      some (ipv6NextHeader m e.start) = next.map (·.type.ipProto)
  | .gre => greFlagsLen m e.start = e.headerBytes ∧ some (greProto m e.start) = next.map (·.type.ethProto)
  | .mpls => ∃ n, e.headerBytes = 4 * (n + 1) ∧ LabelStack m e.start n
  | .tcp => tcpDoff m e.start * 4 = e.headerBytes
  | .udp => udpLen m e.start = e.totalBytes
  | _ => True

def FieldsAgree (m : Mem) : List Extent → Prop
  | [] => True
  | e :: es => FieldsAgreeAt m e es.head? ∧ FieldsAgree m es

def HeaderType.expect (type : HeaderType) (bytes : Nat) : Expect :=
  match type with
  | .ipv4 => .ipv4
  | .ipv6 => .ipv6
  | .mpls => .mpls
  | type => .layer4 type.ipProto bytes

structure Finished (m : Mem) (stop pos : Nat) (es : List Extent) : Prop where
  wire : ∀ e, es.head? = some e → Wire m stop (e.type.expect e.totalBytes) pos es
  fields : FieldsAgree m es
  checks : ∀ e ∈ es, e.type = .ipv4 → e.headerBytes = 20 ∧ ipv4Checksum m e.start 20 = 0

section Frames

variable {m m' : Mem}

theorem FieldsAgreeAt.congr {e : Extent} {next : Option Extent} (agree : FieldsAgreeAt m e next)
    (same : ∀ j, e.start ≤ j → m'.get8 j = m.get8 j) : FieldsAgreeAt m' e next := by
  unfold FieldsAgreeAt at *
  split <;> simp only [*] at agree
  · simpa (disch := omega) only [ipv4TotLen, ipv4Protocol, be16, same] using agree
  · simpa (disch := omega) only [ipv6PayloadLen, ipv6NextHeader, be16, same] using agree
  · rw [greFlagsLen_congr (same _ (Nat.le_refl _))]
    simpa (disch := omega) only [greProto, be16, same] using agree
  · obtain ⟨n, length, stack⟩ := agree
    exact ⟨n, length, stack.move fun j _ => same _ (by omega)⟩
  · simpa (disch := omega) only [tcpDoff, same] using agree
  · simpa (disch := omega) only [udpLen, be16, same] using agree
  · trivial

theorem FieldsAgree.congr {pos : Nat} {es : List Extent} (agree : FieldsAgree m es)
    (behind : ∀ e ∈ es, pos ≤ e.start) (same : ∀ j, pos ≤ j → m'.get8 j = m.get8 j) : FieldsAgree m' es := by
  induction es with
  | nil => trivial
  | cons e es ih =>
    have here := behind e List.mem_cons_self
    refine ⟨agree.1.congr fun j after => same j (by omega), ih agree.2 fun d member => ?_⟩
    exact behind d (List.mem_cons_of_mem e member)

theorem Finished.congr {stop pos : Nat} {es : List Extent} (finished : Finished m stop pos es)
    (behind : ∀ e ∈ es, pos ≤ e.start) (same : ∀ j, pos ≤ j → m'.get8 j = m.get8 j) : Finished m' stop pos es where
  wire e first := (finished.wire e first).congr same
  fields := finished.fields.congr behind same
  checks e member type := by
    have here := behind e member
    rw [ipv4Checksum_congr fun j after _ => same j (by omega)]
    exact finished.checks e member type

/-- The same header bytes elsewhere are as ready to be finished; the length that an outer header
claims plays no part. -/
theorem Unfinished.move {e e' : Extent} (ready : Unfinished m e) (type : e'.type = e.type)
    (length : e'.headerBytes = e.headerBytes) (total : e.type.IsTransport → e'.totalBytes = e.totalBytes)
    (same : ∀ j < e.headerBytes, m'.get8 (e'.start + j) = m.get8 (e.start + j)) : Unfinished m' e' := by
  have first (long : 0 < e.headerBytes) : m'.get8 e'.start = m.get8 e.start := same 0 long
  unfold Unfinished at *
  rw [type, length]
  cases kind : e.type <;> simp only [kind] at ready ⊢
  case ipv4 =>
    obtain ⟨twenty, ready⟩ := ready
    simp (disch := omega) only [ipv4HeaderLen, ipv4FragOff, be16, Nat.add_assoc, same, first]
    exact ⟨twenty, ready⟩
  case ipv6 => exact ready
  case gre =>
    obtain ⟨flagsLen, version, direct⟩ := ready
    have long := greFlagsLen_ge m e.start
    have flags := first (by omega)
    rw [greFlagsLen_congr flags, greHasRouting_congr flags, greVersion, same _ (by omega)]
    exact ⟨flagsLen, version, direct⟩
  case mpls =>
    obtain ⟨n, entries, stack⟩ := ready
    exact ⟨n, entries, stack.move fun j inside => same j (by omega)⟩
  case tcp =>
    obtain ⟨words, long, contained⟩ := ready
    have doff : tcpDoff m' e'.start = tcpDoff m e.start := by rw [tcpDoff, same _ (by omega), tcpDoff]
    rw [total (by simp [HeaderType.IsTransport, kind]), doff]
    exact ⟨words, by omega, by omega⟩
  case udp =>
    obtain ⟨eight, long, agrees⟩ := ready
    have len : udpLen m' e'.start = udpLen m e.start := by
      simp (disch := omega) only [udpLen, be16, Nat.add_assoc, same]
    rw [total (by simp [HeaderType.IsTransport, kind])]
    exact ⟨eight, long, len.trans agrees⟩
  all_goals
    rw [total (by simp [HeaderType.IsTransport, kind])]
    exact ready

theorem Unfinished.congr {e : Extent} (ready : Unfinished m e)
    (same : ∀ j, e.start ≤ j → j < e.inner → m'.get8 j = m.get8 j) : Unfinished m' e :=
  ready.move rfl rfl (fun _ => rfl) fun j inside => same _ (by omega) (by simp only [Extent.inner]; omega)

theorem Unfinished.start_lt {e : Extent} (ready : Unfinished m e) : e.start < e.inner := by
  unfold Unfinished at ready
  unfold Extent.inner
  split at ready
  case h_3 =>
    have long := greFlagsLen_ge m e.start
    omega
  case h_5 =>
    obtain ⟨length, header⟩ := ready
    have long := header.long
    omega
  all_goals grind

theorem Versioned.move {e e' : Extent} (versioned : Versioned m e) (type : e'.type = e.type)
    (same : m'.get8 e'.start = m.get8 e.start) : Versioned m' e' := by
  unfold Versioned ipVersion at *
  rw [type, same]
  exact versioned

end Frames

section Introduce

variable {m : Mem} {stop pos : Nat} {d : Extent} {ds : List Extent}

theorem Wire.ipv4_start (wire : Wire m stop .ipv4 pos (d :: ds)) : d.start = pos ∧ pos + 20 ≤ stop := by
  cases wire with
  | ipv4 header =>
    obtain ⟨long, contained, fits, -⟩ := header
    exact ⟨rfl, by omega⟩

theorem Wire.ipv6_start (wire : Wire m stop .ipv6 pos (d :: ds)) : d.start = pos := by
  cases wire with
  | ipv6 => rfl

theorem Finished.layer3 (finished : Finished m stop pos (d :: ds)) (isIp : d.type.IsIp)
    (versioned : Versioned m d) : Wire m stop .layer3 pos (d :: ds) := by
  have wire := finished.wire d rfl
  rcases isIp with type | type
  · have version := versioned.1 type
    rw [type] at wire
    obtain ⟨starts, fits⟩ := Wire.ipv4_start wire
    exact .layer3Ipv4 fits (starts ▸ version) wire
  · have version := versioned.2 type
    rw [type] at wire
    exact .layer3Ipv6 (Wire.ipv6_start wire ▸ version) wire

theorem Finished.etherType (finished : Finished m stop pos (d :: ds)) (admitted : d.type.IsIp ∨ d.type = .mpls)
    (versioned : Versioned m d) : Wire m stop (.etherType d.type.ethProto) pos (d :: ds) := by
  have wire := finished.wire d rfl
  rcases admitted with (type | type) | type
  · have version := versioned.1 type
    rw [type] at wire ⊢
    obtain ⟨starts, fits⟩ := Wire.ipv4_start wire
    exact .etherIpv4 fits (starts ▸ version) wire
  · have version := versioned.2 type
    rw [type] at wire ⊢
    exact .etherIpv6 (Wire.ipv6_start wire ▸ version) wire
  · rw [type] at wire ⊢
    exact .etherMpls (.inl rfl) wire

theorem Finished.layer4 (finished : Finished m stop pos (d :: ds))
    (admitted : d.type.IsIp ∨ d.type = .gre ∨ d.type.IsTransport) :
    Wire m stop (.layer4 d.type.ipProto d.totalBytes) pos (d :: ds) := by
  have wire := finished.wire d rfl
  rcases admitted with (type | type) | type | type | type | type | type <;> rw [type] at wire ⊢
  · exact .ipip wire
  · exact .ip6 wire
  all_goals exact wire

end Introduce

/-- Finishing the header `e` in front of a finished chain gives a finished chain. -/
structure FinishesTo (m m' : Mem) (stop : Nat) (h : Header) (e d : Extent) (ds : List Extent) : Prop where
  returned : headerFinish m h (some d.header) = .ok (m', e.header)
  frame : ∀ j ∉ e.rewritten, m'.get8 j = m.get8 j
  finished : Finished m' stop e.start (e :: d :: ds)

theorem HeaderType.ipProto_lt (type : HeaderType) : type.ipProto < 256 := by
  cases type <;> decide

theorem HeaderType.ethProto_lt (type : HeaderType) : type.ethProto < 65536 := by
  cases type <;> decide

theorem Announces.eq {h : Header} {e : Extent} (announces : Announces h e) :
    ∃ t, h = ⟨e.type, e.headerBytes, t, some e.start⟩ := by
  obtain ⟨type, headerBytes, ptr, -⟩ := announces
  exact ⟨h.totalBytes, by rw [← type, ← headerBytes, ← ptr]⟩

section Step

variable {m : Mem} {stop : Nat} {h : Header} {e d : Extent} {ds : List Extent}

theorem Finished.cons {m' : Mem} (inner : Finished m' stop e.inner (d :: ds))
    (wire : Wire m' stop (e.type.expect e.totalBytes) e.start (e :: d :: ds))
    (fields : FieldsAgreeAt m' e (some d))
    (check : e.type = .ipv4 → e.headerBytes = 20 ∧ ipv4Checksum m' e.start 20 = 0) : Finished m' stop e.start (e :: d :: ds) where
  wire x first := by
    cases first
    exact wire
  fields := ⟨fields, inner.fields⟩
  checks x member := by
    rcases List.mem_cons.mp member with rfl | inside
    · exact check
    · exact inner.checks x inside

theorem ipv4HeaderFinish_spec {ip t : Nat} (headerLen : ipv4HeaderLen m ip = 20)
    (whole : ipv4FragOff m ip % 0x4000 = 0) (admitted : d.type.IsIp ∨ d.type = .gre ∨ d.type.IsTransport)
    (ends : ip + (20 + d.totalBytes) = stop) (short : 20 + d.totalBytes ≤ 65535)
    (inner : Finished m stop (ip + 20) (d :: ds)) (behind : ∀ x ∈ d :: ds, ip + 20 ≤ x.start) :
    ∃ m', FinishesTo m m' stop ⟨.ipv4, 20, t, some ip⟩ ⟨.ipv4, ip, 20, 20 + d.totalBytes⟩ d ds := by
  have used : d.type ≠ .none := by rintro none; simp [none, HeaderType.IsIp, HeaderType.IsTransport] at admitted
  have small : u16 (20 + d.totalBytes) = 20 + d.totalBytes := Nat.mod_eq_of_lt (by omega)
  let filled := (m.putBe16 (ip + 2) (20 + d.totalBytes)).put8 (ip + 9) d.type.ipProto
  have frame (j : Nat) (kept : j ∉ [ip + 2, ip + 3, ip + 9, ip + 10, ip + 11]) :
      (setIpv4Check filled ip).get8 j = m.get8 j := by
    simp only [List.mem_cons, List.not_mem_nil, or_false, not_or] at kept
    rw [setIpv4Check_frame _ (by omega), get8_put8_ne _ _ (by omega), get8_putBe16_ne _ _ (by omega)]
  have flags : (setIpv4Check filled ip).get8 ip = m.get8 ip := frame ip (by simp)
  have headerLen' : ipv4HeaderLen (setIpv4Check filled ip) ip = 20 := by rw [ipv4HeaderLen, flags]; exact headerLen
  have fragOff : ipv4FragOff (setIpv4Check filled ip) ip = ipv4FragOff m ip :=
    be16_of_get8 (frame _ (by simp)) (frame _ (by simp))
  have totLen : ipv4TotLen (setIpv4Check filled ip) ip = 20 + d.totalBytes := by
    rw [ipv4TotLen, be16_of_get8 (setIpv4Check_frame filled (by omega)) (setIpv4Check_frame filled (by omega)),
      be16_put8_ne _ _ (by omega), be16_putBe16_self, Nat.mod_eq_of_lt (by omega)]
  have protocol : ipv4Protocol (setIpv4Check filled ip) ip = d.type.ipProto := by
    rw [ipv4Protocol, setIpv4Check_frame _ (by omega), get8_put8_self, Nat.mod_eq_of_lt d.type.ipProto_lt]
  have verified : ipv4Checksum (setIpv4Check filled ip) ip 20 = 0 := by
    have first : filled.get8 ip = m.get8 ip := by
      rw [get8_put8_ne _ _ (by omega), get8_putBe16_ne _ _ (by omega)]
    apply setIpv4Check_verifies
    rw [ipv4HeaderLen, first]
    exact headerLen
  have inner' : Finished (setIpv4Check filled ip) stop (ip + 20) (d :: ds) :=
    inner.congr behind fun j after => frame j (by simp; omega)
  refine ⟨setIpv4Check filled ip, ?_, frame, inner'.cons ?_ ?_ fun _ => ⟨rfl, verified⟩⟩
  · simp only [headerFinish, ipv4HeaderFinish, deref, ok_bind, headerTypeInfo, Extent.header, assertThat_ok used,
      run_pure, small]
    rfl
  · have chain := inner'.layer4 admitted
    have header : Ipv4Header (setIpv4Check filled ip) stop ip := ⟨by omega, by omega, by omega, by omega⟩
    rw [← protocol, show d.totalBytes = 20 + d.totalBytes - 20 by omega, ← totLen, ← headerLen'] at chain
    have wire := Wire.ipv4 header chain
    rw [headerLen', totLen] at wire
    exact wire
  · exact ⟨totLen, by rw [protocol]; rfl⟩

theorem ipv6HeaderFinish_spec {ip t : Nat} (admitted : d.type.IsIp ∨ d.type = .gre ∨ d.type.IsTransport)
    (ends : ip + (40 + d.totalBytes) = stop) (short : d.totalBytes ≤ 65535)
    (inner : Finished m stop (ip + 40) (d :: ds)) (behind : ∀ x ∈ d :: ds, ip + 40 ≤ x.start) :
    ∃ m', FinishesTo m m' stop ⟨.ipv6, 40, t, some ip⟩ ⟨.ipv6, ip, 40, 40 + d.totalBytes⟩ d ds := by
  have used : d.type ≠ .none := by rintro none; simp [none, HeaderType.IsIp, HeaderType.IsTransport] at admitted
  have small : u16 d.totalBytes = d.totalBytes := Nat.mod_eq_of_lt (by omega)
  let filled := (m.putBe16 (ip + 4) d.totalBytes).put8 (ip + 6) d.type.ipProto
  have frame (j : Nat) (kept : j ∉ [ip + 4, ip + 5, ip + 6]) : filled.get8 j = m.get8 j := by
    simp only [List.mem_cons, List.not_mem_nil, or_false, not_or] at kept
    rw [get8_put8_ne _ _ (by omega), get8_putBe16_ne _ _ (by omega)]
  have payloadLen : ipv6PayloadLen filled ip = d.totalBytes := by
    rw [ipv6PayloadLen, be16_put8_ne _ _ (by omega), be16_putBe16_self, Nat.mod_eq_of_lt (by omega)]
  have nextHeader : ipv6NextHeader filled ip = d.type.ipProto := by
    rw [ipv6NextHeader, get8_put8_self, Nat.mod_eq_of_lt d.type.ipProto_lt]
  have inner' : Finished filled stop (ip + 40) (d :: ds) :=
    inner.congr behind fun j after => frame j (by simp; omega)
  refine ⟨filled, ?_, frame, inner'.cons ?_ ?_ (by simp)⟩
  · have fits : d.totalBytes ≤ 0xffff := by omega
    simp only [headerFinish, ipv6HeaderFinish, deref, ok_bind, headerTypeInfo, Extent.header, assertThat_ok used,
      assertThat_ok fits, run_pure, small]
    rfl
  · have chain := inner'.layer4 admitted
    have header : Ipv6Header filled stop ip := ⟨by omega⟩
    rw [← nextHeader, ← payloadLen] at chain
    have wire := Wire.ipv6 header chain
    rw [payloadLen] at wire
    exact wire
  · exact ⟨by rw [payloadLen], by rw [nextHeader]; rfl⟩

theorem greHeaderFinish_spec {gre t : Nat} (version : greVersion m gre = 0) (direct : ¬greHasRouting m gre)
    (admitted : d.type.IsIp ∨ d.type = .mpls) (versioned : Versioned m d)
    (ends : gre + (greFlagsLen m gre + d.totalBytes) = stop)
    (inner : Finished m stop (gre + greFlagsLen m gre) (d :: ds))
    (behind : ∀ x ∈ d :: ds, gre + greFlagsLen m gre ≤ x.start) :
    ∃ m', FinishesTo m m' stop ⟨.gre, greFlagsLen m gre, t, some gre⟩
      ⟨.gre, gre, greFlagsLen m gre, greFlagsLen m gre + d.totalBytes⟩ d ds := by
  have used : d.type ≠ .none := by rintro none; simp [none, HeaderType.IsIp] at admitted
  have long := greFlagsLen_ge m gre
  let filled := m.putBe16 (gre + 2) d.type.ethProto
  have frame (j : Nat) (kept : j ∉ [gre + 2, gre + 3]) : filled.get8 j = m.get8 j := by
    simp only [List.mem_cons, List.not_mem_nil, or_false, not_or] at kept
    rw [get8_putBe16_ne _ _ (by omega)]
  have flags : filled.get8 gre = m.get8 gre := frame gre (by simp)
  have length := greFlagsLen_congr flags
  have proto : greProto filled gre = d.type.ethProto := by
    rw [greProto, be16_putBe16_self, Nat.mod_eq_of_lt d.type.ethProto_lt]
  have inner' : Finished filled stop (gre + greFlagsLen m gre) (d :: ds) :=
    inner.congr behind fun j after => frame j (by simp; omega)
  refine ⟨filled, ?_, frame, inner'.cons ?_ ?_ (by simp)⟩
  · simp only [headerFinish, greHeaderFinish, deref, ok_bind, headerTypeInfo, Extent.header, assertThat_ok used,
      greLen_ok version direct, run_pure]
    rfl
  · have after := behind d List.mem_cons_self
    have chain := inner'.etherType admitted (versioned.move rfl (frame _ (by simp; omega)))
    have header : GreHeader filled (greFlagsLen m gre + d.totalBytes) gre := by
      refine ⟨?_, (greHasRouting_congr flags).not.mpr direct, by omega⟩
      rw [greVersion, frame _ (by simp)]
      exact version
    rw [← proto, ← length] at chain
    have wire := Wire.gre header chain
    rw [length] at wire
    exact wire
  · exact ⟨length, by rw [proto]; rfl⟩

theorem mplsHeaderFinish_spec {mpls n t : Nat} (stack : LabelStack m mpls n) (isIp : d.type.IsIp)
    (versioned : Versioned m d) (ends : mpls + (4 * (n + 1) + d.totalBytes) = stop)
    (inner : Finished m stop (mpls + 4 * (n + 1)) (d :: ds)) :
    FinishesTo m m stop ⟨.mpls, 4 * (n + 1), t, some mpls⟩
      ⟨.mpls, mpls, 4 * (n + 1), 4 * (n + 1) + d.totalBytes⟩ d ds := by
  refine ⟨rfl, fun j _ => rfl, inner.cons ?_ ⟨n, rfl, stack⟩ (by simp)⟩
  have wire := Wire.mpls stack (inner.layer3 isIp versioned)
  rw [show stop - mpls = 4 * (n + 1) + d.totalBytes by omega] at wire
  exact wire

theorem headerFinish_spec (announces : Announces h e) (ready : Unfinished m e) (admits : e.type.Admits d.type)
    (versioned : ¬e.type.IsIp → Versioned m d) (short : e.Short) (ends : e.stop = stop) (innerEnds : d.stop = stop) (starts : d.start = e.inner)
    (inner : Finished m stop e.inner (d :: ds)) (behind : ∀ x ∈ d :: ds, e.inner ≤ x.start) :
    ∃ m', FinishesTo m m' stop h e d ds := by
  obtain ⟨t, rfl⟩ := announces.eq
  obtain ⟨type, start, headerBytes, totalBytes⟩ := e
  simp only [Extent.stop, Extent.inner] at ends innerEnds starts inner behind
  obtain rfl : totalBytes = headerBytes + d.totalBytes := by omega
  cases type <;> simp only [HeaderType.Admits, Unfinished, Extent.Short] at admits ready short
  case ipv4 =>
    obtain ⟨rfl, headerLen, whole⟩ := ready
    exact ipv4HeaderFinish_spec headerLen whole admits ends short inner behind
  case ipv6 =>
    obtain rfl := ready
    exact ipv6HeaderFinish_spec admits ends (by omega) inner behind
  case gre =>
    obtain ⟨rfl, version, direct⟩ := ready
    exact greHeaderFinish_spec version direct admits (versioned (by simp [HeaderType.IsIp])) ends inner behind
  case mpls =>
    obtain ⟨n, rfl, stack⟩ := ready
    exact ⟨m, mplsHeaderFinish_spec stack admits (versioned (by simp [HeaderType.IsIp])) ends inner⟩

end Step

section Run

variable {m : Mem} {stop pos : Nat} {es : List Extent}

theorem HeaderChain.behind (chain : HeaderChain m stop pos es) : ∀ x ∈ es, pos ≤ x.start := by
  induction chain with
  | transport => simp
  | @around e d es _ _ _ _ _ ih =>
    intro x member
    rcases List.mem_cons.mp member with rfl | inside
    · exact Nat.le_refl _
    · exact Nat.le_trans (Nat.le_add_right e.start e.headerBytes) (ih x inside)

theorem HeaderChain.head {d : Extent} {ds : List Extent} (chain : HeaderChain m stop pos (d :: ds)) :
    d.start = pos ∧ d.stop = stop := by
  cases chain with
  | transport _ ends => exact ⟨rfl, ends⟩
  | around _ ends => exact ⟨rfl, ends⟩

theorem Extent.rewritten_ge {e : Extent} {j : Nat} (member : j ∈ e.rewritten) : e.start ≤ j := by
  unfold Extent.rewritten at member
  split at member <;> simp at member <;> omega

theorem HeaderChain.rewritten_ge (chain : HeaderChain m stop pos es) {j : Nat}
    (member : j ∈ es.flatMap Extent.rewritten) : pos ≤ j := by
  obtain ⟨x, inside, rewritten⟩ := List.mem_flatMap.mp member
  exact Nat.le_trans (chain.behind x inside) (Extent.rewritten_ge rewritten)

theorem Extent.start_not_rewritten {e : Extent} : e.start ∉ e.rewritten := by
  unfold Extent.rewritten
  split <;> simp

theorem HeaderChain.start_not_rewritten {d : Extent} {ds : List Extent} (chain : HeaderChain m stop pos (d :: ds)) :
    d.start ∉ (d :: ds).flatMap Extent.rewritten := by
  rw [List.flatMap_cons, List.mem_append, not_or]
  refine ⟨Extent.start_not_rewritten, fun member => ?_⟩
  cases chain with
  | transport => simp at member
  | around _ _ ready _ inner =>
    have after := inner.rewritten_ge member
    have before := ready.start_lt
    omega

theorem finishHeaders_unused (m : Mem) (k : Nat) :
    finishHeaders m (List.replicate k Header.unused) = .ok (m, List.replicate k Header.unused) := by
  induction k with
  | zero => rfl
  | succ k ih => simp only [List.replicate_succ, finishHeaders, ih, ok_bind, Header.unused_type, if_true, run_pure]

theorem headerFinish_transport {h : Header} {next : Option Header} (type : h.type.IsTransport) :
    headerFinish m h next = .ok (m, h) := by
  rcases type with type | type | type | type <;> rw [headerFinish, type]

theorem HeaderType.IsTransport.expect {type : HeaderType} (transport : type.IsTransport) (bytes : Nat) :
    type.expect bytes = .layer4 type.ipProto bytes := by
  rcases transport with rfl | rfl | rfl | rfl <;> rfl

theorem Finished.transport {e : Extent} (type : e.type.IsTransport) (ready : Unfinished m e) :
    Finished m stop e.start [e] := by
  obtain ⟨kind, start, headerBytes, totalBytes⟩ := e
  have wire : Wire m stop (.layer4 kind.ipProto totalBytes) start [⟨kind, start, headerBytes, totalBytes⟩] ∧
      FieldsAgreeAt m ⟨kind, start, headerBytes, totalBytes⟩ none := by
    rcases type with rfl | rfl | rfl | rfl <;> simp only [Unfinished] at ready <;> obtain ⟨rfl, header⟩ := ready
    · exact ⟨.tcp header, rfl⟩
    · exact ⟨.udp header, header.agrees⟩
    · exact ⟨.icmpv4 header, trivial⟩
    · exact ⟨.icmpv6 header, trivial⟩
  obtain ⟨wire, fields⟩ := wire
  constructor
  · intro x first
    cases first
    rw [type.expect]
    exact wire
  · exact ⟨fields, trivial⟩
  · intro x member four
    rw [List.mem_singleton.mp member] at four
    rcases type with rfl | rfl | rfl | rfl <;> cases four

theorem finishHeaders_spec (chain : HeaderChain m stop pos es) {hs : List Header}
    (announced : List.Forall₂ Announces hs es) (short : ∀ e ∈ es, e.Short) (k : Nat) :
    ∃ m', finishHeaders m (hs ++ List.replicate k Header.unused) =
        .ok (m', es.map Extent.header ++ List.replicate k Header.unused) ∧
      (∀ j ∉ es.flatMap Extent.rewritten, m'.get8 j = m.get8 j) ∧ Finished m' stop pos es := by
  induction chain generalizing hs with
  | @transport e type ends ready =>
    obtain ⟨h, hs, announces, rest, rfl⟩ := List.forall₂_cons_right_iff.mp announced
    cases rest
    have header : h = e.header := by
      obtain ⟨t, rfl⟩ := announces.eq
      rw [show t = e.totalBytes from announces.total type]
      rfl
    have transport : h.type.IsTransport := announces.type ▸ type
    have used : h.type ≠ .none := by rintro none; simp [none, HeaderType.IsTransport] at transport
    refine ⟨m, ?_, fun _ _ => rfl, .transport type ready⟩
    simp only [List.cons_append, List.nil_append, finishHeaders, finishHeaders_unused, ok_bind, if_neg used,
      headerFinish_transport transport, run_pure]
    rw [header]
    rfl
  | @around e d es admits ends ready versioned inner ih =>
    obtain ⟨h, hs, announces, rest, rfl⟩ := List.forall₂_cons_right_iff.mp announced
    obtain ⟨m', returned, frame, finished⟩ := ih rest fun x inside => short x (List.mem_cons_of_mem e inside)
    obtain ⟨starts, innerEnds⟩ := inner.head
    have ready' : Unfinished m' e := by
      apply ready.congr
      intro j _ before
      apply frame
      intro member
      have := inner.rewritten_ge member
      omega
    have versioned' : ¬e.type.IsIp → Versioned m' d := by
      intro notIp
      exact (versioned notIp).move rfl (frame _ inner.start_not_rewritten)
    obtain ⟨m'', step⟩ := headerFinish_spec announces ready' admits versioned' (short e List.mem_cons_self) ends innerEnds starts
      finished inner.behind
    have used : h.type ≠ .none := by
      rw [announces.type]
      rintro none
      simp [none, HeaderType.Admits] at admits
    refine ⟨m'', ?_, ?_, step.finished⟩
    · simp only [List.cons_append, finishHeaders, returned, ok_bind, if_neg used, List.map_cons, List.head?_cons,
        step.returned, run_pure]
    · intro j kept
      rw [List.flatMap_cons, List.mem_append, not_or] at kept
      rw [step.frame j kept.1, frame j kept.2]

end Run

end TcpFuzz
