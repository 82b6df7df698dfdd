import TcpFuzz.Packet.Finish
import TcpFuzz.Packet.IcmpRoundTrip

/-! The order in which outer headers can be appended, and the headers of the packet that they are put around. -/

namespace TcpFuzz
open Bytes Mem

variable {m m' : Mem} {e d : Extent} {pos headerBytes j stop headroom : Nat} {es : List Extent} {type : HeaderType}
  {ipSrc ipDst : String} {inetPton : InetPton} {p : Packet}

/-! ### Outer packets -/

def IsStackBottom (entry : UInt32) : Prop := entry.toNat / 256 % 2 = 1

instance (entry : UInt32) : Decidable (IsStackBottom entry) := inferInstanceAs (Decidable (_ = _))

/-- GRE headers of version 0 without routing, and label stacks whose last entry is their bottom. -/
def OuterHeader.WellFormed : OuterHeader → Prop
  | .gre header => greVersion header.mem 0 = 0 ∧ ¬greHasRouting header.mem 0
  | .mpls stack => ∃ above bottom, stack = above ++ [bottom] ∧ (∀ entry ∈ above, ¬IsStackBottom entry) ∧
      IsStackBottom bottom
  | _ => True

/-- An encapsulation header that can be finished behind any header that admits it. -/
structure OuterReady (m : Mem) (e : Extent) : Prop where
  ready : Unfinished m e
  versioned : Versioned m e
  outer : ¬e.type.IsTransport

theorem OuterReady.congr (header : OuterReady m e)
    (same : ∀ j, e.start ≤ j → j < e.inner → m'.get8 j = m.get8 j) : OuterReady m' e := by
  refine ⟨header.ready.congr same, header.versioned.move rfl ?_, header.outer⟩
  exact same _ (Nat.le_refl _) header.ready.start_lt

theorem OuterReady.used (header : OuterReady m e) : e.type ≠ .none := by
  intro unused
  have ready := header.ready
  rw [Unfinished, unused] at ready
  exact ready

structure OuterPacket (p : Packet) (es : List Extent) : Prop where
  layout : Layout p (es.map Extent.header)
  l2HeaderBytes : p.l2HeaderBytes = 0
  contiguous : Contiguous 0 es
  ipBytes : p.ipBytes = (es.map Extent.headerBytes).sum
  ready : ∀ e ∈ es, OuterReady p.buffer e

theorem Contiguous.inner_le (contiguous : Contiguous pos es) :
    ∀ e ∈ es, e.inner ≤ pos + (es.map Extent.headerBytes).sum := by
  induction es generalizing pos with
  | nil => simp
  | cons d ds ih =>
    obtain ⟨rfl, rest⟩ := contiguous
    intro e member
    rw [List.map_cons, List.sum_cons]
    rcases List.mem_cons.mp member with rfl | inside
    · simp only [Extent.inner]
      omega
    · have := ih rest e inside
      simp only [Extent.inner] at this ⊢
      omega

theorem Contiguous.concat (contiguous : Contiguous pos es)
    (start : e.start = pos + (es.map Extent.headerBytes).sum) : Contiguous pos (es ++ [e]) := by
  induction es generalizing pos with
  | nil => exact ⟨by simpa using start, trivial⟩
  | cons d ds ih =>
    obtain ⟨rfl, rest⟩ := contiguous
    refine ⟨rfl, ih rest ?_⟩
    rw [start, List.map_cons, List.sum_cons, Extent.inner, Nat.add_assoc]

theorem Contiguous.forall_concat {n : Nat} {good : Mem → Extent → Prop} (contiguous : Contiguous 0 es)
    (length : n = (es.map Extent.headerBytes).sum) (old : ∀ e ∈ es, good m e) (new : good m' d)
    (keep : ∀ e, good m e → (∀ j < e.inner, j < n) → good m' e) : ∀ e ∈ es ++ [d], good m' e := by
  intro e member
  rcases List.mem_append.mp member with before | last
  · have inside := contiguous.inner_le e before
    exact keep e (old e before) fun j within => by omega
  · rw [List.mem_singleton.mp last]
    exact new

theorem Layout.appendExtent (layout : Layout p (es.map Extent.header)) (l2HeaderBytes : p.l2HeaderBytes = 0)
    (room : es.length < packetMaxHeaders) (used : type ≠ .none) (headerBytes : Nat) (m : Mem) :
    Layout { appended p type headerBytes 0 with buffer := m }
      ((es ++ [(⟨type, p.ipBytes, headerBytes, 0⟩ : Extent)]).map Extent.header) := by
  have grown := layout.append (by simpa using room) used headerBytes 0
  rw [l2HeaderBytes, Nat.zero_add] at grown
  rw [List.map_append]
  exact ⟨grown.table, grown.used⟩

theorem packetNew_outer (allocated : Mem) (n : Nat) : OuterPacket (packetNew allocated n) [] :=
  ⟨packetNew_layout allocated n, rfl, trivial, rfl, by simp⟩

section Append

variable {p q : Packet} {es : List Extent}

theorem OuterPacket.append (outer : OuterPacket p es) (room : es.length < packetMaxHeaders)
    (ready : OuterReady m ⟨type, p.ipBytes, headerBytes, 0⟩)
    (frame : ∀ j < p.ipBytes, m.get8 j = p.buffer.get8 j) :
    OuterPacket { appended p type headerBytes 0 with buffer := m } (es ++ [⟨type, p.ipBytes, headerBytes, 0⟩]) where
  layout := outer.layout.appendExtent outer.l2HeaderBytes room ready.used headerBytes m
  l2HeaderBytes := outer.l2HeaderBytes
  contiguous := outer.contiguous.concat (by rw [Nat.zero_add, ← outer.ipBytes])
  ipBytes := by simp [appended, outer.ipBytes]
  ready := outer.contiguous.forall_concat outer.ipBytes outer.ready ready fun e kept same =>
    kept.congr fun j _ within => frame j (same j within)

theorem appendStored_ok (outer : OuterPacket p es) {store : Mem → Nat → Run (Except String Mem)}
    (returned : appendStored p type headerBytes store = .ok (.ok q)) :
    ∃ m, store p.buffer p.ipBytes = .ok (.ok m) ∧ es.length < packetMaxHeaders ∧
      q = { appended p type headerBytes 0 with buffer := m } := by
  have count : packetHeaderCount p = es.length := by simp [outer.layout.count]
  have length : es.length ≤ packetMaxHeaders := by simpa using outer.layout.length_le
  rw [appendStored_eq, outer.l2HeaderBytes, Nat.zero_add] at returned
  split at returned
  · cases returned
  next fits =>
    obtain ⟨stored, run, done⟩ := run_bind_ok returned
    cases stored with
    | error e => cases done
    | ok m =>
      cases done
      exact ⟨m, run, by omega, rfl⟩

theorem storeAddresses_ok {name : String} {parse : String → Option (List UInt8)} {src dst : Nat}
    (stored : storeAddresses name parse m src dst ipSrc ipDst = .ok m') :
    ∃ srcIp dstIp, parse ipSrc = some srcIp ∧ parse ipDst = some dstIp ∧ m' = (m.write src srcIp).write dst dstIp := by
  unfold storeAddresses at stored
  split at stored
  · cases stored
  next srcIp srcFound =>
    split at stored
    · cases stored
    next dstIp dstFound =>
      cases stored
      exact ⟨srcIp, dstIp, srcFound, dstFound, rfl⟩

/-- An appended header is ready to be finished and leaves the bytes in front of it alone. -/
def Appends (p : Packet) (es : List Extent) (q : Packet) (type : HeaderType) : Prop :=
  ∃ headerBytes, OuterPacket q (es ++ [⟨type, p.ipBytes, headerBytes, 0⟩])

theorem storedIpHeader_ok (outer : OuterPacket p es) {family : AddressFamily} {name : String}
    {parse : String → Option (List UInt8)} {ipBytes tos ttl src dst : Nat} (fits : FitsIpHeader family ipBytes)
    (ordered : src ≤ dst) (returned : appendStored p type headerBytes (fun m ip => do
      let m ← setIpHeader m ip family ipBytes tos 0 ttl 0
      return storeAddresses name parse m (ip + src) (ip + dst) ipSrc ipDst) = .ok (.ok q)) :
    ∃ m, es.length < packetMaxHeaders ∧ q = { appended p type headerBytes 0 with buffer := m } ∧
      (∀ j < p.ipBytes + src, m.get8 j = (ipHeaderMem p.buffer p.ipBytes family ipBytes tos 0 ttl 0).get8 j) ∧
      ∀ j < p.ipBytes, m.get8 j = p.buffer.get8 j := by
  obtain ⟨m, stored, room, rfl⟩ := appendStored_ok outer returned
  rw [setIpHeader_eq _ _ fits, ok_bind, run_pure] at stored
  obtain ⟨srcIp, dstIp, -, -, rfl⟩ := storeAddresses_ok (Except.ok.inj stored)
  have frame (j : Nat) (before : j < p.ipBytes + src) :
      (((ipHeaderMem p.buffer p.ipBytes family ipBytes tos 0 ttl 0).write (p.ipBytes + src) srcIp).write
        (p.ipBytes + dst) dstIp).get8 j = (ipHeaderMem p.buffer p.ipBytes family ipBytes tos 0 ttl 0).get8 j := by
    rw [get8_write_ne _ _ (by omega), get8_write_ne _ _ (by omega)]
  refine ⟨_, room, rfl, frame, fun j before => ?_⟩
  rw [frame j (by omega), ipHeaderMem_frame _ _ _ _ _ _ _ _ (.inl before)]

theorem ipv4HeaderAppend_ok (outer : OuterPacket p es) {tos ttl : UInt8}
    (returned : ipv4HeaderAppend inetPton p ipSrc ipDst tos ttl = .ok (.ok q)) : Appends p es q .ipv4 := by
  have fits : FitsIpHeader .inet 0 := by simp [FitsIpHeader]
  obtain ⟨m, room, rfl, same, frame⟩ := storedIpHeader_ok outer fits (by decide) returned
  obtain ⟨version, headerLen, -, whole, -⟩ := ipHeaderMem_at p.buffer p.ipBytes .inet 0 tos.toNat 0 ttl.toNat 0 fits
    (by decide) tos.toNat_lt
  refine ⟨20, outer.append room ⟨?_, ⟨fun _ => ?_, by simp⟩, by simp [HeaderType.IsTransport]⟩ frame⟩
  · simp only [ipv4HeaderLen, ipv4FragOff, be16] at headerLen whole
    simp (disch := omega) only [Unfinished, ipv4HeaderLen, ipv4FragOff, be16, same]
    exact ⟨trivial, headerLen, by omega⟩
  · rw [ipVersion, same _ (by simp only; omega)]
    exact version

theorem ipv6HeaderAppend_ok (outer : OuterPacket p es)
    {tos hopLimit : UInt8} (returned : ipv6HeaderAppend inetPton p ipSrc ipDst tos hopLimit = .ok (.ok q)) :
    Appends p es q .ipv6 := by
  have fits : FitsIpHeader .inet6 40 := by simp [FitsIpHeader, u16]
  obtain ⟨m, room, rfl, same, frame⟩ := storedIpHeader_ok outer fits (by decide) returned
  have header := ipHeaderMem_at p.buffer p.ipBytes .inet6 40 tos.toNat 0 hopLimit.toNat 0 fits (by decide)
    tos.toNat_lt
  refine ⟨40, outer.append room ⟨rfl, ⟨by simp, fun _ => ?_⟩, by simp [HeaderType.IsTransport]⟩ frame⟩
  rw [ipVersion, same _ (by simp only; omega)]
  exact header.1

theorem greHeader_copied (m : Mem) (at_ : Nat) (header : Mem) :
    greVersion (m.copy at_ header 0 (greFlagsLen header 0)) at_ = greVersion header 0 ∧
      (greHasRouting (m.copy at_ header 0 (greFlagsLen header 0)) at_ ↔ greHasRouting header 0) ∧
      greFlagsLen (m.copy at_ header 0 (greFlagsLen header 0)) at_ = greFlagsLen header 0 := by
  have long := greFlagsLen_ge header 0
  have copied (j : Nat) (inside : j < greFlagsLen header 0) :
      (m.copy at_ header 0 (greFlagsLen header 0)).get8 (at_ + j) = header.get8 (0 + j) :=
    get8_copy_inside _ _ _ inside
  have flags := copied 0 (by omega)
  refine ⟨?_, greHasRouting_congr flags, greFlagsLen_congr flags⟩
  rw [greVersion, copied 1 (by omega)]
  rfl

theorem greHeaderAppend_ok (outer : OuterPacket p es) {gre : Gre} (wellFormed : (OuterHeader.gre gre).WellFormed)
    (returned : greHeaderAppend p gre = .ok (.ok q)) : Appends p es q .gre := by
  obtain ⟨version, direct⟩ := wellFormed
  rw [greHeaderAppend, greLen_ok version direct, ok_bind] at returned
  obtain ⟨m, stored, room, rfl⟩ := appendStored_ok outer returned
  obtain rfl := Except.ok.inj (Except.ok.inj stored)
  obtain ⟨sameVersion, routing, length⟩ := greHeader_copied p.buffer p.ipBytes gre.mem
  refine ⟨greFlagsLen gre.mem 0,
    outer.append room ⟨?_, by simp [Versioned], by simp [HeaderType.IsTransport]⟩ fun j before => ?_⟩
  · exact ⟨length.symm, sameVersion.trans version, routing.not.mpr direct⟩
  · rw [get8_copy_ne _ _ _ (.inl before)]

theorem putStack_frame (m : Mem) (stack : List UInt32) {first : Nat} (before : j < first) :
    (putStack m first stack).get8 j = m.get8 j := by
  induction stack generalizing m first with
  | nil => rfl
  | cons entry stack ih => rw [putStack, ih _ (by omega), get8_putBe32_ne _ _ (by omega)]

theorem putStack_entry (m : Mem) (stack : List UInt32) (first : Nat) {k : Nat} (inside : k < stack.length) :
    (putStack m first stack).be32 (first + 4 * k) = stack[k].toNat := by
  induction stack generalizing m first k with
  | nil => cases inside
  | cons entry stack ih =>
    cases k with
    | zero =>
      have frame := fun j (before : j < first + 4) => putStack_frame (m.putBe32 first entry.toNat) stack before
      have kept : (putStack (m.putBe32 first entry.toNat) (first + 4) stack).be32 first =
          (m.putBe32 first entry.toNat).be32 first :=
        be32_of_be16 (be16_of_get8 (frame _ (by omega)) (frame _ (by omega)))
          (be16_of_get8 (frame _ (by omega)) (frame _ (by omega)))
      rw [putStack, show first + 4 * 0 = first by omega, kept, be32_putBe32_self, Nat.mod_eq_of_lt entry.toNat_lt]
      rfl
    | succ k =>
      rw [putStack, show first + 4 * (k + 1) = first + 4 + 4 * k by omega]
      exact ih _ _ (by simpa using inside)

theorem mplsHeaderAppend_ok (outer : OuterPacket p es) {stack : List UInt32}
    (wellFormed : (OuterHeader.mpls stack).WellFormed) (returned : mplsHeaderAppend p stack = .ok (.ok q)) :
    Appends p es q .mpls := by
  obtain ⟨m, stored, room, rfl⟩ := appendStored_ok outer returned
  obtain rfl := Except.ok.inj (Except.ok.inj stored)
  obtain ⟨above, bottom, rfl, notBottom, isBottom⟩ := wellFormed
  refine ⟨_, outer.append room ⟨?_, by simp [Versioned], by simp [HeaderType.IsTransport]⟩
    fun j before => putStack_frame _ _ before⟩
  have entry (k : Nat) (inside : k < (above ++ [bottom]).length) :=
    putStack_entry p.buffer (above ++ [bottom]) p.ipBytes inside
  refine ⟨above.length, by simp only [List.length_append, List.length_singleton]; omega, fun k below => ?_, ?_⟩
  · rw [mplsEntryStack, entry k (by simp; omega), List.getElem_append_left below]
    exact notBottom _ (List.getElem_mem below)
  · rw [mplsEntryStack, entry above.length (by simp)]
    simpa [IsStackBottom] using isBottom

theorem OuterHeader.append_ok (outer : OuterPacket p es) {header : OuterHeader}
    (wellFormed : header.WellFormed) (returned : header.append inetPton p = .ok (.ok q)) :
    Appends p es q header.type := by
  cases header with
  | ipv4 => exact ipv4HeaderAppend_ok outer returned
  | ipv6 => exact ipv6HeaderAppend_ok outer returned
  | gre => exact greHeaderAppend_ok outer wellFormed returned
  | mpls => exact mplsHeaderAppend_ok outer wellFormed returned

theorem appendHeaders_ok (outer : OuterPacket p es) {chain : List OuterHeader}
    (wellFormed : ∀ header ∈ chain, header.WellFormed) (returned : appendHeaders inetPton p chain = .ok (.ok q)) :
    ∃ added, OuterPacket q (es ++ added) ∧ added.map Extent.type = chain.map OuterHeader.type := by
  induction chain generalizing p es with
  | nil =>
    cases returned
    exact ⟨[], by simpa using outer, rfl⟩
  | cons header chain ih =>
    obtain ⟨here, rest⟩ := List.forall_mem_cons.mp wellFormed
    rw [appendHeaders] at returned
    cases step : header.append inetPton p with
    | error f => rw [step] at returned; cases returned
    | ok result =>
      rw [step, ok_bind] at returned
      cases result with
      | error e => cases returned
      | ok next =>
        obtain ⟨headerBytes, grown⟩ := OuterHeader.append_ok outer here step
        obtain ⟨added, built, types⟩ := ih grown rest returned
        refine ⟨⟨header.type, p.ipBytes, headerBytes, 0⟩ :: added, ?_, by rw [List.map_cons, types, List.map_cons]⟩
        rw [List.append_assoc, List.singleton_append] at built
        exact built

end Append

/-! ### Inner packets -/

def Expect.Heads : Expect → HeaderType → Prop
  | .ipv4, type => type = .ipv4
  | .ipv6, type => type = .ipv6
  | .mpls, type => type = .mpls
  | .layer3, type => type.IsIp
  | .etherType _, type => type.IsIp ∨ type = .mpls
  | .layer4 _ _, type => type.IsIp ∨ type = .gre ∨ type.IsTransport

section Chain

variable {m : Mem} {stop pos : Nat} {x : Expect} {es : List Extent}

theorem Wire.heads (wire : Wire m stop x pos es) : ∃ d ds, es = d :: ds ∧ x.Heads d.type := by
  induction wire with
  | ipv4 | ipv6 | mpls => exact ⟨_, _, rfl, rfl⟩
  | layer3Ipv4 _ _ _ ih =>
    obtain ⟨d, ds, rfl, type⟩ := ih
    exact ⟨d, ds, rfl, .inl type⟩
  | layer3Ipv6 _ _ ih | etherMpls _ _ ih =>
    obtain ⟨d, ds, rfl, type⟩ := ih
    exact ⟨d, ds, rfl, .inr type⟩
  | etherIpv4 _ _ _ ih | ipip _ ih =>
    obtain ⟨d, ds, rfl, type⟩ := ih
    exact ⟨d, ds, rfl, .inl (.inl type)⟩
  | etherIpv6 _ _ ih | ip6 _ ih =>
    obtain ⟨d, ds, rfl, type⟩ := ih
    exact ⟨d, ds, rfl, .inl (.inr type)⟩
  | tcp | udp | icmpv4 | icmpv6 => exact ⟨_, _, rfl, .inr (.inr (by simp [HeaderType.IsTransport]))⟩
  | gre => exact ⟨_, _, rfl, .inr (.inl rfl)⟩

def Expect.AsksVersion : Expect → Prop
  | .layer3 | .etherType _ => True
  | _ => False

theorem Wire.versioned (wire : Wire m stop x pos es) (asks : x.AsksVersion) {ds : List Extent}
    (head : es = d :: ds) : Versioned m d := by
  cases wire with
  | layer3Ipv4 _ version next | etherIpv4 _ version next =>
    subst head
    cases next with
    | ipv4 => exact ⟨fun _ => version, by simp⟩
  | layer3Ipv6 version next | etherIpv6 version next =>
    subst head
    cases next with
    | ipv6 => exact ⟨by simp, fun _ => version⟩
  | etherMpls _ next =>
    subst head
    cases next with
    | mpls => simp [Versioned]
  | _ => exact asks.elim

/-- An IPv4 header with options is the one header of a chain that cannot be finished again. -/
theorem Wire.unfinished (wire : Wire m stop x pos es) :
    ∀ e ∈ es, (e.type = .ipv4 → e.headerBytes = 20) → Unfinished m e := by
  induction wire with
  | ipv4 header _ ih =>
    exact List.forall_mem_cons.mpr ⟨fun plain => ⟨plain rfl, plain rfl, header.whole⟩, ih⟩
  | ipv6 _ _ ih => exact List.forall_mem_cons.mpr ⟨fun _ => rfl, ih⟩
  | mpls stack _ ih => exact List.forall_mem_cons.mpr ⟨fun _ => ⟨_, rfl, stack⟩, ih⟩
  | gre header _ ih => exact List.forall_mem_cons.mpr ⟨fun _ => ⟨rfl, header.version, header.direct⟩, ih⟩
  | layer3Ipv4 _ _ _ ih | layer3Ipv6 _ _ ih | etherIpv4 _ _ _ ih | etherIpv6 _ _ ih | etherMpls _ _ ih
  | ipip _ ih | ip6 _ ih => exact ih
  | tcp header | udp header | icmpv4 header | icmpv6 header => exact List.forall_mem_singleton.mpr fun _ => ⟨rfl, header⟩

def Extent.endAt (stop : Nat) (e : Extent) : Extent := { e with totalBytes := stop - e.start }

theorem Extent.endAt_eq (ends : e.stop = stop) : e.endAt stop = e := by
  subst ends
  simp [Extent.endAt, Extent.stop]

/-- A header of `m` that can be finished in `m'`, with contents that end at `stop`. -/
structure Refinishes (m m' : Mem) (stop : Nat) (e : Extent) : Prop where
  ready : Unfinished m' (e.endAt stop)
  inside : e.start ≤ stop
  first : m'.get8 e.start = m.get8 e.start

/-- The headers of a chain on the wire can be finished together, also where their contents end
elsewhere. -/
theorem Wire.headerChain (wire : Wire m stop x pos es) {stop' : Nat}
    (headers : ∀ e ∈ es, Refinishes m m' stop' e) : HeaderChain m' stop' pos (es.map (Extent.endAt stop')) := by
  have around {e : Extent} {ds : List Extent} {y : Expect} (headers : ∀ d ∈ e :: ds, Refinishes m m' stop' d)
      (next : Wire m stop y e.inner ds)
      (inner : (∀ d ∈ ds, Refinishes m m' stop' d) → HeaderChain m' stop' e.inner (ds.map (Extent.endAt stop')))
      (admits : ∀ type, y.Heads type → e.type.Admits type) (asks : ¬e.type.IsIp → y.AsksVersion) :
      HeaderChain m' stop' e.start ((e :: ds).map (Extent.endAt stop')) := by
    obtain ⟨here, rest⟩ := List.forall_mem_cons.mp headers
    have chain := inner rest
    obtain ⟨d, ds, rfl, type⟩ := next.heads
    have versioned (notIp : ¬e.type.IsIp) : Versioned m' (d.endAt stop') :=
      (next.versioned (asks notIp) rfl).move rfl (rest d List.mem_cons_self).first
    exact .around (e := e.endAt stop') (admits _ type) (Nat.add_sub_cancel' here.inside) here.ready versioned chain
  have transport {e : Extent} (headers : ∀ d ∈ [e], Refinishes m m' stop' d) (type : e.type.IsTransport) :
      HeaderChain m' stop' e.start ([e].map (Extent.endAt stop')) := by
    have here := headers e List.mem_cons_self
    exact .transport (e := e.endAt stop') type (Nat.add_sub_cancel' here.inside) here.ready
  induction wire with
  | ipv4 header next ih =>
    exact around headers next ih (fun type admitted => admitted) (fun notIp => (notIp (.inl rfl)).elim)
  | ipv6 header next ih =>
    exact around headers next ih (fun type admitted => admitted) (fun notIp => (notIp (.inr rfl)).elim)
  | mpls _ next ih | gre _ next ih => exact around headers next ih (fun type admitted => admitted) (fun _ => trivial)
  | layer3Ipv4 _ _ _ ih | layer3Ipv6 _ _ ih | etherIpv4 _ _ _ ih | etherIpv6 _ _ ih | etherMpls _ _ ih
  | ipip _ ih | ip6 _ ih => exact ih headers
  | tcp => exact transport headers (.inl rfl)
  | udp => exact transport headers (.inr (.inl rfl))
  | icmpv4 => exact transport headers (.inr (.inr (.inl rfl)))
  | icmpv6 => exact transport headers (.inr (.inr (.inr rfl)))

end Chain

structure InnerPacket (p : Packet) (es : List Extent) : Prop where
  layout : Layout p (es.map Extent.header)
  chain : HeaderChain p.buffer p.ipBytes 0 es
  versioned : ∀ d, es.head? = some d → Versioned p.buffer d

theorem Layout.extents_eq {q : Packet} {ds : List Extent} (layout : Layout p (es.map Extent.header))
    (layout' : Layout q (ds.map Extent.header)) (same : q.headers = p.headers) : ds = es := by
  rw [← extents_of_layout layout, ← extents_of_layout layout', extents, extents, same]

theorem ParsesBack.inner {family : AddressFamily} {total payload : Nat}
    (parses : ParsesBack p payload) (transport : type.IsTransport)
    (layout : Layout p [⟨family.headerType, ipHeaderMinLen family, u16 p.ipBytes, some 0⟩,
      ⟨type, headerBytes, total, some (ipHeaderMinLen family)⟩])
    (length : p.ipBytes = ipHeaderMinLen family + total) (short : p.ipBytes ≤ 65535) :
    InnerPacket p [⟨family.headerType, 0, ipHeaderMinLen family, p.ipBytes⟩,
      ⟨type, ipHeaderMinLen family, headerBytes, total⟩] := by
  have small : u16 p.ipBytes = p.ipBytes := Nat.mod_eq_of_lt (by omega)
  rw [small] at layout
  obtain ⟨q, parsed, same, -⟩ := parses
  have fresh := packetNew_fresh p.buffer p.ipBytes
  obtain ⟨es, wire, fits, rfl⟩ := (parsePacket_ok_iff fresh (Nat.le_refl p.ipBytes)).mp parsed
  have data := recorded_metadata fresh ⟨rfl, rfl, rfl, rfl, rfl, rfl⟩ wire fits
  have list : es = [⟨family.headerType, 0, ipHeaderMinLen family, p.ipBytes⟩,
      ⟨type, ipHeaderMinLen family, headerBytes, total⟩] := Layout.extents_eq layout data.layout same
  have plain : ∀ e ∈ es, e.type = .ipv4 → e.headerBytes = 20 := by
    intro e member four
    rw [list] at member
    rcases List.mem_pair.mp member with rfl | rfl
    · cases family with
      | inet => rfl
      | inet6 => cases four
    · rcases transport with rfl | rfl | rfl | rfl <;> cases four
  have ends : ∀ e ∈ es, e.stop = p.ipBytes := by
    intro e member
    rw [list] at member
    rcases List.mem_pair.mp member with rfl | rfl <;> simp only [Extent.stop] <;> omega
  have chain := wire.2.headerChain fun e member => by
    have here := Extent.endAt_eq (ends e member)
    exact ⟨here ▸ wire.2.unfinished e member (plain e member), ends e member ▸ Nat.le_add_right _ _, rfl⟩
  rw [List.map_congr_left fun e member => Extent.endAt_eq (ends e member), List.map_id'] at chain
  rw [← list]
  refine ⟨list ▸ layout, chain, fun d head => ?_⟩
  obtain ⟨rest, rfl⟩ := List.head?_eq_some_iff.mp head
  have outermost : Wire p.buffer p.ipBytes .layer3 0 _ := wire.2
  exact outermost.versioned trivial rfl

theorem BuilderCall.run_inner {call : BuilderCall} {allocated : Mem}
    (returned : call.run allocated = .ok (.ok p)) (short : p.ipBytes ≤ 65535) :
    ∃ ip transport, InnerPacket p [ip, transport] ∧ ip.type = call.family.headerType := by
  obtain ⟨type, headerBytes, total, built⟩ := BuilderCall.run_returns returned
  obtain ⟨payload, parses⟩ := built.parses short
  exact ⟨_, _, parses.inner built.transport built.layout built.length short, rfl⟩

end TcpFuzz
