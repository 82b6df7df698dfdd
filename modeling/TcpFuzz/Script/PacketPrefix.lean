import TcpFuzz.Packet.Encapsulated
import TcpFuzz.Packet.GreHeader
import TcpFuzz.Script.Grammar

/-! A packet specification may put IPv4, IPv6, GRE and MPLS headers in front of its packet. Appending too many is
reported, putting them in front is only asserted: for which prefixes the parser survives. -/

namespace TcpFuzz
open Bytes Mem

variable {m : Mem} {e ip : Extent} {es : List Extent} {header : OuterHeader} {chain : List OuterHeader} {p : Packet}
  {call : BuilderCall}

def Extent.Sound (m : Mem) (e : Extent) : Prop :=
  e.type = .ipv4 ∧ e.headerBytes = 20 ∨ e.type = .ipv6 ∧ e.headerBytes = 40 ∨
    (e.type = .gre ∧ greVersion m e.start = 0 ∧ ¬greHasRouting m e.start ∧ e.headerBytes = greFlagsLen m e.start) ∨
    e.type = .mpls

theorem Extent.Sound.congr {m' : Mem} (sound : e.Sound m)
    (same : ∀ j, e.start ≤ j → j < e.inner → m'.get8 j = m.get8 j) : e.Sound m' := by
  rcases sound with ipv4 | ipv6 | ⟨gre, version, direct, length⟩ | mpls
  · exact .inl ipv4
  · exact .inr (.inl ipv6)
  · have long := greFlagsLen_ge m e.start
    have first := same e.start (Nat.le_refl _) (by rw [Extent.inner]; omega)
    have second := same (e.start + 1) (by omega) (by rw [Extent.inner]; omega)
    refine .inr (.inr (.inl ⟨gre, ?_, (greHasRouting_congr first).not.mpr direct, ?_⟩))
    · rw [greVersion, second]
      exact version
    · rw [greFlagsLen_congr first]
      exact length
  · exact .inr (.inr (.inr mpls))

theorem Extent.Sound.of_family {family : AddressFamily} (type : e.type = family.headerType)
    (length : e.headerBytes = ipHeaderMinLen family) : e.Sound m := by
  cases family with
  | inet => exact .inl ⟨type, length⟩
  | inet6 => exact .inr (.inl ⟨type, length⟩)

theorem Extent.Sound.type_ne_none (sound : e.Sound m) : e.type ≠ .none := by
  rcases sound with ⟨type, -⟩ | ⟨type, -⟩ | ⟨type, -⟩ | type <;> simp [type]

theorem headerTypeInfo_ok {type : HeaderType} (used : type ≠ .none) : headerTypeInfo type = .ok type := by
  rw [headerTypeInfo, assertThat_ok used]
  rfl

theorem headerFinish_total {next : Header} (sound : e.Sound m) (used : next.type ≠ .none)
    (short : e.type = .ipv6 → next.totalBytes ≤ 65535) :
    ∃ m' h, headerFinish m e.header (some next) = .ok (m', h) ∧ h.type = e.type ∧
      h.ptr = some e.start ∧ h.totalBytes = e.headerBytes + next.totalBytes ∧
      ∀ j, j < e.start ∨ e.inner ≤ j → m'.get8 j = m.get8 j := by
  rw [Extent.inner]
  have ptr : deref e.header.ptr = .ok e.start := rfl
  have inner : deref (some next) = .ok next := rfl
  rcases sound with ⟨type, length⟩ | ⟨type, length⟩ | ⟨type, version, direct, length⟩ | type
  · have kind : e.header.type = .ipv4 := type
    simp only [headerFinish, kind, ipv4HeaderFinish, ptr, inner, ok_bind, headerTypeInfo_ok used, run_pure]
    refine ⟨_, _, rfl, type.symm, rfl, by rw [length], fun j outside => ?_⟩
    rw [setIpv4Check_frame _ (by omega), get8_put8_ne _ _ (by omega), get8_putBe16_ne _ _ (by omega)]
  · have kind : e.header.type = .ipv6 := type
    simp only [headerFinish, kind, ipv6HeaderFinish, ptr, inner, ok_bind, assertThat_ok (short type),
      headerTypeInfo_ok used, run_pure]
    refine ⟨_, _, rfl, type.symm, rfl, by rw [length], fun j outside => ?_⟩
    rw [get8_put8_ne _ _ (by omega), get8_putBe16_ne _ _ (by omega)]
  · have kind : e.header.type = .gre := type
    have long := greFlagsLen_ge m e.start
    simp only [headerFinish, kind, greHeaderFinish, ptr, inner, ok_bind, greLen_ok version direct,
      headerTypeInfo_ok used, run_pure]
    refine ⟨_, _, rfl, type.symm, rfl, by rw [length], fun j outside => ?_⟩
    rw [get8_putBe16_ne _ _ (by omega)]
  · have kind : e.header.type = .mpls := type
    simp only [headerFinish, kind, mplsHeaderFinish, inner, ok_bind, run_pure]
    exact ⟨_, _, rfl, type.symm, rfl, rfl, fun _ _ => rfl⟩

theorem headerFinish_long {next : Header} (type : e.type = .ipv6) (long : 65535 < next.totalBytes) :
    headerFinish m e.header (some next) = .error .assertion := by
  have kind : e.header.type = .ipv6 := type
  have tooLong : ¬next.totalBytes ≤ 0xffff := by omega
  have fails : assertThat (next.totalBytes ≤ 0xffff) = .error .assertion := if_neg tooLong
  have ptr : deref e.header.ptr = .ok e.start := rfl
  have inner : deref (some next) = .ok next := rfl
  simp only [headerFinish, kind, ipv6HeaderFinish, ptr, inner, ok_bind, fails]
  rfl

/-- Behind each IPv6 header there are no more bytes than its length field can say. -/
def Countable (total : Nat) : List Extent → Prop
  | [] => True
  | e :: es => (e.type = .ipv6 → (es.map Extent.headerBytes).sum + total ≤ 65535) ∧ Countable total es

/-- Finishing encapsulation headers around a transport header fails exactly at an IPv6 header. -/
theorem finishHeaders_outcome {pos k : Nat} {t : Header} (transport : t.type.IsTransport)
    (contiguous : Contiguous pos es) (sound : ∀ e ∈ es, e.Sound m) :
    (Countable t.totalBytes es → ∃ m' h rest,
      finishHeaders m (es.map Extent.header ++ t :: List.replicate k .unused) = .ok (m', h :: rest) ∧ h.type ≠ .none ∧
        h.totalBytes = (es.map Extent.headerBytes).sum + t.totalBytes ∧ ∀ j < pos, m'.get8 j = m.get8 j) ∧
    (¬Countable t.totalBytes es →
      finishHeaders m (es.map Extent.header ++ t :: List.replicate k .unused) = .error .assertion) := by
  have used : t.type ≠ .none := by
    rcases transport with type | type | type | type <;> simp [type]
  induction es generalizing pos with
  | nil =>
    constructor
    · intro _
      refine ⟨m, t, List.replicate k .unused, ?_, used, by simp, fun _ _ => rfl⟩
      simp only [List.map_nil, List.nil_append, finishHeaders, finishHeaders_unused, ok_bind, if_neg used,
        headerFinish_transport transport, run_pure]
    · intro never
      exact absurd trivial never
  | cons e es ih =>
    obtain ⟨start, rest⟩ := contiguous
    have here := sound e (.head _)
    obtain ⟨finishes, fails⟩ := ih rest fun d member => sound d (.tail _ member)
    have kind : ¬e.header.type = .none := here.type_ne_none
    simp only [List.map_cons, List.cons_append, finishHeaders]
    by_cases inner : Countable t.totalBytes es
    · obtain ⟨m', h, later, ran, nextUsed, total, frame⟩ := finishes inner
      have still : e.Sound m' := here.congr fun j _ inside => frame j inside
      simp only [ran, ok_bind, if_neg kind, List.head?_cons]
      constructor
      · rintro ⟨short, -⟩
        obtain ⟨m'', h', finished, type, -, sum, kept⟩ := headerFinish_total still nextUsed fun ipv6 => by
          rw [total]
          exact short ipv6
        refine ⟨m'', h', h :: later, by rw [finished]; rfl, type ▸ here.type_ne_none, ?_, fun j before => ?_⟩
        · rw [sum, total, List.sum_cons, Nat.add_assoc]
        · rw [kept j (.inl (by omega)), frame j (by rw [Extent.inner]; omega)]
      · intro long
        have ipv6 : e.type = .ipv6 ∧ 65535 < h.totalBytes := by
          by_contra neither
          refine long ⟨fun type => ?_, inner⟩
          rw [total] at neither
          by_contra tooLong
          exact neither ⟨type, by omega⟩
        rw [headerFinish_long ipv6.1 ipv6.2]
        rfl
    · constructor
      · rintro ⟨-, countable⟩
        exact absurd countable inner
      · intro _
        rw [fails inner]
        rfl

namespace OuterHeader

def length : OuterHeader → Nat
  | ipv4 .. => 20
  | ipv6 .. => 40
  | gre header => greFlagsLen header.mem 0
  | mpls stack => stack.length * 4

def Supported : OuterHeader → Prop
  | gre header => greVersion header.mem 0 = 0 ∧ ¬greHasRouting header.mem 0
  | _ => True

instance (header : OuterHeader) : Decidable header.Supported := by
  cases header <;> unfold Supported <;> infer_instance

def Addressed (inetPton : InetPton) : OuterHeader → Prop
  | ipv4 ipSrc ipDst _ _ => (inetPton.inet ipSrc).isSome ∧ (inetPton.inet ipDst).isSome
  | ipv6 ipSrc ipDst _ _ => (inetPton.inet6 ipSrc).isSome ∧ (inetPton.inet6 ipDst).isSome
  | _ => True

end OuterHeader

structure PrefixPacket (p : Packet) (es : List Extent) : Prop where
  layout : Layout p (es.map Extent.header)
  l2HeaderBytes : p.l2HeaderBytes = 0
  bufferBytes : p.bufferBytes = packetMaxHeaderBytes
  contiguous : Contiguous 0 es
  ipBytes : p.ipBytes = (es.map Extent.headerBytes).sum
  sound : ∀ e ∈ es, e.Sound p.buffer

section Append

variable {p q : Packet} {es : List Extent} {inetPton : InetPton}

theorem PrefixPacket.append (grown : PrefixPacket p es) (room : es.length < packetMaxHeaders) {type : HeaderType}
    {headerBytes : Nat} (sound : (⟨type, p.ipBytes, headerBytes, 0⟩ : Extent).Sound m)
    (frame : ∀ j < p.ipBytes, m.get8 j = p.buffer.get8 j) :
    PrefixPacket { appended p type headerBytes 0 with buffer := m } (es ++ [⟨type, p.ipBytes, headerBytes, 0⟩]) where
  layout := grown.layout.appendExtent grown.l2HeaderBytes room sound.type_ne_none headerBytes m
  l2HeaderBytes := grown.l2HeaderBytes
  bufferBytes := grown.bufferBytes
  contiguous := grown.contiguous.concat (by rw [Nat.zero_add, ← grown.ipBytes])
  ipBytes := by simp [appended, grown.ipBytes]
  sound := grown.contiguous.forall_concat grown.ipBytes grown.sound sound fun e kept same =>
    kept.congr fun j _ within => frame j (same j within)

def HeaderRoom (p : Packet) (es : List Extent) (header : OuterHeader) : Prop :=
  es.length < packetMaxHeaders ∧ p.ipBytes + header.length ≤ packetMaxHeaderBytes

theorem PrefixPacket.appendStored_full (grown : PrefixPacket p es) (full : ¬HeaderRoom p es header)
    (store : Mem → Nat → Run (Except String Mem)) :
    appendStored p header.type header.length store = .ok (.error "too many headers") := by
  have count : packetHeaderCount p = es.length := by simp [grown.layout.count]
  have bound : es.length ≤ packetMaxHeaders := by simpa using grown.layout.length_le
  rw [appendStored_eq, if_pos]
  rw [count, grown.bufferBytes]
  unfold HeaderRoom at full
  omega

theorem PrefixPacket.appendStored_room (grown : PrefixPacket p es) (room : HeaderRoom p es header)
    (store : Mem → Nat → Run (Except String Mem)) :
    appendStored p header.type header.length store =
      (store p.buffer p.ipBytes >>= fun stored =>
        .ok (stored.map fun buffer => { appended p header.type header.length 0 with buffer })) := by
  have count : packetHeaderCount p = es.length := by simp [grown.layout.count]
  rw [appendStored_eq, if_neg, grown.l2HeaderBytes, Nat.zero_add]
  rw [count, grown.bufferBytes]
  unfold HeaderRoom at room
  omega

inductive AppendOutcome (inetPton : InetPton) (p : Packet) (es : List Extent) (header : OuterHeader) :
    Run (Except String Packet) → Prop where
  | stops : ¬header.Supported → AppendOutcome inetPton p es header (.error .assertion)
  | refused (e : String) : header.Supported → ¬(HeaderRoom p es header ∧ header.Addressed inetPton) →
      AppendOutcome inetPton p es header (.ok (.error e))
  | appended (q : Packet) : header.Supported → HeaderRoom p es header → header.Addressed inetPton →
      PrefixPacket q (es ++ [⟨header.type, p.ipBytes, header.length, 0⟩]) →
      AppendOutcome inetPton p es header (.ok (.ok q))

theorem storeAddresses_cases (name : String) (parse : String → Option (List UInt8)) (m : Mem) (src dst : Nat)
    (ipSrc ipDst : String) :
    ((parse ipSrc).isSome ∧ (parse ipDst).isSome ∧ ∃ srcIp dstIp,
      storeAddresses name parse m src dst ipSrc ipDst = .ok ((m.write src srcIp).write dst dstIp)) ∨
    (¬((parse ipSrc).isSome ∧ (parse ipDst).isSome) ∧
      ∃ e, storeAddresses name parse m src dst ipSrc ipDst = .error e) := by
  unfold storeAddresses
  cases parse ipSrc with
  | none => exact .inr ⟨by simp, _, rfl⟩
  | some srcIp =>
    cases parse ipDst with
    | none => exact .inr ⟨by simp, _, rfl⟩
    | some dstIp => exact .inl ⟨rfl, rfl, srcIp, dstIp, rfl⟩

theorem ipAppend_outcome (grown : PrefixPacket p es) (header : OuterHeader) (supported : header.Supported)
    {family : AddressFamily} {name : String} {parse : String → Option (List UInt8)} {ipSrc ipDst : String}
    {ipBytes tos ttl src dst : Nat} (fits : FitsIpHeader family ipBytes)
    (addressed : header.Addressed inetPton ↔ (parse ipSrc).isSome ∧ (parse ipDst).isSome)
    (sound : ∀ m, (⟨header.type, p.ipBytes, header.length, 0⟩ : Extent).Sound m) :
    AppendOutcome inetPton p es header (appendStored p header.type header.length fun m ip => do
      let m ← setIpHeader m ip family ipBytes tos 0 ttl 0
      return storeAddresses name parse m (ip + src) (ip + dst) ipSrc ipDst) := by
  by_cases room : HeaderRoom p es header
  swap
  · rw [grown.appendStored_full room]
    exact .refused _ supported fun both => room both.1
  rw [grown.appendStored_room room, setIpHeader_eq _ _ fits, ok_bind, run_pure, ok_bind]
  rcases storeAddresses_cases name parse (ipHeaderMem p.buffer p.ipBytes family ipBytes tos 0 ttl 0) (p.ipBytes + src)
    (p.ipBytes + dst) ipSrc ipDst with ⟨srcFound, dstFound, srcIp, dstIp, stored⟩ | ⟨missing, e, failed⟩
  · rw [stored]
    refine .appended _ supported room (addressed.mpr ⟨srcFound, dstFound⟩) (grown.append room.1 (sound _) fun j before => ?_)
    rw [get8_write_ne _ _ (by omega), get8_write_ne _ _ (by omega), ipHeaderMem_frame _ _ _ _ _ _ _ _ (.inl before)]
  · rw [failed]
    exact .refused _ supported fun both => missing (addressed.mp both.2)

theorem OuterHeader.append_outcome (inetPton : InetPton) (grown : PrefixPacket p es) (header : OuterHeader) :
    AppendOutcome inetPton p es header (header.append inetPton p) := by
  cases header with
  | ipv4 ipSrc ipDst tos ttl =>
    refine ipAppend_outcome grown (.ipv4 ipSrc ipDst tos ttl) trivial (by simp [FitsIpHeader]) ?_ fun m => .inl ⟨rfl, rfl⟩
    simp [OuterHeader.Addressed]
  | ipv6 ipSrc ipDst tos hopLimit =>
    refine ipAppend_outcome grown (.ipv6 ipSrc ipDst tos hopLimit) trivial (by simp [FitsIpHeader, u16]) ?_ fun m =>
      .inr (.inl ⟨rfl, rfl⟩)
    simp [OuterHeader.Addressed]
  | gre header =>
    by_cases supported : (OuterHeader.gre header).Supported
    swap
    · rw [OuterHeader.append, greHeaderAppend, greLen_fails supported]
      exact .stops supported
    obtain ⟨version, direct⟩ := supported
    rw [OuterHeader.append, greHeaderAppend, greLen_ok version direct, ok_bind]
    by_cases room : HeaderRoom p es (.gre header)
    swap
    · have full := grown.appendStored_full room fun m at_ =>
        return .ok (m.copy at_ header.mem 0 (greFlagsLen header.mem 0))
      rw [show appendStored p .gre (greFlagsLen header.mem 0) _ = _ from full]
      exact .refused _ ⟨version, direct⟩ fun both => room both.1
    have stored := grown.appendStored_room room fun m at_ =>
      return .ok (m.copy at_ header.mem 0 (greFlagsLen header.mem 0))
    rw [show appendStored p .gre (greFlagsLen header.mem 0) _ = _ from stored]
    refine .appended _ ⟨version, direct⟩ room trivial (grown.append room.1 ?_ fun j before => ?_)
    · obtain ⟨sameVersion, routing, length⟩ := greHeader_copied p.buffer p.ipBytes header.mem
      exact .inr (.inr (.inl ⟨rfl, sameVersion.trans version, routing.not.mpr direct, length.symm⟩))
    · rw [get8_copy_ne _ _ _ (.inl before)]
  | mpls stack =>
    rw [OuterHeader.append, mplsHeaderAppend]
    by_cases room : HeaderRoom p es (.mpls stack)
    swap
    · have full := grown.appendStored_full room fun m at_ => return .ok (putStack m at_ stack)
      rw [show appendStored p .mpls (stack.length * 4) _ = _ from full]
      exact .refused _ trivial fun both => room both.1
    have stored := grown.appendStored_room room fun m at_ => return .ok (putStack m at_ stack)
    rw [show appendStored p .mpls (stack.length * 4) _ = _ from stored]
    exact .appended _ trivial room trivial (grown.append room.1 (.inr (.inr (.inr rfl))) fun j before =>
      putStack_frame _ _ before)

end Append

/-- The headers that can be appended to a prefix of `count` headers and `bytes` bytes. -/
structure Appendable (inetPton : InetPton) (count bytes : Nat) (chain : List OuterHeader) : Prop where
  few : count + chain.length ≤ packetMaxHeaders
  short : bytes + (chain.map OuterHeader.length).sum ≤ packetMaxHeaderBytes
  supported : ∀ header ∈ chain, header.Supported
  addressed : ∀ header ∈ chain, header.Addressed inetPton

theorem appendable_cons {inetPton : InetPton} {count bytes : Nat} :
    Appendable inetPton count bytes (header :: chain) ↔ header.Supported ∧ header.Addressed inetPton ∧
      Appendable inetPton (count + 1) (bytes + header.length) chain := by
  constructor
  · rintro ⟨few, short, supported, addressed⟩
    rw [List.length_cons] at few
    rw [List.map_cons, List.sum_cons] at short
    exact ⟨supported header (.head _), addressed header (.head _), by omega, by omega,
      fun h member => supported h (.tail _ member), fun h member => addressed h (.tail _ member)⟩
  · rintro ⟨supported, addressed, few, short, allSupported, allAddressed⟩
    refine ⟨by rw [List.length_cons]; omega, by rw [List.map_cons, List.sum_cons]; omega, ?_, ?_⟩
    · simpa [supported] using allSupported
    · simpa [addressed] using allAddressed

/-- The assertion of `gre_len` is reached: all headers before the one that fails it are appended. -/
def ReachesUnsupported (inetPton : InetPton) (count bytes : Nat) (chain : List OuterHeader) : Prop :=
  ∃ before header after, chain = before ++ header :: after ∧ Appendable inetPton count bytes before ∧ ¬header.Supported

theorem reachesUnsupported_cons {inetPton : InetPton} {count bytes : Nat}
    (few : count ≤ packetMaxHeaders) (short : bytes ≤ packetMaxHeaderBytes) :
    ReachesUnsupported inetPton count bytes (header :: chain) ↔ ¬header.Supported ∨ header.Supported ∧
      header.Addressed inetPton ∧ ReachesUnsupported inetPton (count + 1) (bytes + header.length) chain := by
  constructor
  · rintro ⟨before, last, after, split, appendable, unsupported⟩
    cases before with
    | nil =>
      cases split
      exact .inl unsupported
    | cons first before =>
      cases split
      obtain ⟨supported, addressed, later⟩ := appendable_cons.mp appendable
      exact .inr ⟨supported, addressed, before, last, after, rfl, later, unsupported⟩
  · rintro (unsupported | ⟨supported, addressed, before, last, after, rfl, later, unsupported⟩)
    · exact ⟨[], header, chain, rfl, ⟨by simpa using few, by simpa using short, by simp, by simp⟩, unsupported⟩
    · exact ⟨header :: before, last, after, rfl, appendable_cons.mpr ⟨supported, addressed, later⟩, unsupported⟩

inductive ChainOutcome (inetPton : InetPton) (p : Packet) (es : List Extent) (chain : List OuterHeader) :
    Run (Except String Packet) → Prop where
  | stops : ReachesUnsupported inetPton es.length p.ipBytes chain → ChainOutcome inetPton p es chain (.error .assertion)
  | refused (e : String) : ¬ReachesUnsupported inetPton es.length p.ipBytes chain →
      ¬Appendable inetPton es.length p.ipBytes chain → ChainOutcome inetPton p es chain (.ok (.error e))
  | appended (q : Packet) (ds : List Extent) : ¬ReachesUnsupported inetPton es.length p.ipBytes chain →
      Appendable inetPton es.length p.ipBytes chain → PrefixPacket q (es ++ ds) →
      ds.map (fun d => (d.type, d.headerBytes)) = chain.map (fun h => (h.type, h.length)) →
      ChainOutcome inetPton p es chain (.ok (.ok q))

theorem appendHeaders_outcome (inetPton : InetPton) (grown : PrefixPacket p es)
    (short : p.ipBytes ≤ packetMaxHeaderBytes) (chain : List OuterHeader) :
    ChainOutcome inetPton p es chain (appendHeaders inetPton p chain) := by
  induction chain generalizing p es with
  | nil =>
    have few : es.length ≤ packetMaxHeaders := by simpa using grown.layout.length_le
    refine .appended p [] ?_ ⟨by simpa using few, by simpa using short, by simp, by simp⟩ (by simpa using grown) rfl
    rintro ⟨before, header, after, split, -⟩
    have := congrArg List.length split
    simp at this
  | cons header chain ih =>
    have few : es.length ≤ packetMaxHeaders := by simpa using grown.layout.length_le
    have outcome := OuterHeader.append_outcome inetPton grown header
    rw [appendHeaders]
    generalize header.append inetPton p = result at outcome
    cases outcome with
    | stops unsupported => exact .stops ((reachesUnsupported_cons few short).mpr (.inl unsupported))
    | refused e supported refused =>
      refine .refused e (fun reaches => ?_) fun appendable => ?_
      · rcases (reachesUnsupported_cons few short).mp reaches with unsupported | ⟨-, addressed, before, _, _, _, later, _⟩
        · exact unsupported supported
        · exact refused ⟨⟨by have := later.few; omega, by have := later.short; omega⟩, addressed⟩
      · obtain ⟨-, addressed, later⟩ := appendable_cons.mp appendable
        exact refused ⟨⟨by have := later.few; omega, by have := later.short; omega⟩, addressed⟩
    | appended q supported room addressed next =>
      have bytes : q.ipBytes = p.ipBytes + header.length := by
        rw [next.ipBytes, List.map_append, List.sum_append, ← grown.ipBytes]
        simp
      have count : (es ++ [(⟨header.type, p.ipBytes, header.length, 0⟩ : Extent)]).length = es.length + 1 := by simp
      have rest := ih next (by rw [bytes]; exact room.2)
      rw [ok_bind]
      simp only
      generalize appendHeaders inetPton q chain = result at rest
      have reaches : ReachesUnsupported inetPton es.length p.ipBytes (header :: chain) ↔
          ReachesUnsupported inetPton (es.length + 1) (p.ipBytes + header.length) chain := by
        rw [reachesUnsupported_cons few short]
        simp [supported, addressed]
      have appendable : Appendable inetPton es.length p.ipBytes (header :: chain) ↔
          Appendable inetPton (es.length + 1) (p.ipBytes + header.length) chain := by
        rw [appendable_cons]
        simp [supported, addressed]
      cases rest with
      | stops later =>
        rw [count, bytes] at later
        exact .stops (reaches.mpr later)
      | refused e clear refused =>
        rw [count, bytes] at clear refused
        exact .refused e (fun bad => clear (reaches.mp bad)) fun all => refused (appendable.mp all)
      | appended q' ds clear all grown' same =>
        rw [count, bytes] at clear all
        refine .appended q' (⟨header.type, p.ipBytes, header.length, 0⟩ :: ds) (fun bad => clear (reaches.mp bad))
          (appendable.mpr all) ?_ ?_
        · rwa [List.append_assoc, List.singleton_append] at grown'
        · rw [List.map_cons, List.map_cons, same]

structure BuiltPacket (call : BuilderCall) (p : Packet) (ip t : Extent) : Prop where
  layout : Layout p ([ip, t].map Extent.header)
  start : ip.start = 0
  family : ip.type = call.family.headerType
  headerBytes : ip.headerBytes = ipHeaderMinLen call.family
  transport : t.type.IsTransport
  total : ip.headerBytes + t.totalBytes = call.ipBytes
  ipBytes : p.ipBytes = call.ipBytes

theorem BuilderCall.run_built {allocated : Mem}
    (returned : call.run allocated = .ok (.ok p)) : ∃ ip t, BuiltPacket call p ip t := by
  obtain ⟨type, headerBytes, total, built⟩ := BuilderCall.run_returns returned
  exact ⟨⟨call.family.headerType, 0, ipHeaderMinLen call.family, u16 p.ipBytes⟩, ⟨type, ipHeaderMinLen call.family,
    headerBytes, total⟩, built.layout, rfl, rfl, rfl, built.transport, built.ipBytes ▸ built.length.symm, built.ipBytes⟩

def BuilderCall.Builds : BuilderCall → Prop
  | .tcp a => a.Accepted ∧ FitsIpHeader a.family a.ipBytes ∧ ¬(a.window = -1 ∧ a.direction = .inbound)
  | .udp a => a.ipBytes ≤ 65536 ∧ FitsIpHeader a.family a.ipBytes
  | .icmp a => ∃ type code, a.Checked type code ∧ ¬asInt a.ipBytes < 0 ∧ FitsIpHeader a.family a.ipBytes ∧
      a.MtuAccepted type code ∧ (a.Echoes → FitsIpHeader a.family a.echoedIpBytes)

/-- The arguments for which a builder neither returns a packet nor reports an error. -/
def BuilderCall.Stops : BuilderCall → Prop
  | .tcp a => a.Accepted ∧ ¬FitsIpHeader a.family a.ipBytes
  | .udp a => a.ipBytes ≤ 65536 ∧ ¬FitsIpHeader a.family a.ipBytes
  | .icmp a => a.Stops

theorem BuilderCall.run_stops (allocated : Mem) (call : BuilderCall) :
    (∃ f, call.run allocated = .error f) ↔ call.Stops := by
  cases call with
  | tcp a => exact newTcpPacket_stops allocated a
  | udp a => exact newUdpPacket_stops allocated a
  | icmp a => exact newIcmpPacket_stops allocated a

theorem BuilderCall.run_builds (allocated : Mem) (call : BuilderCall) :
    (∃ p, call.run allocated = .ok (.ok p)) ↔ call.Builds := by
  cases call with
  | tcp a =>
    have outcome := newTcpPacket_outcome allocated a
    rw [BuilderCall.run, BuilderCall.Builds]
    generalize newTcpPacket allocated a = result at outcome
    cases outcome with
    | refused e unaccepted => exact iff_of_false (by simp) fun builds => unaccepted builds.1
    | overflow _ big => exact iff_of_false (by simp) fun builds => big builds.2.1
    | window e _ missing => exact iff_of_false (by simp) fun builds => builds.2.2 missing
    | built accepted fits window => exact iff_of_true ⟨_, rfl⟩ ⟨accepted, fits, window⟩
  | udp a =>
    have outcome := newUdpPacket_outcome allocated a
    rw [BuilderCall.run, BuilderCall.Builds]
    generalize newUdpPacket allocated a = result at outcome
    cases outcome with
    | refused e large => exact iff_of_false (by simp) fun builds => large builds.1
    | overflow _ big => exact iff_of_false (by simp) fun builds => big builds.2
    | built datagram fits => exact iff_of_true ⟨_, rfl⟩ ⟨datagram, fits⟩
  | icmp a =>
    have outcome := newIcmpPacket_outcome allocated a
    rw [BuilderCall.run, BuilderCall.Builds]
    generalize newIcmpPacket allocated a = result at outcome
    cases outcome with
    | refused e unchecked =>
      refine iff_of_false (by simp) fun builds => ?_
      obtain ⟨type, code, checked, -⟩ := builds
      exact unchecked type code checked
    | negative _ negative =>
      refine iff_of_false (by simp) fun builds => ?_
      obtain ⟨-, -, -, positive, -⟩ := builds
      exact positive negative
    | overflow _ big =>
      refine iff_of_false (by simp) fun builds => ?_
      obtain ⟨-, -, -, -, fits, -⟩ := builds
      exact big fits
    | mtu e checked _ _ unfit =>
      refine iff_of_false (by simp) fun builds => ?_
      obtain ⟨_, _, again, -, -, accepted, -⟩ := builds
      cases checked.names.symm.trans again.names
      exact unfit accepted
    | echo _ _ echoes big =>
      refine iff_of_false (by simp) fun builds => ?_
      obtain ⟨-, -, -, -, -, -, echoed⟩ := builds
      exact big (echoed echoes)
    | built checked positive fits echoed accepted =>
      exact iff_of_true ⟨_, rfl⟩ ⟨_, _, checked, positive, fits,
        (setIcmpHeader_isOk a _ _ _ _).mp ⟨_, accepted.header⟩, echoed⟩

theorem countable_append {total : Nat}
    (same : es.map (fun d => (d.type, d.headerBytes)) = chain.map (fun h => (h.type, h.length))) :
    Countable total (es ++ [ip]) ↔ (ip.type = .ipv6 → total ≤ 65535) ∧
      ∀ before header after, chain = before ++ header :: after → header.type = .ipv6 →
        (after.map OuterHeader.length).sum + (ip.headerBytes + total) ≤ 65535 := by
  induction es generalizing chain with
  | nil =>
    rw [List.map_nil, eq_comm, List.map_eq_nil_iff] at same
    subst same
    simp [Countable]
  | cons e es ih =>
    cases chain with
    | nil => cases same
    | cons header chain =>
      rw [List.map_cons, List.map_cons, List.cons.injEq, Prod.mk.injEq] at same
      obtain ⟨⟨type, _⟩, rest⟩ := same
      have lengths : (es.map Extent.headerBytes).sum = (chain.map OuterHeader.length).sum := by
        have := congrArg (fun pairs => (pairs.map Prod.snd).sum) rest
        simpa [Function.comp_def] using this
      rw [List.cons_append, Countable, ih rest]
      constructor
      · rintro ⟨here, last, later⟩
        refine ⟨last, fun before other after split ipv6 => ?_⟩
        cases before with
        | nil =>
          cases split
          have := here (type.trans ipv6)
          simp only [List.map_append, List.sum_append, lengths, List.map_cons, List.map_nil, List.sum_singleton] at this
          omega
        | cons first before =>
          cases split
          exact later before other after rfl ipv6
      · rintro ⟨last, all⟩
        refine ⟨fun ipv6 => ?_, last, fun before other after split => ?_⟩
        · have := all [] header chain rfl (type.symm.trans ipv6)
          simp only [List.map_append, List.sum_append, lengths, List.map_cons, List.map_nil, List.sum_singleton]
          omega
        · exact all (header :: before) other after (by rw [split, List.cons_append])

theorem BuiltPacket.packetEnd_eq {t : Extent} (built : BuiltPacket call p ip t) :
    packetEnd p = .ok p.ipBytes := by
  have layout := built.layout
  rw [List.map_cons] at layout
  simp [packetEnd, layout.packetStart, Extent.header, requirePtr, built.start]

structure Encapsulable (chain : List OuterHeader) (call : BuilderCall) : Prop where
  few : chain.length + 2 ≤ packetMaxHeaders
  bounded : call.ipBytes ≤ 128 * 1024
  last : call.family = .inet6 → call.ipBytes ≤ 65535 + 40
  short : ∀ before header after, chain = before ++ header :: after → header.type = .ipv6 →
    (after.map OuterHeader.length).sum + call.ipBytes ≤ 65535

theorem packetEncapsulate_outcome (allocated : Mem) {outer inner : Packet}
    {t : Extent} (front : PrefixPacket outer es)
    (same : es.map (fun d => (d.type, d.headerBytes)) = chain.map (fun h => (h.type, h.length)))
    (built : BuiltPacket call inner ip t) :
    (∃ p, packetEncapsulate allocated outer inner = .ok p) ↔ Encapsulable chain call := by
  have outerCount : packetHeaderCount outer = es.length := by simp [front.layout.count]
  have innerCount : packetHeaderCount inner = 2 := by rw [built.layout.count]; rfl
  have size : es.length = chain.length := by simpa using congrArg List.length same
  by_cases few : es.length + 2 ≤ packetMaxHeaders
  swap
  · have fails : assertThat (packetHeaderCount outer + packetHeaderCount inner ≤ packetMaxHeaders) = .error .assertion :=
      if_neg (by rw [outerCount, innerCount]; exact few)
    refine iff_of_false ?_ fun encapsulable => few (size ▸ encapsulable.few)
    rintro ⟨p, returned⟩
    simp only [packetEncapsulate, fails] at returned
    cases returned
  by_cases bounded : inner.ipBytes ≤ 128 * 1024
  swap
  · have fails : assertThat (inner.ipBytes ≤ 128 * 1024) = .error .assertion := if_neg bounded
    refine iff_of_false ?_ fun encapsulable => bounded (built.ipBytes ▸ encapsulable.bounded)
    rintro ⟨p, returned⟩
    rw [← outerCount, ← innerCount] at few
    simp only [packetEncapsulate, assertThat_ok few, packetCopyWithHeadroom, built.packetEnd_eq, fails, ok_bind] at returned
    cases returned
  have joined : Layout (joinedPacket allocated outer inner) _ := joinedPacket_layout front.layout built.layout few
  have sound : ∀ e ∈ es ++ [ip.shift outer.ipBytes], e.Sound (joinedMem allocated outer inner) := by
    intro e member
    rcases List.mem_append.mp member with old | new
    · have stop := front.contiguous.inner_le e old
      refine (front.sound e old).congr fun j _ inside => joinedMem_outer _ _ _ ?_
      rw [front.ipBytes]
      omega
    · rw [List.mem_singleton] at new
      subst new
      exact .of_family built.family built.headerBytes
  have contiguous : Contiguous 0 (es ++ [ip.shift outer.ipBytes]) :=
    front.contiguous.concat (by rw [Extent.shift, built.start, front.ipBytes, Nat.add_zero, Nat.zero_add])
  have outcome := finishHeaders_outcome (k := packetMaxHeaders - (es.length + 2)) (t := (t.shift outer.ipBytes).header)
    built.transport contiguous sound
  have table : (joinedPacket allocated outer inner).headers.toList =
      (es ++ [ip.shift outer.ipBytes]).map Extent.header ++ (t.shift outer.ipBytes).header ::
        List.replicate (packetMaxHeaders - (es.length + 2)) .unused := by
    have := joined.table
    simpa using this
  have countable : Countable t.totalBytes (es ++ [ip.shift outer.ipBytes]) ↔ (ip.type = .ipv6 → t.totalBytes ≤ 65535) ∧
      ∀ before header after, chain = before ++ header :: after → header.type = .ipv6 →
        (after.map OuterHeader.length).sum + (ip.headerBytes + t.totalBytes) ≤ 65535 := countable_append same
  rw [built.total] at countable
  have last : (ip.type = .ipv6 → t.totalBytes ≤ 65535) ↔ (call.family = .inet6 → call.ipBytes ≤ 65535 + 40) := by
    rw [← built.total, built.headerBytes, built.family]
    cases call.family with
    | inet => simp [AddressFamily.headerType]
    | inet6 =>
      simp only [AddressFamily.headerType, ipHeaderMinLen, forall_const]
      omega
  rw [packetEncapsulate_eq front.layout built.layout few built.packetEnd_eq bounded, packetFinishEncapsulationHeaders, table]
  by_cases fits : Countable t.totalBytes (es ++ [ip.shift outer.ipBytes])
  · obtain ⟨m, h, rest, finished, -⟩ := outcome.1 fits
    obtain ⟨inner6, outer6⟩ := countable.mp fits
    refine iff_of_true ?_ ⟨size ▸ few, built.ipBytes ▸ bounded, last.mp inner6, outer6⟩
    change ∃ p, (finishHeaders (joinedMem allocated outer inner) _ >>= _) >>= _ = _
    rw [finished]
    exact ⟨_, rfl⟩
  · refine iff_of_false ?_ fun encapsulable => fits (countable.mpr ⟨last.mpr encapsulable.last, encapsulable.short⟩)
    change ¬∃ p, (finishHeaders (joinedMem allocated outer inner) _ >>= _) >>= _ = _
    rw [outcome.2 fits]
    rintro ⟨p, returned⟩
    cases returned

def BuilderCall.direction : BuilderCall → Direction
  | .tcp a => a.direction
  | .udp a => a.direction
  | .icmp a => a.direction

/-- The semantic errors of `tcp_packet_spec`, `udp_packet_spec` and `icmp_packet_spec` before they build. -/
def BuilderCall.refusal : BuilderCall → Option String
  | .tcp a =>
    if a.ipInfo.tos = EcnKeyword.ect01.tosSpec ∧ a.direction ≠ .outbound then
      some "[ect01] can only be used with outbound packets"
    else if a.tcpOptions.isNone ∧ a.direction ≠ .outbound then
      some "<...> for TCP options can only be used with outbound packets"
    else none
  | .udp a => if a.ipInfo.tos.check = .ecn then some "ECN can only be used with TCP packets" else none
  | .icmp a =>
    if a.ipInfo.tos = EcnKeyword.ect01.tosSpec ∧ a.direction ≠ .outbound then
      some "[ect01] can only be used with outbound packets"
    else none

def packetBehind (memory : Allocated) (outer : Packet) (call : BuilderCall) : Run (Except String Packet) := do
  match ← call.run memory.inner with
  | .error e => return .error e
  | .ok inner => return .ok (← packetEncapsulate memory.result outer inner)

/-- The packet of a specification with a prefix: the prefix is parsed first. -/
def constructPacket (inetPton : InetPton) (memory : Allocated) (chain : List OuterHeader) (call : BuilderCall) :
    Run (Except String Packet) := do
  let outer := { packetNew memory.outer packetMaxHeaderBytes with direction := call.direction }
  match ← appendHeaders inetPton outer chain with
  | .error e => return .error e
  | .ok outer =>
    match call.refusal with
    | some e => return .error e
    | none => packetBehind memory outer call

theorem packetBehind_outcome (memory : Allocated) {outer : Packet}
    (front : PrefixPacket outer es)
    (same : es.map (fun d => (d.type, d.headerBytes)) = chain.map (fun h => (h.type, h.length))) (call : BuilderCall) :
    (∃ result, packetBehind memory outer call = .ok result) ↔ ¬call.Stops ∧ (call.Builds → Encapsulable chain call) := by
  have stops := call.run_stops memory.inner
  have builds := call.run_builds memory.inner
  rw [packetBehind]
  cases run : call.run memory.inner with
  | error f =>
    exact iff_of_false (fun ⟨_, returned⟩ => by cases returned) fun survives => survives.1 (stops.mp ⟨f, run⟩)
  | ok result =>
    have continues : ¬call.Stops := fun stopping => by
      obtain ⟨f, failed⟩ := stops.mpr stopping
      cases run.symm.trans failed
    cases result with
    | error e =>
      refine iff_of_true ⟨_, rfl⟩ ⟨continues, fun building => ?_⟩
      obtain ⟨p, built⟩ := builds.mpr building
      cases run.symm.trans built
    | ok inner =>
      obtain ⟨ip, t, built⟩ := BuilderCall.run_built run
      have joins := packetEncapsulate_outcome memory.result front same built
      simp only [ok_bind]
      constructor
      · intro ⟨result, returned⟩
        obtain ⟨p, joined, -⟩ := run_bind_ok returned
        exact ⟨continues, fun _ => joins.mp ⟨p, joined⟩⟩
      · intro ⟨_, survives⟩
        obtain ⟨p, joined⟩ := joins.mpr (survives (builds.mp ⟨inner, run⟩))
        rw [joined]
        exact ⟨.ok p, rfl⟩

theorem packetNew_prefixed (allocated : Mem) (direction : Direction) :
    PrefixPacket { packetNew allocated packetMaxHeaderBytes with direction } [] where
  layout := ⟨rfl, by simp⟩
  l2HeaderBytes := rfl
  bufferBytes := rfl
  contiguous := trivial
  ipBytes := rfl
  sound := by simp

/-- The parser survives a packet specification exactly when no GRE header that `gre_len` does not
support is reached and, once the prefix is appended, the packet can be built and encapsulated. -/
theorem prefixes_survived (inetPton : InetPton) (memory : Allocated) (chain : List OuterHeader) (call : BuilderCall) :
    (∃ result, constructPacket inetPton memory chain call = .ok result) ↔
      ¬ReachesUnsupported inetPton 0 0 chain ∧
      (Appendable inetPton 0 0 chain → call.refusal = none →
        ¬call.Stops ∧ (call.Builds → Encapsulable chain call)) := by
  have outcome := appendHeaders_outcome inetPton (packetNew_prefixed memory.outer call.direction)
    (Nat.zero_le _) chain
  rw [constructPacket]
  generalize appendHeaders inetPton _ chain = result at outcome
  cases outcome with
  | stops reaches => exact iff_of_false (fun ⟨_, returned⟩ => by cases returned) fun survives => survives.1 reaches
  | refused e clear refused => exact iff_of_true ⟨_, rfl⟩ ⟨clear, fun appendable => absurd appendable refused⟩
  | appended outer ds clear appendable front same =>
    simp only [ok_bind]
    cases refusal : call.refusal with
    | some e => exact iff_of_true ⟨_, rfl⟩ ⟨clear, fun _ unrefused => by cases unrefused⟩
    | none =>
      have behind := packetBehind_outcome memory front same call
      exact behind.trans ⟨fun survives => ⟨clear, fun _ _ => survives⟩, fun survives => survives.2 appendable rfl⟩

def zeroed : Allocated := ⟨fun _ => 0, fun _ => 0, fun _ => 0⟩

def longSegment : TcpArgs := { synSegment .noEcn with tcpPayloadBytes := 65496 }

/-- Five GRE headers can be appended, but the table has no room for them and the two headers of the
packet; a GRE header with a version is not even appended; the length field of an IPv6 header cannot
count the longest packet behind it. -/
theorem prefixes_abort :
    constructPacket ⟨fun _ => none, fun _ => none⟩ zeroed (List.replicate 5 (.gre (.replicate 16 0)))
      (.tcp (synSegment .noEcn)) = .error .assertion ∧
    constructPacket ⟨fun _ => none, fun _ => none⟩ zeroed [.gre (GreNumbers.header ⟨1, 0, 0, 0, 0⟩)]
      (.tcp (synSegment .noEcn)) = .error .assertion ∧
    constructPacket ⟨fun _ => none, fun _ => some (.replicate 16 0)⟩ zeroed [.ipv6 "::" "::" 0 0]
      (.tcp longSegment) = .error .assertion :=
  ⟨rfl, rfl, rfl⟩

end TcpFuzz
