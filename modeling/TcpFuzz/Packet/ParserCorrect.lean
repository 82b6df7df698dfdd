import TcpFuzz.Packet.Wire

/-! The parsers return `PACKET_OK` exactly when the bytes are a chain of headers that fits the table, and the packet
is then determined by the chain. -/

namespace TcpFuzz
open Bytes

/-- The packet that records a chain of headers: each header is appended, the transport header
sets its pointer, and on the way back an IP header takes the primary role if it is free and
gives the packet length if it came first. -/
def parsed (p : Packet) : List Extent → Packet
  | [] => p
  | e :: es =>
    match e.type with
    | .ipv4 => finishIp (fun q => { q with ipv4 := some e.start })
        (parsed (appended p .ipv4 e.headerBytes e.totalBytes) es) e.totalBytes
    | .ipv6 => finishIp (fun q => { q with ipv6 := some e.start })
        (parsed (appended p .ipv6 e.headerBytes e.totalBytes) es) e.totalBytes
    | .tcp => appended { p with tcp := some e.start } .tcp e.headerBytes e.totalBytes
    | .udp => appended { p with udp := some e.start } .udp e.headerBytes e.totalBytes
    | .icmpv4 => appended { p with icmpv4 := some e.start } .icmpv4 e.headerBytes e.totalBytes
    | .icmpv6 => appended { p with icmpv6 := some e.start } .icmpv6 e.headerBytes e.totalBytes
    | type => parsed (appended p type e.headerBytes e.totalBytes) es
where
  /-- What an IP header's parser does after the headers inside it are parsed. -/
  finishIp (setPtr : Packet → Packet) (q : Packet) (total : Nat) : Packet :=
    let q := if q.ipv4 = none ∧ q.ipv6 = none then setPtr q else q
    if p.ipBytes = 0 then { q with ipBytes := total } else q

/-- A packet whose headers `hs` fill its table and its buffer up to the offset `pos`. -/
structure Ready (p : Packet) (hs : List Header) (pos stop : Nat) : Prop where
  layout : Layout p hs
  here : p.l2HeaderBytes + p.ipBytes = pos
  inside : pos ≤ stop
  buffered : stop ≤ p.bufferBytes

/-- A run returns, says `PACKET_OK` exactly for a chain that fits the table, and records it. -/
def Agrees (m : Mem) (stop used : Nat) (x : Expect) (pos : Nat) (p : Packet)
    (run : Run (ParseResult × Packet)) : Prop :=
  ∃ result q, run = .ok (result, q) ∧
    (result = .ok → ∃ es, Wire m stop x pos es ∧ used + es.length ≤ packetMaxHeaders) ∧
    ∀ es, Wire m stop x pos es → used + es.length ≤ packetMaxHeaders → result = .ok ∧ q = parsed p es

namespace Agrees

variable {m : Mem} {stop used : Nat} {x y : Expect} {pos pos' : Nat} {p p' : Packet}
  {run : Run (ParseResult × Packet)}

theorem reject {result : ParseResult} (fails : result ≠ .ok) (q : Packet)
    (absent : ∀ es, Wire m stop x pos es → packetMaxHeaders < used + es.length) :
    Agrees m stop used x pos p (.ok (result, q)) :=
  ⟨result, q, rfl, fun ok => (fails ok).elim,
    fun es wire fits => absurd fits (by have := absent es wire; omega)⟩

theorem check {header c : Prop} [Decidable c] (format : ∀ es, Wire m stop x pos es → header) {error : String} {q : Packet}
    (passes : header → ¬c) (goesOn : ¬c → Agrees m stop used x pos p run) :
    Agrees m stop used x pos p (if c then .ok (.bad error, q) else run) := by
  split
  next fails => exact .reject (by simp) q fun es wire => absurd fails (passes (format es wire))
  next passed => exact goesOn passed

theorem dispatch (inner : Agrees m stop used y pos p run)
    (same : ∀ es, Wire m stop x pos es ↔ Wire m stop y pos es) : Agrees m stop used x pos p run := by
  obtain ⟨result, q, returned, sound, complete⟩ := inner
  refine ⟨result, q, returned, fun ok => ?_, fun es wire => complete es ((same es).mp wire)⟩
  obtain ⟨es, wire, fits⟩ := sound ok
  exact ⟨es, (same es).mpr wire, fits⟩

theorem header {e : Extent} (f : Packet → Packet) (inner : Agrees m stop (used + 1) y pos' p' run)
    (chain : ∀ es, Wire m stop x pos es ↔ ∃ rest, es = e :: rest ∧ Wire m stop y pos' rest)
    (records : ∀ rest, parsed p (e :: rest) = f (parsed p' rest)) :
    Agrees m stop used x pos p (run >>= fun r => .ok (r.1, f r.2)) := by
  obtain ⟨result, q, rfl, sound, complete⟩ := inner
  refine ⟨result, f q, rfl, fun ok => ?_, fun es wire fits => ?_⟩
  · obtain ⟨rest, wire, fits⟩ := sound ok
    refine ⟨e :: rest, (chain _).mpr ⟨rest, rfl, wire⟩, ?_⟩
    rw [List.length_cons]
    omega
  · obtain ⟨rest, rfl, next⟩ := (chain es).mp wire
    rw [List.length_cons] at fits
    obtain ⟨ok, rfl⟩ := complete rest next (by omega)
    exact ⟨ok, (records rest).symm⟩

theorem last {e : Extent} {q : Packet} (only : ∀ es, Wire m stop x pos es ↔ es = [e])
    (fits : used < packetMaxHeaders) (records : parsed p [e] = q) :
    Agrees m stop used x pos p (.ok (.ok, q)) := by
  refine ⟨.ok, q, rfl, fun _ => ⟨[e], (only _).mpr rfl, ?_⟩, fun es wire _ => ⟨rfl, ?_⟩⟩
  · rw [List.length_singleton]
    omega
  · rw [(only es).mp wire, records]

end Agrees

namespace Ready

variable {p : Packet} {hs : List Header} {pos stop : Nat}

theorem append (ready : Ready p hs pos stop) (room : hs.length < packetMaxHeaders)
    {type : HeaderType} (used : type ≠ .none) {headerBytes : Nat} (total : Nat)
    (fits : pos + headerBytes ≤ stop) :
    Ready (appended p type headerBytes total) (hs ++ [⟨type, headerBytes, total, some pos⟩])
      (pos + headerBytes) stop where
  layout := by
    have layout := ready.layout.append room used headerBytes total
    rwa [ready.here] at layout
  here := by
    have here := ready.here
    simp only [appended, updateHeader]
    omega
  inside := fits
  buffered := ready.buffered

theorem appendHeader (ready : Ready p hs pos stop) (type : HeaderType) {headerBytes : Nat}
    (fits : pos + headerBytes ≤ stop) :
    packetAppendHeader p type headerBytes =
      .ok (if hs.length = packetMaxHeaders then none else some (appended p type headerBytes 0, hs.length)) := by
  have here := ready.here
  have buffered := ready.buffered
  rw [packetAppendHeader_eq ready.layout]
  congr 1
  by_cases full : hs.length = packetMaxHeaders
  · simp [full]
  · rw [if_neg full, if_neg (by omega)]

end Ready

theorem Layout.setTotalBytes {p : Packet} {hs : List Header} (layout : Layout p hs)
    (type : HeaderType) (headerBytes total : Nat) :
    setTotalBytes (appended p type headerBytes 0) hs.length total = appended p type headerBytes total := by
  rw [← layout.count, setTotalBytes_appended]

section Append

variable {m : Mem} {stop pos pos' : Nat} {x y : Expect} {p p' : Packet} {hs : List Header} {e : Extent}

theorem Agrees.appendLast (ready : Ready p' hs pos stop) (fits : pos + e.headerBytes ≤ stop)
    (only : ∀ es, Wire m stop x pos es ↔ es = [e])
    (records : parsed p [e] = appended p' e.type e.headerBytes e.totalBytes) (error : String) :
    Agrees m stop hs.length x pos p
      (packetAppendHeader p' e.type e.headerBytes >>= fun r => match r with
        | none => .ok (.bad error, p')
        | some (q, i) => .ok (.ok, setTotalBytes q i e.totalBytes)) := by
  rw [ready.appendHeader e.type fits, ok_bind]
  by_cases full : hs.length = packetMaxHeaders
  · rw [if_pos full]
    refine .reject (by simp) _ fun es wire => ?_
    rw [(only es).mp wire, List.length_singleton]
    omega
  · rw [if_neg full]
    have room := ready.layout.length_le
    exact .last only (by omega) (records.trans (ready.layout.setTotalBytes _ _ _).symm)

theorem Agrees.appendThen (ready : Ready p hs pos stop) (used : e.type ≠ .none)
    (fits : pos + e.headerBytes ≤ stop) (f : Packet → Packet) (go : Packet → Run (ParseResult × Packet))
    (inner : ∀ q hs', Ready q hs' (pos + e.headerBytes) stop →
      q = appended p e.type e.headerBytes e.totalBytes → Agrees m stop hs'.length y pos' q (go q))
    (chain : ∀ es, Wire m stop x pos es ↔ ∃ rest, es = e :: rest ∧ Wire m stop y pos' rest)
    (records : ∀ rest, parsed p (e :: rest) = f (parsed (appended p e.type e.headerBytes e.totalBytes) rest))
    (error : String) :
    Agrees m stop hs.length x pos p
      (packetAppendHeader p e.type e.headerBytes >>= fun r => match r with
        | none => .ok (.bad error, p)
        | some (q, i) => go (setTotalBytes q i e.totalBytes) >>= fun r => .ok (r.1, f r.2)) := by
  have room := ready.layout.length_le
  rw [ready.appendHeader e.type fits, ok_bind]
  by_cases full : hs.length = packetMaxHeaders
  · rw [if_pos full]
    refine .reject (by simp) _ fun es wire => ?_
    obtain ⟨rest, rfl, -⟩ := (chain es).mp wire
    rw [List.length_cons]
    omega
  · rw [if_neg full]
    simp only [ready.layout.setTotalBytes]
    have next := inner _ _ (ready.append (by omega) used e.totalBytes fits) rfl
    rw [List.length_append, List.length_singleton] at next
    exact .header f next chain records

end Append

section Transport

variable {m : Mem} {stop pos bytes : Nat} {es : List Extent}

theorem wire_tcp_iff : Wire m stop (.layer4 6 bytes) pos es ↔
    TcpHeader m bytes pos ∧ es = [⟨.tcp, pos, tcpDoff m pos * 4, bytes⟩] := by
  constructor
  · intro wire
    cases wire with
    | tcp header => exact ⟨header, rfl⟩
  · rintro ⟨header, rfl⟩
    exact .tcp header

theorem wire_udp_iff : Wire m stop (.layer4 17 bytes) pos es ↔
    UdpHeader m bytes pos ∧ es = [⟨.udp, pos, 8, bytes⟩] := by
  constructor
  · intro wire
    cases wire with
    | udp header => exact ⟨header, rfl⟩
  · rintro ⟨header, rfl⟩
    exact .udp header

theorem wire_icmpv4_iff : Wire m stop (.layer4 1 bytes) pos es ↔
    8 ≤ bytes ∧ es = [⟨.icmpv4, pos, 8, bytes⟩] := by
  constructor
  · intro wire
    cases wire with
    | icmpv4 long => exact ⟨long, rfl⟩
  · rintro ⟨long, rfl⟩
    exact .icmpv4 long

theorem wire_icmpv6_iff : Wire m stop (.layer4 58 bytes) pos es ↔
    8 ≤ bytes ∧ es = [⟨.icmpv6, pos, 8, bytes⟩] := by
  constructor
  · intro wire
    cases wire with
    | icmpv6 long => exact ⟨long, rfl⟩
  · rintro ⟨long, rfl⟩
    exact .icmpv6 long

variable {p : Packet} {hs : List Header}

theorem parseTcp_agrees (ready : Ready p hs pos stop) (fits : pos + bytes ≤ stop) :
    Agrees p.buffer stop hs.length (.layer4 6 bytes) pos p (parseTcp p pos bytes stop) := by
  simp only [parseTcp, assertThat_ok (Int.natCast_nonneg bytes), ok_bind, run_pure, packetTcpHeaderLen,
    requirePtr, Int.toNat_natCast, assertThat_ok fits]
  have format (es : List Extent) (wire : Wire p.buffer stop (.layer4 6 bytes) pos es) : TcpHeader p.buffer bytes pos :=
    (wire_tcp_iff.mp wire).1
  refine .check format (fun header => by have := header.long; have := header.contained; omega) fun short => ?_
  refine .check format (fun header => by have := header.long; omega) fun small => ?_
  refine .check format (fun header => by have := header.contained; omega) fun big => ?_
  have header : TcpHeader p.buffer bytes pos := ⟨by omega, by omega⟩
  have ready' : Ready { p with tcp := some pos } hs pos stop := ⟨⟨ready.1.1, ready.1.2⟩, ready.2, ready.3, ready.4⟩
  exact Agrees.appendLast (e := ⟨.tcp, pos, tcpDoff p.buffer pos * 4, bytes⟩) ready'
    (by simp only; omega) (fun es => wire_tcp_iff.trans (and_iff_right header)) rfl _

theorem parseUdp_agrees (ready : Ready p hs pos stop) (fits : pos + bytes ≤ stop) :
    Agrees p.buffer stop hs.length (.layer4 17 bytes) pos p (parseUdp p pos bytes stop) := by
  simp only [parseUdp, assertThat_ok (Int.natCast_nonneg bytes), ok_bind, run_pure, Int.toNat_natCast,
    assertThat_ok fits]
  have format (es : List Extent) (wire : Wire p.buffer stop (.layer4 17 bytes) pos es) : UdpHeader p.buffer bytes pos :=
    (wire_udp_iff.mp wire).1
  refine .check format (fun header => by have := header.long; omega) fun short => ?_
  refine .check format (fun header => by have := header.long; have := header.agrees; omega) fun tiny => ?_
  refine .check format (fun header => by have := header.agrees; omega) fun small => ?_
  refine .check format (fun header => by have := header.agrees; omega) fun big => ?_
  have header : UdpHeader p.buffer bytes pos := ⟨by omega, by omega⟩
  have ready' : Ready { p with udp := some pos } hs pos stop := ⟨⟨ready.1.1, ready.1.2⟩, ready.2, ready.3, ready.4⟩
  exact Agrees.appendLast (e := ⟨.udp, pos, 8, bytes⟩) ready' (by simp only; omega)
    (fun es => wire_udp_iff.trans (and_iff_right header)) rfl _

theorem parseIcmp_agrees {x : Expect} {type : HeaderType} {truncated : String} {setPtr : Packet → Nat → Packet}
    (ready : Ready (setPtr p pos) hs pos stop) (fits : pos + bytes ≤ stop)
    (format : ∀ es, Wire m stop x pos es ↔ 8 ≤ bytes ∧ es = [⟨type, pos, 8, bytes⟩])
    (records : parsed p [⟨type, pos, 8, bytes⟩] = appended (setPtr p pos) type 8 bytes) :
    Agrees m stop hs.length x pos p (parseIcmp type truncated setPtr p pos bytes stop) := by
  simp only [parseIcmp, assertThat_ok (Int.natCast_nonneg bytes), ok_bind, run_pure, Int.toNat_natCast,
    assertThat_ok fits]
  by_cases short : (bytes : Int) < 8
  · rw [if_pos short]
    refine .reject (by simp) _ fun es wire => ?_
    have long := ((format es).mp wire).1
    omega
  rw [if_neg short]
  exact Agrees.appendLast (e := ⟨type, pos, 8, bytes⟩) ready (by simp only; omega)
    (fun es => (format es).trans (and_iff_right (by omega))) records _

theorem parseIcmpv4_agrees (ready : Ready p hs pos stop) (fits : pos + bytes ≤ stop) :
    Agrees p.buffer stop hs.length (.layer4 1 bytes) pos p (parseIcmpv4 p pos bytes stop) :=
  parseIcmp_agrees ⟨⟨ready.1.1, ready.1.2⟩, ready.2, ready.3, ready.4⟩ fits (fun _ => wire_icmpv4_iff) rfl

theorem parseIcmpv6_agrees (ready : Ready p hs pos stop) (fits : pos + bytes ≤ stop) :
    Agrees p.buffer stop hs.length (.layer4 58 bytes) pos p (parseIcmpv6 p pos bytes stop) :=
  parseIcmp_agrees ⟨⟨ready.1.1, ready.1.2⟩, ready.2, ready.3, ready.4⟩ fits (fun _ => wire_icmpv6_iff) rfl

end Transport

section Recursion

variable {m : Mem} {stop pos bytes proto fuel : Nat} {es : List Extent}

theorem wire_ipv4_iff : Wire m stop .ipv4 pos es ↔ Ipv4Header m stop pos ∧
    ∃ rest, es = ⟨.ipv4, pos, ipv4HeaderLen m pos, ipv4TotLen m pos⟩ :: rest ∧
      Wire m stop (.layer4 (ipv4Protocol m pos) (ipv4TotLen m pos - ipv4HeaderLen m pos))
        (pos + ipv4HeaderLen m pos) rest := by
  constructor
  · intro wire
    cases wire with
    | ipv4 header next => exact ⟨header, _, rfl, next⟩
  · rintro ⟨header, rest, rfl, next⟩
    exact .ipv4 header next

theorem wire_ipv6_iff : Wire m stop .ipv6 pos es ↔ Ipv6Header m stop pos ∧
    ∃ rest, es = ⟨.ipv6, pos, 40, 40 + ipv6PayloadLen m pos⟩ :: rest ∧
      Wire m stop (.layer4 (ipv6NextHeader m pos) (ipv6PayloadLen m pos)) (pos + 40) rest := by
  constructor
  · intro wire
    cases wire with
    | ipv6 header next => exact ⟨header, _, rfl, next⟩
  · rintro ⟨header, rest, rfl, next⟩
    exact .ipv6 header next

theorem wire_gre_iff : Wire m stop (.layer4 47 bytes) pos es ↔ GreHeader m bytes pos ∧
    ∃ rest, es = ⟨.gre, pos, greFlagsLen m pos, bytes⟩ :: rest ∧
      Wire m stop (.etherType (greProto m pos)) (pos + greFlagsLen m pos) rest := by
  constructor
  · intro wire
    cases wire with
    | gre header next => exact ⟨header, _, rfl, next⟩
  · rintro ⟨header, rest, rfl, next⟩
    exact .gre header next

theorem Wire.layer3_fits (wire : Wire m stop .layer3 pos es) : pos + 20 ≤ stop := by
  cases wire with
  | layer3Ipv4 fits => exact fits
  | layer3Ipv6 version next =>
    have := (wire_ipv6_iff.mp next).1.fits
    omega

/-- The parsers with `fuel` units read the packets that end at `stop`: those that start with a
header need one unit for each byte left and one more, those that dispatch yet another one. -/
structure FuelSpec (fuel stop : Nat) : Prop where
  ipv4 : ∀ {p hs pos}, Ready p hs pos stop → stop - pos < fuel →
    Agrees p.buffer stop hs.length .ipv4 pos p (parseIpv4 fuel p pos stop)
  ipv6 : ∀ {p hs pos}, Ready p hs pos stop → stop - pos < fuel →
    Agrees p.buffer stop hs.length .ipv6 pos p (parseIpv6 fuel p pos stop)
  gre : ∀ {p hs pos bytes}, Ready p hs pos stop → stop - pos < fuel → pos + bytes ≤ stop →
    Agrees p.buffer stop hs.length (.layer4 47 bytes) pos p (parseGre fuel p pos bytes stop)
  mpls : ∀ {p hs pos}, Ready p hs pos stop → stop - pos < fuel →
    Agrees p.buffer stop hs.length .mpls pos p (parseMpls fuel p pos stop)
  byProto : ∀ {p hs pos proto}, Ready p hs pos stop → stop - pos + 1 < fuel →
    Agrees p.buffer stop hs.length (.etherType proto) pos p (parseLayer3PacketByProto fuel p proto pos stop)
  layer3 : ∀ {p hs pos}, Ready p hs pos stop → stop - pos + 1 < fuel →
    Agrees p.buffer stop hs.length .layer3 pos p (parseLayer3Packet fuel p pos stop)
  layer4 : ∀ {p hs pos proto bytes}, Ready p hs pos stop → stop - pos + 1 < fuel → pos + bytes ≤ stop →
    Agrees p.buffer stop hs.length (.layer4 proto bytes) pos p (parseLayer4 fuel p pos proto bytes stop)

variable {p : Packet} {hs : List Header}

theorem parseIpv4_agrees (spec : FuelSpec fuel stop) (ready : Ready p hs pos stop)
    (enough : stop - pos < fuel + 1) :
    Agrees p.buffer stop hs.length .ipv4 pos p (parseIpv4 (fuel + 1) p pos stop) := by
  have format (es : List Extent) (wire : Wire p.buffer stop .ipv4 pos es) : Ipv4Header p.buffer stop pos :=
    (wire_ipv4_iff.mp wire).1
  simp only [parseIpv4, run_pure]
  refine .check format (fun header => by have := header.long; omega) fun short => ?_
  refine .check format (fun header => by have := header.contained; have := header.fits; omega) fun overflows => ?_
  refine .check format (fun header => by have := header.fits; omega) fun long => ?_
  refine .check format (fun header => by have := header.contained; omega) fun bigger => ?_
  refine .check format (fun header => by have := header.whole; omega) fun more => ?_
  refine .check format (fun header => by have := header.whole; omega) fun offset => ?_
  have header : Ipv4Header p.buffer stop pos := ⟨by omega, by omega, by omega, by omega⟩
  simp only [assertThat_ok (Nat.le_of_not_lt overflows), ok_bind]
  refine Agrees.appendThen (e := ⟨.ipv4, pos, ipv4HeaderLen p.buffer pos, ipv4TotLen p.buffer pos⟩) ready
    (by simp) (by simp only; omega) (fun q => parsed.finishIp p (fun q => { q with ipv4 := some pos }) q
      (ipv4TotLen p.buffer pos))
    (fun q => parseLayer4 fuel q (pos + ipv4HeaderLen p.buffer pos) (ipv4Protocol q.buffer pos)
      ((ipv4TotLen p.buffer pos : Int) - ipv4HeaderLen p.buffer pos) stop) ?_
    (fun es => wire_ipv4_iff.trans (and_iff_right header)) (fun _ => rfl) _
  rintro q hs' ready' rfl
  rw [← Int.ofNat_sub (by omega)]
  exact spec.layer4 ready' (by omega) (by omega)

theorem parseIpv6_agrees (spec : FuelSpec fuel stop) (ready : Ready p hs pos stop)
    (enough : stop - pos < fuel + 1) :
    Agrees p.buffer stop hs.length .ipv6 pos p (parseIpv6 (fuel + 1) p pos stop) := by
  have format (es : List Extent) (wire : Wire p.buffer stop .ipv6 pos es) : Ipv6Header p.buffer stop pos :=
    (wire_ipv6_iff.mp wire).1
  simp only [parseIpv6, run_pure]
  refine .check format (fun header => by have := header.fits; omega) fun overflows => ?_
  refine .check format (fun header => by have := header.fits; omega) fun long => ?_
  have header : Ipv6Header p.buffer stop pos := ⟨by omega⟩
  simp only [assertThat_ok (Nat.le_add_right 40 _), assertThat_ok (Nat.le_of_not_lt overflows), ok_bind]
  refine Agrees.appendThen (e := ⟨.ipv6, pos, 40, 40 + ipv6PayloadLen p.buffer pos⟩) ready
    (by simp) (by simp only; omega) (fun q => parsed.finishIp p (fun q => { q with ipv6 := some pos }) q
      (40 + ipv6PayloadLen p.buffer pos))
    (fun q => parseLayer4 fuel q (pos + 40) (ipv6NextHeader q.buffer pos)
      (((40 + ipv6PayloadLen p.buffer pos : Nat) : Int) - (40 : Nat)) stop) ?_
    (fun es => wire_ipv6_iff.trans (and_iff_right header)) (fun _ => rfl) _
  rintro q hs' ready' rfl
  rw [← Int.ofNat_sub (by omega), Nat.add_sub_cancel_left]
  exact spec.layer4 ready' (by omega) (by omega)

theorem parseGre_agrees (spec : FuelSpec fuel stop) (ready : Ready p hs pos stop)
    (enough : stop - pos < fuel + 1) (fits : pos + bytes ≤ stop) :
    Agrees p.buffer stop hs.length (.layer4 47 bytes) pos p (parseGre (fuel + 1) p pos bytes stop) := by
  have format (es : List Extent) (wire : Wire p.buffer stop (.layer4 47 bytes) pos es) : GreHeader p.buffer bytes pos :=
    (wire_gre_iff.mp wire).1
  have minimal := greFlagsLen_ge p.buffer pos
  simp only [parseGre, assertThat_ok (Int.natCast_nonneg bytes), ok_bind, run_pure, Int.toNat_natCast,
    assertThat_ok fits]
  refine .check format (fun header => by have := header.contained; omega) fun short => ?_
  refine .check format (fun header => not_not.mpr header.version) fun unsupported => ?_
  refine .check format GreHeader.direct fun routed => ?_
  rw [greLen_ok (by omega) routed, ok_bind, if_neg (by omega)]
  refine .check format (fun header => by have := header.contained; omega) fun big => ?_
  have header : GreHeader p.buffer bytes pos := ⟨by omega, routed, by omega⟩
  have inside : pos + greFlagsLen p.buffer pos ≤ stop := by omega
  simp only [assertThat_ok inside, ok_bind]
  have agrees := Agrees.appendThen (e := ⟨.gre, pos, greFlagsLen p.buffer pos, bytes⟩) ready
    (by simp) inside id
    (fun q => parseLayer3PacketByProto fuel q (greProto q.buffer pos) (pos + greFlagsLen p.buffer pos) stop)
    (fun q hs' ready' eq => by subst eq; exact spec.byProto ready' (by omega))
    (fun es => wire_gre_iff.trans (and_iff_right header)) (fun _ => rfl) "Too many nested headers at GRE header"
  simp only [id, bind_ok_pair] at agrees
  exact agrees

theorem parseMpls_agrees (spec : FuelSpec fuel stop) (ready : Ready p hs pos stop)
    (enough : stop - pos < fuel + 1) :
    Agrees p.buffer stop hs.length .mpls pos p (parseMpls (fuel + 1) p pos stop) := by
  simp only [parseMpls, run_pure]
  cases found : mplsStackEnd p.buffer stop pos with
  | none =>
    refine .reject (by simp) _ fun es wire => ?_
    cases wire with
    | mpls stack next =>
      have fits := next.layer3_fits
      rw [stack.stackEnd (by omega)] at found
      cases found
  | some inner =>
    obtain ⟨after, inside⟩ := mplsStackEnd_bounds found
    have contained : inner - pos ≤ stop - pos := by omega
    simp only [assertThat_ok contained, assertThat_ok inside, ok_bind]
    have chain : ∀ es, Wire p.buffer stop .mpls pos es ↔
        ∃ rest, es = ⟨.mpls, pos, inner - pos, stop - pos⟩ :: rest ∧ Wire p.buffer stop .layer3 inner rest := by
      intro es
      constructor
      · intro wire
        cases wire with
        | mpls stack next =>
          have fits := next.layer3_fits
          rw [stack.stackEnd (by omega)] at found
          cases found
          exact ⟨_, by rw [Nat.add_sub_cancel_left], next⟩
      · rintro ⟨rest, rfl, next⟩
        have fits := next.layer3_fits
        obtain ⟨n, rfl, stack⟩ := mplsStackEnd_stack found (by omega)
        rw [Nat.add_sub_cancel_left]
        exact .mpls stack next
    have agrees := Agrees.appendThen (e := ⟨.mpls, pos, inner - pos, stop - pos⟩) ready
      (by simp) (by simp only; omega) id (fun q => parseLayer3Packet fuel q inner stop)
      (fun q hs' ready' eq => by
        subst eq
        rw [show pos + (inner - pos) = inner by omega] at ready'
        exact spec.layer3 ready' (by omega))
      chain (fun _ => rfl) "Too many nested headers at MPLS header"
    simp only [id, bind_ok_pair] at agrees
    exact agrees

theorem parseLayer3PacketByProto_agrees (spec : FuelSpec fuel stop) (ready : Ready p hs pos stop)
    (enough : stop - pos + 1 < fuel + 1) :
    Agrees p.buffer stop hs.length (.etherType proto) pos p
      (parseLayer3PacketByProto (fuel + 1) p proto pos stop) := by
  have none {q : Packet} (absent : ∀ es, ¬Wire p.buffer stop (.etherType proto) pos es) {result : ParseResult}
      (fails : result ≠ .ok) : Agrees p.buffer stop hs.length (.etherType proto) pos p (.ok (result, q)) :=
    .reject fails q fun es wire => (absent es wire).elim
  simp only [parseLayer3PacketByProto]
  split
  next ip =>
    subst ip
    split
    next short =>
      refine none (fun es wire => ?_) (by simp)
      cases wire with
      | etherIpv4 fits => omega
      | etherMpls mplsProto => omega
    next long =>
      split
      next version =>
        refine (spec.ipv4 ready (by omega)).dispatch fun es => ⟨fun wire => ?_, .etherIpv4 (by omega) version⟩
        cases wire with
        | etherIpv4 fits version next => exact next
        | etherMpls mplsProto => omega
      next version =>
        refine none (fun es wire => ?_) (by simp)
        cases wire with
        | etherIpv4 fits right => exact version right
        | etherMpls mplsProto => omega
  next notIp =>
    split
    next ip6 =>
      subst ip6
      split
      next short =>
        refine none (fun es wire => ?_) (by simp)
        cases wire with
        | etherIpv6 version next =>
          have := (wire_ipv6_iff.mp next).1.fits
          omega
        | etherMpls mplsProto => omega
      next long =>
        split
        next version =>
          refine (spec.ipv6 ready (by omega)).dispatch fun es => ⟨fun wire => ?_, .etherIpv6 version⟩
          cases wire with
          | etherIpv6 version next => exact next
          | etherMpls mplsProto => omega
        next version =>
          refine none (fun es wire => ?_) (by simp)
          cases wire with
          | etherIpv6 right => exact version right
          | etherMpls mplsProto => omega
    next notIp6 =>
      split
      next mplsProto =>
        refine (spec.mpls ready (by omega)).dispatch fun es => ⟨fun wire => ?_, .etherMpls mplsProto⟩
        cases wire with
        | etherIpv4 => exact (notIp rfl).elim
        | etherIpv6 => exact (notIp6 rfl).elim
        | etherMpls _ next => exact next
      next other =>
        refine none (fun es wire => ?_) (by simp)
        cases wire with
        | etherIpv4 => exact notIp rfl
        | etherIpv6 => exact notIp6 rfl
        | etherMpls mplsProto => exact other mplsProto

theorem parseLayer3Packet_agrees (spec : FuelSpec fuel stop) (ready : Ready p hs pos stop)
    (enough : stop - pos + 1 < fuel + 1) :
    Agrees p.buffer stop hs.length .layer3 pos p (parseLayer3Packet (fuel + 1) p pos stop) := by
  simp only [parseLayer3Packet]
  split
  next short => exact .reject (by simp) _ fun es wire => by have := wire.layer3_fits; omega
  next long =>
    split
    next version =>
      refine (spec.ipv4 ready (by omega)).dispatch fun es => ⟨fun wire => ?_, .layer3Ipv4 (by omega) version⟩
      cases wire with
      | layer3Ipv4 _ _ next => exact next
      | layer3Ipv6 six => omega
    next four =>
      split
      next version =>
        refine (spec.ipv6 ready (by omega)).dispatch fun es => ⟨fun wire => ?_, .layer3Ipv6 version⟩
        cases wire with
        | layer3Ipv4 _ right => exact (four right).elim
        | layer3Ipv6 _ next => exact next
      next six =>
        refine .reject (by simp) _ fun es wire => ?_
        cases wire with
        | layer3Ipv4 _ right => exact (four right).elim
        | layer3Ipv6 right => exact (six right).elim

theorem parseLayer4_agrees (spec : FuelSpec fuel stop) (ready : Ready p hs pos stop)
    (enough : stop - pos + 1 < fuel + 1) (fits : pos + bytes ≤ stop) :
    Agrees p.buffer stop hs.length (.layer4 proto bytes) pos p
      (parseLayer4 (fuel + 1) p pos proto bytes stop) := by
  simp only [parseLayer4]
  split
  next isTcp => subst isTcp; exact parseTcp_agrees ready fits
  next notTcp =>
  split
  next isUdp => subst isUdp; exact parseUdp_agrees ready fits
  next notUdp =>
  split
  next isIcmp => subst isIcmp; exact parseIcmpv4_agrees ready fits
  next notIcmp =>
  split
  next isIcmp6 => subst isIcmp6; exact parseIcmpv6_agrees ready fits
  next notIcmp6 =>
  split
  next isGre => subst isGre; exact spec.gre ready (by omega) fits
  next notGre =>
  split
  next isIpip =>
    subst isIpip
    refine (spec.ipv4 ready (by omega)).dispatch fun es => ⟨fun wire => ?_, .ipip⟩
    cases wire with
    | ipip next => exact next
  next notIpip =>
  split
  next isIp6 =>
    subst isIp6
    refine (spec.ipv6 ready (by omega)).dispatch fun es => ⟨fun wire => ?_, .ip6⟩
    cases wire with
    | ip6 next => exact next
  next notIp6 =>
    refine .reject (by simp) _ fun es wire => ?_
    cases wire <;> contradiction

theorem fuelSpec (fuel stop : Nat) : FuelSpec fuel stop := by
  induction fuel with
  | zero => constructor <;> intros <;> omega
  | succ fuel spec =>
    exact ⟨parseIpv4_agrees spec, parseIpv6_agrees spec, parseGre_agrees spec, parseMpls_agrees spec,
      parseLayer3PacketByProto_agrees spec, parseLayer3Packet_agrees spec, parseLayer4_agrees spec⟩

end Recursion

structure Fresh (p : Packet) : Prop where
  layout : Layout p []
  l2HeaderBytes : p.l2HeaderBytes = 0
  ipBytes : p.ipBytes = 0

theorem packetNew_fresh (m : Mem) (n : Nat) : Fresh (packetNew m n) :=
  ⟨packetNew_layout m n, rfl, rfl⟩

def PacketLayer.started (layer : PacketLayer) (p : Packet) : Packet :=
  { p with l2HeaderBytes := layer.headerBytes }

/-- The packet that the header chain `es` of a packet with these bytes is recorded in. -/
def recorded (layer : PacketLayer) (p : Packet) (es : List Extent) : Packet :=
  parsed (layer.started p) es

theorem parseFromLayer_agrees {p : Packet} (fresh : Fresh p) {inBytes : Nat} (buffered : inBytes ≤ p.bufferBytes)
    (layer : PacketLayer) (inside : layer.headerBytes ≤ inBytes) :
    Agrees p.buffer inBytes 0 (layer.expect p.buffer) layer.headerBytes (layer.started p)
      (parseFromLayer layer (inBytes + 2) p inBytes) := by
  have ready : Ready (layer.started p) [] layer.headerBytes inBytes :=
    ⟨⟨fresh.layout.1, fresh.layout.2⟩, by simp [PacketLayer.started, fresh.ipBytes], inside, buffered⟩
  have spec := fuelSpec (inBytes + 2) inBytes
  cases layer with
  | layer2Ethernet =>
    have long : ¬inBytes < 0 + 14 := by simp only [PacketLayer.headerBytes] at inside; omega
    simp only [parseFromLayer, parseLayer2Packet, if_neg long]
    exact spec.byProto ready (by omega)
  | layer3Ip =>
    have same : PacketLayer.started .layer3Ip p = p := by
      simp only [PacketLayer.started, PacketLayer.headerBytes, ← fresh.l2HeaderBytes]
    have agrees := spec.layer3 ready (by omega)
    rw [same] at agrees ⊢
    exact agrees

/-- `parse_packet` returns, and says `PACKET_OK` exactly for the chains of headers that fit the
table; the packet then records the chain. -/
theorem parsePacket_spec {p : Packet} (fresh : Fresh p) {inBytes : Nat} (buffered : inBytes ≤ p.bufferBytes)
    (layer : PacketLayer) :
    ∃ result q, parsePacket p inBytes layer = .ok (result, q) ∧
      (result = .ok → ∃ es, WirePacket p.buffer inBytes layer es ∧ es.length ≤ packetMaxHeaders) ∧
      ∀ es, WirePacket p.buffer inBytes layer es → es.length ≤ packetMaxHeaders →
        result = .ok ∧ q = recorded layer p es := by
  simp only [parsePacket, assertThat_ok buffered, ok_bind, run_pure]
  by_cases inside : layer.headerBytes ≤ inBytes
  · obtain ⟨result, q, returned, sound, complete⟩ := parseFromLayer_agrees fresh buffered layer inside
    simp only [Nat.zero_add] at sound complete
    rw [returned, ok_bind]
    cases result with
    | bad message =>
      refine ⟨_, q, rfl, by simp, fun es wire fits => ?_⟩
      exact absurd (complete es wire.2 fits).1 (by simp)
    | ok =>
      refine ⟨.ok, q, rfl, fun _ => ?_, fun es wire fits => complete es wire.2 fits⟩
      obtain ⟨es, wire, fits⟩ := sound rfl
      exact ⟨es, ⟨inside, wire⟩, fits⟩
    | unknownL4 =>
      refine ⟨.unknownL4, q, rfl, by simp, fun es wire fits => complete es wire.2 fits⟩
  · cases layer with
    | layer2Ethernet =>
      have short : inBytes < 0 + 14 := by simp only [PacketLayer.headerBytes] at inside; omega
      simp only [parseFromLayer, parseLayer2Packet, if_pos short, ok_bind]
      exact ⟨_, p, rfl, by simp, fun es wire => absurd wire.1 inside⟩
    | layer3Ip => exact absurd (Nat.zero_le _) inside

theorem parsePacket_ok_iff {p q : Packet} (fresh : Fresh p) {inBytes : Nat} (buffered : inBytes ≤ p.bufferBytes)
    {layer : PacketLayer} :
    parsePacket p inBytes layer = .ok (.ok, q) ↔
      ∃ es, WirePacket p.buffer inBytes layer es ∧ es.length ≤ packetMaxHeaders ∧ q = recorded layer p es := by
  obtain ⟨result, r, returned, sound, complete⟩ := parsePacket_spec fresh buffered layer
  rw [returned]
  constructor
  · intro same
    cases same
    obtain ⟨es, wire, fits⟩ := sound rfl
    exact ⟨es, wire, fits, (complete es wire fits).2⟩
  · rintro ⟨es, wire, fits, rfl⟩
    obtain ⟨rfl, rfl⟩ := complete es wire fits
    rfl

end TcpFuzz
