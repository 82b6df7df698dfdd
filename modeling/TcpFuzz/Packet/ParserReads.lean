import TcpFuzz.Packet.Scan

/-! The parser looks at a byte that was not received only at an IPv4 header inside another IP header that ends where
the packet ends. -/

namespace TcpFuzz
open Bytes Mem Peek

/-- A chain of headers that fits the table and leads to an IPv4 header at the very end of the packet; `n`
headers are recorded before. -/
inductive RunsOut (m : Mem) (stop : Nat) : Expect → Nat → Nat → Prop where
  | here {n} : RunsOut m stop .ipv4 stop n
  | ipv4 {p n} (header : Ipv4Header m stop p) (room : n < packetMaxHeaders)
      (next : RunsOut m stop (.layer4 (ipv4Protocol m p) (ipv4TotLen m p - ipv4HeaderLen m p))
        (p + ipv4HeaderLen m p) (n + 1)) : RunsOut m stop .ipv4 p n
  | ipv6 {p n} (header : Ipv6Header m stop p) (room : n < packetMaxHeaders)
      (next : RunsOut m stop (.layer4 (ipv6NextHeader m p) (ipv6PayloadLen m p)) (p + 40) (n + 1)) :
      RunsOut m stop .ipv6 p n
  | mpls {p n k} (stack : LabelStack m p k) (room : n < packetMaxHeaders)
      (next : RunsOut m stop .layer3 (p + 4 * (k + 1)) (n + 1)) : RunsOut m stop .mpls p n
  | layer3Ipv4 {p n} (fits : p + 20 ≤ stop) (version : ipVersion m p = 4)
      (next : RunsOut m stop .ipv4 p n) : RunsOut m stop .layer3 p n
  | layer3Ipv6 {p n} (version : ipVersion m p = 6) (next : RunsOut m stop .ipv6 p n) : RunsOut m stop .layer3 p n
  | etherIpv4 {p n} (fits : p + 20 ≤ stop) (version : ipVersion m p = 4)
      (next : RunsOut m stop .ipv4 p n) : RunsOut m stop (.etherType 0x0800) p n
  | etherIpv6 {p n} (version : ipVersion m p = 6) (next : RunsOut m stop .ipv6 p n) :
      RunsOut m stop (.etherType 0x86dd) p n
  | etherMpls {p n proto} (mplsProto : proto = 0x8847 ∨ proto = 0x8848) (next : RunsOut m stop .mpls p n) :
      RunsOut m stop (.etherType proto) p n
  | gre {p n bytes} (header : GreHeader m bytes p) (room : n < packetMaxHeaders)
      (next : RunsOut m stop (.etherType (greProto m p)) (p + greFlagsLen m p) (n + 1)) :
      RunsOut m stop (.layer4 47 bytes) p n
  | ipip {p n bytes} (next : RunsOut m stop .ipv4 p n) : RunsOut m stop (.layer4 4 bytes) p n
  | ip6 {p n bytes} (next : RunsOut m stop .ipv6 p n) : RunsOut m stop (.layer4 41 bytes) p n

def Beyond {α : Type} (m : Mem) (stop : Nat) (scan : Scan α) : Prop := Sees m scan (stop ≤ ·)

section Beyond

variable {α β : Type} {m : Mem} {stop : Nat}

theorem beyond_pure (a : α) : ¬Beyond m stop (pure a : Scan α) := not_sees_pure a

theorem beyond_byteAt {i : Nat} {f : Nat → Scan α} (inside : i < stop) :
    Beyond m stop (byteAt i >>= f) ↔ Beyond m stop (f (m.get8 i)) :=
  sees_bind_iff (eval_byteAt m i) (by rintro ⟨j, member, behind⟩; cases List.mem_singleton.mp member; omega)

theorem beyond_be16At {i : Nat} {f : Nat → Scan α} (inside : i + 1 < stop) :
    Beyond m stop (be16At i >>= f) ↔ Beyond m stop (f (m.be16 i)) :=
  sees_bind_iff (eval_be16At m i) (by
    rintro ⟨j, member, behind⟩
    have cells : looks m (be16At i) = [i, i + 1] := rfl
    rw [cells] at member
    simp at member
    omega)

theorem beyond_be32At {i : Nat} {f : Nat → Scan α} (inside : i + 3 < stop) :
    Beyond m stop (be32At i >>= f) ↔ Beyond m stop (f (m.be32 i)) :=
  sees_bind_iff (eval_be32At m i) (by
    rintro ⟨j, member, behind⟩
    have cells : looks m (be32At i) = [i, i + 1, i + 2, i + 2 + 1] := rfl
    rw [cells] at member
    simp at member
    omega)

theorem looks_bytesAt (i n : Nat) : looks m (bytesAt i n) = (List.range n).map (i + ·) := by
  induction n generalizing i with
  | zero => rfl
  | succ n ih =>
    rw [bytesAt, looks_bind, looks_look, eval_look]
    simp [looks_bind, eval_bytesAt, ih, Except.toOption, List.range_succ_eq_map, Function.comp_def, Nat.add_assoc,
      Nat.add_comm 1]

theorem beyond_bytesAt {i n : Nat} {f : List UInt8 → Scan α} (inside : i + n ≤ stop) :
    Beyond m stop (bytesAt i n >>= f) ↔ Beyond m stop (f (m.bytes i n)) :=
  sees_bind_iff (eval_bytesAt m i n) (by
    rintro ⟨j, member, behind⟩
    rw [looks_bytesAt] at member
    obtain ⟨k, below, rfl⟩ := List.mem_map.mp member
    have := List.mem_range.mp below
    omega)

theorem beyond_lift {run : Run β} {b : β} {f : β → Scan α} (returned : run = .ok b) :
    Beyond m stop (Peek.lift run >>= f) ↔ Beyond m stop (f b) :=
  sees_bind_iff ((eval_lift m run).trans returned) (not_sees_lift run)

theorem beyond_guard {c : Prop} [Decidable c] {a : α} {scan : Scan α} :
    Beyond m stop (if c then pure a else scan) ↔ ¬c ∧ Beyond m stop scan := by
  by_cases holds : c
  · rw [if_pos holds]
    exact ⟨fun beyond => absurd beyond (beyond_pure a), fun beyond => absurd holds beyond.1⟩
  · rw [if_neg holds]
    exact (and_iff_right holds).symm

theorem beyond_check {c header rest : Prop} [Decidable c] {a : α} {scan : Scan α} (passes : header → ¬c)
    (goesOn : ¬c → (Beyond m stop scan ↔ header ∧ rest)) : Beyond m stop (if c then pure a else scan) ↔ header ∧ rest := by
  rw [beyond_guard]
  exact ⟨fun ⟨passed, beyond⟩ => (goesOn passed).mp beyond,
    fun right => ⟨passes right.1, (goesOn (passes right.1)).mpr right⟩⟩

theorem beyond_scanGreLen {gre : Nat} {f : Nat → Scan α} (version : greVersion m gre = 0)
    (direct : ¬greHasRouting m gre) (inside : gre + 1 < stop) :
    Beyond m stop (scanGreLen gre >>= f) ↔ Beyond m stop (f (greFlagsLen m gre)) := by
  refine sees_bind_iff ((eval_scanGreLen m gre).trans (greLen_ok version direct)) ?_
  show ¬Beyond m stop _
  simp only [scanGreLen]
  rw [beyond_byteAt inside, beyond_lift (assertThat_ok (by exact version)), beyond_byteAt (by omega),
    beyond_lift (assertThat_ok (by exact direct))]
  exact beyond_pure _

theorem beyond_scanStackEnd (p : Nat) {f : Option Nat → Scan α} :
    Beyond m stop (scanStackEnd stop p >>= f) ↔ Beyond m stop (f (mplsStackEnd m stop p)) := by
  refine sees_bind_iff (eval_scanStackEnd m stop p) ?_
  show ¬Beyond m stop _
  fun_induction scanStackEnd stop p with
  | case1 p short => exact beyond_pure _
  | case2 p fits ih =>
    rw [beyond_be32At (by omega)]
    split
    next more => exact ih _ more
    next last => exact beyond_pure _

theorem Ready.beyond_append {e : Packet} {hs : List Header} {pos : Nat} (ready : Ready e hs pos stop)
    (type : HeaderType) {headerBytes : Nat} (fits : pos + headerBytes ≤ stop)
    {f : Option (Packet × Nat) → Scan α} (full : ¬Beyond m stop (f none)) :
    Beyond m stop (Peek.lift (packetAppendHeader e type headerBytes) >>= f) ↔
      hs.length < packetMaxHeaders ∧ Beyond m stop (f (some (appended e type headerBytes 0, hs.length))) := by
  have room := ready.layout.length_le
  rw [beyond_lift (ready.appendHeader type fits)]
  by_cases all : hs.length = packetMaxHeaders
  · rw [if_pos all]
    exact ⟨fun beyond => absurd beyond full, fun beyond => by omega⟩
  · rw [if_neg all]
    exact (and_iff_right (by omega)).symm

end Beyond

section Transport

variable {m : Mem} {stop pos bytes : Nat} {e : Packet} {hs : List Header}

theorem scanTcp_inside (ready : Ready e hs pos stop) (fits : pos + bytes ≤ stop) :
    ¬Beyond m stop (scanTcp e pos bytes stop) := by
  simp only [scanTcp]
  rw [beyond_lift (assertThat_ok (Int.natCast_nonneg bytes)), beyond_guard]
  rintro ⟨long, beyond⟩
  rw [beyond_byteAt (by omega), beyond_guard, beyond_guard] at beyond
  obtain ⟨large, contained, beyond⟩ := beyond
  have ready' : Ready { e with tcp := some pos } hs pos stop := ⟨⟨ready.1.1, ready.1.2⟩, ready.2, ready.3, ready.4⟩
  obtain ⟨-, beyond⟩ := (ready'.beyond_append .tcp (by omega) (by exact beyond_pure _)).mp beyond
  rw [Int.toNat_natCast, beyond_lift (assertThat_ok fits)] at beyond
  exact beyond_pure _ beyond

theorem scanUdp_inside (ready : Ready e hs pos stop) (fits : pos + bytes ≤ stop) :
    ¬Beyond m stop (scanUdp e pos bytes stop) := by
  simp only [scanUdp]
  rw [beyond_lift (assertThat_ok (Int.natCast_nonneg bytes)), beyond_guard]
  rintro ⟨long, beyond⟩
  rw [beyond_be16At (by omega), beyond_guard, beyond_guard, beyond_guard] at beyond
  obtain ⟨-, -, -, beyond⟩ := beyond
  have ready' : Ready { e with udp := some pos } hs pos stop := ⟨⟨ready.1.1, ready.1.2⟩, ready.2, ready.3, ready.4⟩
  obtain ⟨-, beyond⟩ := (ready'.beyond_append .udp (by omega) (by exact beyond_pure _)).mp beyond
  rw [Int.toNat_natCast, beyond_lift (assertThat_ok fits)] at beyond
  exact beyond_pure _ beyond

theorem scanIcmp_inside {type : HeaderType} {truncated : String} {setPtr : Packet → Nat → Packet}
    (ready : Ready (setPtr e pos) hs pos stop) (fits : pos + bytes ≤ stop) :
    ¬Beyond m stop (scanIcmp type truncated setPtr e pos bytes stop) := by
  simp only [scanIcmp]
  rw [beyond_lift (assertThat_ok (Int.natCast_nonneg bytes)), beyond_guard]
  rintro ⟨long, beyond⟩
  obtain ⟨-, beyond⟩ := (ready.beyond_append type (by omega) (by exact beyond_pure _)).mp beyond
  rw [Int.toNat_natCast, beyond_lift (assertThat_ok fits)] at beyond
  exact beyond_pure _ beyond

end Transport

theorem RunsOut.layer3_fits {m : Mem} {stop pos n : Nat} (out : RunsOut m stop .layer3 pos n) : pos + 20 ≤ stop := by
  cases out with
  | layer3Ipv4 fits => exact fits
  | layer3Ipv6 version next =>
    cases next with
    | ipv6 header =>
      have := header.fits
      omega

/-- With `fuel` units the scans look behind the end of a packet that ends at `stop` exactly where the chain
of headers runs out. -/
structure LooksSpec (m : Mem) (fuel stop : Nat) : Prop where
  ipv4 : ∀ {e hs pos}, Ready e hs pos stop → stop - pos < fuel →
    (Beyond m stop (scanIpv4 fuel e pos stop) ↔ RunsOut m stop .ipv4 pos hs.length)
  ipv6 : ∀ {e hs pos}, Ready e hs pos stop → stop - pos < fuel →
    (Beyond m stop (scanIpv6 fuel e pos stop) ↔ RunsOut m stop .ipv6 pos hs.length)
  gre : ∀ {e hs pos bytes}, Ready e hs pos stop → stop - pos < fuel → pos + bytes ≤ stop →
    (Beyond m stop (scanGre fuel e pos (bytes : Nat) stop) ↔ RunsOut m stop (.layer4 47 bytes) pos hs.length)
  mpls : ∀ {e hs pos}, Ready e hs pos stop → stop - pos < fuel →
    (Beyond m stop (scanMpls fuel e pos stop) ↔ RunsOut m stop .mpls pos hs.length)
  byProto : ∀ {e hs pos proto}, Ready e hs pos stop → stop - pos + 1 < fuel →
    (Beyond m stop (scanLayer3PacketByProto fuel e proto pos stop) ↔ RunsOut m stop (.etherType proto) pos hs.length)
  layer3 : ∀ {e hs pos}, Ready e hs pos stop → stop - pos + 1 < fuel →
    (Beyond m stop (scanLayer3Packet fuel e pos stop) ↔ RunsOut m stop .layer3 pos hs.length)
  layer4 : ∀ {e hs pos proto bytes}, Ready e hs pos stop → stop - pos + 1 < fuel → pos + bytes ≤ stop →
    (Beyond m stop (scanLayer4 fuel e pos proto (bytes : Nat) stop) ↔
      RunsOut m stop (.layer4 proto bytes) pos hs.length)

section Recursion

variable {m : Mem} {fuel stop pos bytes proto : Nat} {e : Packet} {hs : List Header}

theorem runsOut_ipv4_iff {n : Nat} : RunsOut m stop .ipv4 pos n ↔ pos = stop ∨
    Ipv4Header m stop pos ∧ n < packetMaxHeaders ∧
      RunsOut m stop (.layer4 (ipv4Protocol m pos) (ipv4TotLen m pos - ipv4HeaderLen m pos))
        (pos + ipv4HeaderLen m pos) (n + 1) := by
  constructor
  · intro out
    cases out with
    | here => exact .inl rfl
    | ipv4 header room next => exact .inr ⟨header, room, next⟩
  · rintro (rfl | ⟨header, room, next⟩)
    · exact .here
    · exact .ipv4 header room next

theorem runsOut_ipv6_iff {n : Nat} : RunsOut m stop .ipv6 pos n ↔ Ipv6Header m stop pos ∧ n < packetMaxHeaders ∧
    RunsOut m stop (.layer4 (ipv6NextHeader m pos) (ipv6PayloadLen m pos)) (pos + 40) (n + 1) := by
  constructor
  · intro out
    cases out with
    | ipv6 header room next => exact ⟨header, room, next⟩
  · rintro ⟨header, room, next⟩
    exact .ipv6 header room next

theorem runsOut_gre_iff {n : Nat} : RunsOut m stop (.layer4 47 bytes) pos n ↔
    GreHeader m bytes pos ∧ n < packetMaxHeaders ∧
      RunsOut m stop (.etherType (greProto m pos)) (pos + greFlagsLen m pos) (n + 1) := by
  constructor
  · intro out
    cases out with
    | gre header room next => exact ⟨header, room, next⟩
  · rintro ⟨header, room, next⟩
    exact .gre header room next

theorem Ready.more (ready : Ready e hs pos stop) (room : hs.length < packetMaxHeaders) {type : HeaderType}
    (used : type ≠ .none) {headerBytes : Nat} (total : Nat) (fits : pos + headerBytes ≤ stop) :
    ∃ hs', hs'.length = hs.length + 1 ∧ Ready (appended e type headerBytes total) hs' (pos + headerBytes) stop :=
  ⟨_, List.length_append, ready.append room used total fits⟩

theorem scanIpv4_looks (spec : LooksSpec m fuel stop) (ready : Ready e hs pos stop) (enough : stop - pos < fuel + 1) :
    Beyond m stop (scanIpv4 (fuel + 1) e pos stop) ↔ RunsOut m stop .ipv4 pos hs.length := by
  have inside := ready.inside
  simp only [scanIpv4]
  by_cases atEnd : pos = stop
  · -- the first byte of the header is looked at before any check
    subst atEnd
    exact iff_of_true (Sees.bind ⟨pos, List.mem_cons_self, Nat.le_refl pos⟩) .here
  rw [runsOut_ipv4_iff, or_iff_right atEnd, beyond_byteAt (by omega),
    show m.get8 pos % 16 * 4 = ipv4HeaderLen m pos from rfl]
  refine beyond_check (fun header => by have := header.long; omega) fun short => ?_
  refine beyond_check (fun header => by have := header.contained; have := header.fits; omega) fun overflows => ?_
  rw [beyond_be16At (by omega), show m.be16 (pos + 2) = ipv4TotLen m pos from rfl]
  refine beyond_check (fun header => by have := header.fits; omega) fun long => ?_
  refine beyond_check (fun header => by have := header.contained; omega) fun bigger => ?_
  rw [beyond_be16At (by omega), show m.be16 (pos + 6) = ipv4FragOff m pos from rfl]
  refine beyond_check (fun header => by have := header.whole; omega) fun more => ?_
  refine beyond_check (fun header => by have := header.whole; omega) fun offset => ?_
  rw [beyond_bytesAt (by omega)]
  have header : Ipv4Header m stop pos := ⟨by omega, by omega, by omega, by omega⟩
  rw [and_iff_right header]
  refine (ready.beyond_append .ipv4 (by omega) (by exact beyond_pure _)).trans (and_congr_right fun room => ?_)
  simp only [ready.layout.setTotalBytes]
  rw [beyond_lift (assertThat_ok (by omega)), beyond_byteAt (by omega)]
  refine (sees_bind_quiet fun r => by exact beyond_pure _).trans ?_
  obtain ⟨hs', length, ready'⟩ := ready.more room (show HeaderType.ipv4 ≠ .none by simp) (ipv4TotLen m pos)
    (Nat.le_of_not_lt overflows)
  rw [← length, ← Int.ofNat_sub (by omega)]
  exact spec.layer4 ready' (by omega) (by omega)

theorem scanIpv6_looks (spec : LooksSpec m fuel stop) (ready : Ready e hs pos stop) (enough : stop - pos < fuel + 1) :
    Beyond m stop (scanIpv6 (fuel + 1) e pos stop) ↔ RunsOut m stop .ipv6 pos hs.length := by
  simp only [scanIpv6]
  rw [runsOut_ipv6_iff]
  refine beyond_check (fun header => by have := header.fits; omega) fun overflows => ?_
  rw [beyond_be16At (by omega), show m.be16 (pos + 4) = ipv6PayloadLen m pos from rfl]
  refine beyond_check (fun header => by have := header.fits; omega) fun long => ?_
  rw [beyond_lift (assertThat_ok (by omega))]
  have header : Ipv6Header m stop pos := ⟨by omega⟩
  rw [and_iff_right header]
  refine (ready.beyond_append .ipv6 (by omega) (by exact beyond_pure _)).trans (and_congr_right fun room => ?_)
  simp only [ready.layout.setTotalBytes]
  rw [beyond_lift (assertThat_ok (by omega)), beyond_byteAt (by omega)]
  refine (sees_bind_quiet fun r => by exact beyond_pure _).trans ?_
  obtain ⟨hs', length, ready'⟩ := ready.more room (show HeaderType.ipv6 ≠ .none by simp) (40 + ipv6PayloadLen m pos)
    (Nat.le_of_not_lt overflows)
  rw [← length, ← Int.ofNat_sub (by omega), Nat.add_sub_cancel_left]
  exact spec.layer4 ready' (by omega) (by omega)

theorem scanGre_looks (spec : LooksSpec m fuel stop) (ready : Ready e hs pos stop) (enough : stop - pos < fuel + 1)
    (fits : pos + bytes ≤ stop) :
    Beyond m stop (scanGre (fuel + 1) e pos bytes stop) ↔ RunsOut m stop (.layer4 47 bytes) pos hs.length := by
  have minimal := greFlagsLen_ge m pos
  simp only [scanGre]
  rw [runsOut_gre_iff, beyond_lift (assertThat_ok (Int.natCast_nonneg bytes))]
  refine beyond_check (fun header => by have := header.contained; omega) fun short => ?_
  rw [beyond_byteAt (by omega), show m.get8 (pos + 1) % 8 = greVersion m pos from rfl]
  refine beyond_check (fun header => not_not.mpr header.version) fun unsupported => ?_
  rw [beyond_byteAt (by omega)]
  refine beyond_check GreHeader.direct fun routed => ?_
  have version : greVersion m pos = 0 := by omega
  rw [beyond_scanGreLen version routed (by omega), if_neg (by omega)]
  refine beyond_check (fun header => by have := header.contained; omega) fun big => ?_
  rw [Int.toNat_natCast, beyond_lift (assertThat_ok fits)]
  have header : GreHeader m bytes pos := ⟨version, routed, by omega⟩
  have inside : pos + greFlagsLen m pos ≤ stop := by omega
  rw [and_iff_right header]
  refine (ready.beyond_append .gre inside (by exact beyond_pure _)).trans (and_congr_right fun room => ?_)
  simp only [ready.layout.setTotalBytes]
  rw [beyond_lift (assertThat_ok inside), beyond_be16At (by omega)]
  obtain ⟨hs', length, ready'⟩ := ready.more room (show HeaderType.gre ≠ .none by simp) bytes inside
  rw [← length]
  exact spec.byProto ready' (by omega)

theorem scanMpls_looks (spec : LooksSpec m fuel stop) (ready : Ready e hs pos stop) (enough : stop - pos < fuel + 1) :
    Beyond m stop (scanMpls (fuel + 1) e pos stop) ↔ RunsOut m stop .mpls pos hs.length := by
  simp only [scanMpls]
  rw [beyond_scanStackEnd]
  cases found : mplsStackEnd m stop pos with
  | none =>
    refine iff_of_false (beyond_pure _) fun out => ?_
    cases out with
    | mpls stack room next =>
      have fits := next.layer3_fits
      rw [stack.stackEnd (by omega)] at found
      cases found
  | some inner =>
    obtain ⟨after, inside⟩ := mplsStackEnd_bounds found
    have whole : pos + (inner - pos) = inner := by omega
    rw [beyond_lift (assertThat_ok (by omega))]
    have chain : RunsOut m stop .mpls pos hs.length ↔
        hs.length < packetMaxHeaders ∧ RunsOut m stop .layer3 inner (hs.length + 1) := by
      constructor
      · intro out
        cases out with
        | mpls stack room next =>
          have fits := next.layer3_fits
          rw [stack.stackEnd (by omega)] at found
          cases found
          exact ⟨room, next⟩
      · rintro ⟨room, next⟩
        have fits := next.layer3_fits
        obtain ⟨n, rfl, stack⟩ := mplsStackEnd_stack found (by omega)
        exact .mpls stack room next
    rw [chain]
    refine (ready.beyond_append .mpls (by omega) (by exact beyond_pure _)).trans (and_congr_right fun room => ?_)
    simp only [ready.layout.setTotalBytes]
    rw [beyond_lift (assertThat_ok inside)]
    obtain ⟨hs', length, ready'⟩ := ready.more room (show HeaderType.mpls ≠ .none by simp) (stop - pos)
      (show pos + (inner - pos) ≤ stop by omega)
    rw [whole] at ready'
    rw [← length]
    exact spec.layer3 ready' (by omega)

theorem scanLayer3PacketByProto_looks (spec : LooksSpec m fuel stop) (ready : Ready e hs pos stop)
    (enough : stop - pos + 1 < fuel + 1) :
    Beyond m stop (scanLayer3PacketByProto (fuel + 1) e proto pos stop) ↔
      RunsOut m stop (.etherType proto) pos hs.length := by
  simp only [scanLayer3PacketByProto]
  split
  next ip =>
    subst ip
    have only : RunsOut m stop (.etherType 0x0800) pos hs.length ↔
        ¬stop < pos + 20 ∧ ipVersion m pos = 4 ∧ RunsOut m stop .ipv4 pos hs.length := by
      constructor
      · intro out
        cases out with
        | etherIpv4 fits version next => exact ⟨by omega, version, next⟩
        | etherMpls mplsProto => omega
      · rintro ⟨fits, version, next⟩
        exact .etherIpv4 (by omega) version next
    rw [only, beyond_guard]
    refine and_congr_right fun fits => ?_
    rw [beyond_byteAt (by omega)]
    by_cases version : ipVersion m pos = 4
    · rw [if_pos (show m.get8 pos / 16 = 4 from version), and_iff_right version]
      exact spec.ipv4 ready (by omega)
    · rw [if_neg (show ¬m.get8 pos / 16 = 4 from version)]
      exact iff_of_false (beyond_pure _) fun right => version right.1
  next notIp =>
    split
    next ip6 =>
      subst ip6
      have only : RunsOut m stop (.etherType 0x86dd) pos hs.length ↔
          ¬stop < pos + 40 ∧ ipVersion m pos = 6 ∧ RunsOut m stop .ipv6 pos hs.length := by
        constructor
        · intro out
          cases out with
          | etherIpv6 version next =>
            have := (runsOut_ipv6_iff.mp next).1.fits
            exact ⟨by omega, version, next⟩
          | etherMpls mplsProto => omega
        · rintro ⟨fits, version, next⟩
          exact .etherIpv6 version next
      rw [only, beyond_guard]
      refine and_congr_right fun fits => ?_
      rw [beyond_byteAt (by omega)]
      by_cases version : ipVersion m pos = 6
      · rw [if_pos (show m.get8 pos / 16 = 6 from version), and_iff_right version]
        exact spec.ipv6 ready (by omega)
      · rw [if_neg (show ¬m.get8 pos / 16 = 6 from version)]
        exact iff_of_false (beyond_pure _) fun right => version right.1
    next notIp6 =>
      split
      next mplsProto =>
        refine (spec.mpls ready (by omega)).trans ⟨.etherMpls mplsProto, fun out => ?_⟩
        cases out with
        | etherIpv4 => exact (notIp rfl).elim
        | etherIpv6 => exact (notIp6 rfl).elim
        | etherMpls _ next => exact next
      next other =>
        refine iff_of_false (beyond_pure _) fun out => ?_
        cases out with
        | etherIpv4 => exact notIp rfl
        | etherIpv6 => exact notIp6 rfl
        | etherMpls mplsProto => exact other mplsProto

theorem scanLayer3Packet_looks (spec : LooksSpec m fuel stop) (ready : Ready e hs pos stop)
    (enough : stop - pos + 1 < fuel + 1) :
    Beyond m stop (scanLayer3Packet (fuel + 1) e pos stop) ↔ RunsOut m stop .layer3 pos hs.length := by
  simp only [scanLayer3Packet]
  by_cases short : stop < pos + 20
  · rw [if_pos short]
    exact iff_of_false (beyond_pure _) fun out => by have := out.layer3_fits; omega
  rw [if_neg short, beyond_byteAt (by omega), show m.get8 pos / 16 = ipVersion m pos from rfl]
  split
  next version =>
    refine (spec.ipv4 ready (by omega)).trans ⟨.layer3Ipv4 (by omega) version, fun out => ?_⟩
    cases out with
    | layer3Ipv4 _ _ next => exact next
    | layer3Ipv6 six => omega
  next four =>
    split
    next version =>
      refine (spec.ipv6 ready (by omega)).trans ⟨.layer3Ipv6 version, fun out => ?_⟩
      cases out with
      | layer3Ipv4 _ right => exact (four right).elim
      | layer3Ipv6 _ next => exact next
    next six =>
      refine iff_of_false (beyond_pure _) fun out => ?_
      cases out with
      | layer3Ipv4 _ right => exact (four right).elim
      | layer3Ipv6 right => exact (six right).elim

theorem scanLayer4_looks (spec : LooksSpec m fuel stop) (ready : Ready e hs pos stop)
    (enough : stop - pos + 1 < fuel + 1) (fits : pos + bytes ≤ stop) :
    Beyond m stop (scanLayer4 (fuel + 1) e pos proto bytes stop) ↔
      RunsOut m stop (.layer4 proto bytes) pos hs.length := by
  have marked {e' : Packet} (same : e'.headers = e.headers) (l2 : e'.l2HeaderBytes = e.l2HeaderBytes)
      (ip : e'.ipBytes = e.ipBytes) (buffered : e'.bufferBytes = e.bufferBytes) : Ready e' hs pos stop :=
    ⟨⟨by rw [same]; exact ready.1.1, ready.1.2⟩, by rw [l2, ip]; exact ready.2, ready.3, by rw [buffered]; exact ready.4⟩
  simp only [scanLayer4]
  split
  next isTcp => subst isTcp; exact iff_of_false (scanTcp_inside ready fits) (by rintro ⟨⟩)
  next notTcp =>
  split
  next isUdp => subst isUdp; exact iff_of_false (scanUdp_inside ready fits) (by rintro ⟨⟩)
  next notUdp =>
  split
  next isIcmp => subst isIcmp; exact iff_of_false (scanIcmp_inside (marked rfl rfl rfl rfl) fits) (by rintro ⟨⟩)
  next notIcmp =>
  split
  next isIcmp6 => subst isIcmp6; exact iff_of_false (scanIcmp_inside (marked rfl rfl rfl rfl) fits) (by rintro ⟨⟩)
  next notIcmp6 =>
  split
  next isGre => subst isGre; exact spec.gre ready (by omega) fits
  next notGre =>
  split
  next isIpip =>
    subst isIpip
    refine (spec.ipv4 ready (by omega)).trans ⟨.ipip, fun out => ?_⟩
    cases out with
    | ipip next => exact next
  next notIpip =>
  split
  next isIp6 =>
    subst isIp6
    refine (spec.ipv6 ready (by omega)).trans ⟨.ip6, fun out => ?_⟩
    cases out with
    | ip6 next => exact next
  next notIp6 =>
    refine iff_of_false (beyond_pure _) fun out => ?_
    cases out <;> contradiction

theorem looksSpec (m : Mem) (fuel stop : Nat) : LooksSpec m fuel stop := by
  induction fuel with
  | zero => constructor <;> intros <;> omega
  | succ fuel spec =>
    exact ⟨scanIpv4_looks spec, scanIpv6_looks spec, scanGre_looks spec, scanMpls_looks spec,
      scanLayer3PacketByProto_looks spec, scanLayer3Packet_looks spec, scanLayer4_looks spec⟩

end Recursion

/-- The headers of a packet of `stop` bytes lead to an IPv4 header at its very end. -/
def RunsOutPacket (m : Mem) (stop : Nat) (layer : PacketLayer) : Prop :=
  layer.headerBytes ≤ stop ∧ RunsOut m stop (layer.expect m) layer.headerBytes 0

theorem scanFromLayer_looks {m : Mem} {p : Packet} (fresh : Fresh p) {inBytes : Nat}
    (buffered : inBytes ≤ p.bufferBytes) (layer : PacketLayer) :
    Beyond m inBytes (scanFromLayer layer (inBytes + 2) p inBytes) ↔ RunsOutPacket m inBytes layer := by
  have spec := looksSpec m (inBytes + 2) inBytes
  cases layer with
  | layer2Ethernet =>
    simp only [scanFromLayer, RunsOutPacket, PacketLayer.headerBytes, PacketLayer.expect]
    rw [beyond_guard, Nat.not_lt]
    refine and_congr_right fun inside => ?_
    have ready : Ready { p with l2HeaderBytes := 14 } [] 14 inBytes :=
      ⟨⟨fresh.layout.1, fresh.layout.2⟩, by simp [fresh.ipBytes], inside, buffered⟩
    rw [beyond_be16At (by omega)]
    exact spec.byProto ready (by omega)
  | layer3Ip =>
    have ready : Ready p [] 0 inBytes :=
      ⟨fresh.layout, by simp [fresh.ipBytes, fresh.l2HeaderBytes], Nat.zero_le _, buffered⟩
    exact (spec.layer3 ready (by omega)).trans (and_iff_right (Nat.zero_le _)).symm

theorem scanPacket_looks {m : Mem} {p : Packet} (fresh : Fresh p) (inBytes : Nat) (layer : PacketLayer) :
    Beyond m inBytes (scanPacket p inBytes layer) ↔ inBytes ≤ p.bufferBytes ∧ RunsOutPacket m inBytes layer := by
  simp only [scanPacket]
  by_cases buffered : inBytes ≤ p.bufferBytes
  · rw [beyond_lift (assertThat_ok buffered), and_iff_right buffered, ← scanFromLayer_looks fresh buffered]
    refine sees_bind_quiet fun r => ?_
    -- the dump of an error text stays inside the packet
    obtain ⟨result, q⟩ := r
    cases result with
    | bad message =>
      show ¬Beyond m inBytes _
      rw [beyond_bytesAt (by omega)]
      exact beyond_pure _
    | ok => exact beyond_pure _
    | unknownL4 => exact beyond_pure _
  · refine iff_of_false ?_ fun right => buffered right.1
    rw [assertThat, if_neg buffered]
    rintro ⟨i, member, -⟩
    cases member

theorem parsePacket_congr {p : Packet} {inBytes : Nat} {layer : PacketLayer} {m : Mem}
    (same : ∀ i ∈ looks p.buffer (scanPacket p inBytes layer), m i = p.buffer i) :
    (parsePacket (withBuffer m p) inBytes layer).map (fun r => (r.1, withBuffer p.buffer r.2)) =
      parsePacket p inBytes layer := by
  have here : _ = parsePacket p inBytes layer := scanPacket_follows p.buffer p inBytes layer
  have there : _ = parsePacket (withBuffer m p) inBytes layer := scanPacket_follows m p inBytes layer
  rw [← there, ← here, eval_congr same]
  cases (scanPacket p inBytes layer).eval p.buffer with
  | error => rfl
  | ok r => rfl

/-- The parser looks at no byte behind the packet, and so depends on none, exactly when no chain of headers
leads to an IPv4 header at the packet's end: that header's first byte is read before it is known to be there. -/
theorem parsePacket_looks_inside_iff {p : Packet} (fresh : Fresh p) (inBytes : Nat) (layer : PacketLayer) :
    (∀ m, Follows m (scanPacket p inBytes layer) (parsePacket (withBuffer m p) inBytes layer)) ∧
    (((∀ i ∈ looks p.buffer (scanPacket p inBytes layer), i < inBytes) ∧
        ∀ m : Mem, (∀ i < inBytes, m i = p.buffer i) →
          (parsePacket (withBuffer m p) inBytes layer).map (fun r => (r.1, withBuffer p.buffer r.2)) =
            parsePacket p inBytes layer) ↔
      ¬(inBytes ≤ p.bufferBytes ∧ RunsOutPacket p.buffer inBytes layer)) := by
  refine ⟨fun m => scanPacket_follows m p inBytes layer, ?_⟩
  rw [← scanPacket_looks fresh]
  constructor
  · rintro ⟨inside, -⟩ ⟨i, member, behind⟩
    have := inside i member
    omega
  · intro none
    have inside : ∀ i ∈ looks p.buffer (scanPacket p inBytes layer), i < inBytes := by
      intro i member
      by_contra behind
      exact none ⟨i, member, Nat.le_of_not_lt behind⟩
    exact ⟨inside, fun m same => parsePacket_congr fun i member => same i (inside i member)⟩

def emptyDatagram : List UInt8 :=
  [0x45, 0, 0, 28, 0, 0, 0, 0, 64, 17, 0, 0, 10, 0, 0, 1, 10, 0, 0, 2, 0, 7, 0, 7, 0, 8, 0, 0]

theorem parsePacket_looks_inside_datagram :
    Fresh (packetNew (ofList emptyDatagram) 28) ∧
    (∀ i ∈ looks (ofList emptyDatagram) (scanPacket (packetNew (ofList emptyDatagram) 28) 28 .layer3Ip), i < 28) := by
  have fresh := packetNew_fresh (ofList emptyDatagram) 28
  refine ⟨fresh, ((parsePacket_looks_inside_iff fresh 28 .layer3Ip).2.mpr ?_).1⟩
  rintro ⟨-, -, out⟩
  have header : RunsOut (ofList emptyDatagram) 28 .ipv4 0 0 := by
    cases out with
    | layer3Ipv4 _ _ next => exact next
    | layer3Ipv6 version => exact absurd version (by decide)
  obtain ⟨-, -, next⟩ := (runsOut_ipv4_iff.mp header).resolve_left (by decide)
  rw [show ipv4Protocol (ofList emptyDatagram) 0 = 17 by decide] at next
  cases next

def emptyTunnel : List UInt8 := [0x45, 0, 0, 20, 0, 0, 0, 0, 64, 4, 0, 0, 10, 0, 0, 1, 10, 0, 0, 2]

theorem emptyTunnel_looks_behind :
    20 ∈ looks (ofList emptyTunnel) (scanPacket (packetNew (ofList emptyTunnel) 32) 20 .layer3Ip) ∧
    (parsePacket (packetNew (ofList emptyTunnel) 32) 20 .layer3Ip).toOption.map Prod.fst ≠
      (parsePacket (packetNew (ofList (emptyTunnel ++ [0x45])) 32) 20 .layer3Ip).toOption.map Prod.fst ∧
    ∀ i < 20, ofList (emptyTunnel ++ [0x45]) i = ofList emptyTunnel i := by
  decide +kernel

end TcpFuzz
