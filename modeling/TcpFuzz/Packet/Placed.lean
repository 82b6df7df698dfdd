import TcpFuzz.Packet.ChecksumPacket
import TcpFuzz.Packet.Encapsulate
import TcpFuzz.Packet.IcmpRoundTrip

/-! The packets that scripts build and those that the parser accepts have their innermost headers in the same
places, with a pointer to each. -/

namespace TcpFuzz
open Bytes Mem

variable {allocated m m' : Mem} {p : Packet} {hs : List Header}

/-- Where a packet's first and innermost headers lie: the IP header behind the start, the transport header
behind the addresses of the IP header. -/
structure Placed (p : Packet) (start : Nat) (ip last : HeaderType × Nat) : Prop where
  starts : packetStart p = .ok start
  network : ip.1.IsIp
  transport : last.1.IsTransport
  ipv4 : p.ipv4 = if ip.1 = .ipv4 then some ip.2 else none
  ipv6 : p.ipv6 = if ip.1 = .ipv6 then some ip.2 else none
  tcp : p.tcp = if last.1 = .tcp then some last.2 else none
  udp : p.udp = if last.1 = .udp then some last.2 else none
  icmpv4 : p.icmpv4 = if last.1 = .icmpv4 then some last.2 else none
  icmpv6 : p.icmpv6 = if last.1 = .icmpv6 then some last.2 else none
  inside : start ≤ ip.2
  behind : ip.2 + (if ip.1 = .ipv4 then 20 else 40) ≤ last.2

theorem eq_of_ite_some {c : Prop} [Decidable c] {a b : Nat} (found : (if c then some a else none) = some b) :
    c ∧ b = a := by
  split at found
  next holds => exact ⟨holds, (Option.some.inj found).symm⟩
  next => cases found

/-- The packets that scripts build, with or without headers in front, and those that the parser accepts. -/
inductive Given : Packet → Prop where
  | built {call allocated p} (returned : BuilderCall.run allocated call = .ok (.ok p)) : Given p
  | encapsulated {inetPton outerAllocated n direction chain outer call innerAllocated inner allocated p}
      (front : appendHeaders inetPton { packetNew outerAllocated n with direction } chain = .ok (.ok outer))
      (returned : BuilderCall.run innerAllocated call = .ok (.ok inner))
      (joined : packetEncapsulate allocated outer inner = .ok p) : Given p
  | accepted {m n inBytes layer p} (parsed : parsePacket (packetNew m n) inBytes layer = .ok (.ok, p)) : Given p

theorem built_placed {call : BuilderCall} (returned : call.run allocated = .ok (.ok p)) :
    ∃ ip last, Placed p 0 ip last ∧ packetHeaderCount p = 2 := by
  obtain ⟨type, headerBytes, total, built⟩ := BuilderCall.run_returns returned
  refine ⟨(call.family.headerType, 0), (type, ipHeaderMinLen call.family), ⟨built.layout.packetStart, ?_, built.transport,
    built.ipv4, built.ipv6, built.tcp, built.udp, built.icmpv4, built.icmpv6, Nat.le_refl _, ?_⟩, built.layout.count⟩
  · cases call.family
    · exact .inl rfl
    · exact .inr rfl
  · cases call.family <;> exact Nat.le_refl _

/-- The headers in front of a packet start at its first byte. -/
structure Begins (p : Packet) (hs : List Header) : Prop where
  layout : Layout p hs
  l2HeaderBytes : p.l2HeaderBytes = 0
  first : hs = [] ∧ p.ipBytes = 0 ∨ (hs.head?.bind Header.ptr) = some 0

theorem appendStored_begins {q : Packet} (begins : Begins p hs) {type : HeaderType}
    (used : type ≠ .none) {headerBytes : Nat} {store : Mem → Nat → Run (Except String Mem)}
    (returned : appendStored p type headerBytes store = .ok (.ok q)) : ∃ hs', Begins q hs' := by
  obtain ⟨added, returned', rest⟩ := run_bind_ok returned
  rw [packetAppendHeader_eq begins.layout] at returned'
  cases returned'
  by_cases refused : hs.length = packetMaxHeaders ∨ p.bufferBytes < p.ipBytes + headerBytes
  · rw [if_pos refused] at rest
    cases rest
  rw [if_neg refused] at rest
  obtain ⟨start, -, rest⟩ := run_bind_ok rest
  obtain ⟨stored, -, rest⟩ := run_bind_ok rest
  cases stored with
  | error e => cases rest
  | ok m =>
    cases rest
    have room := begins.layout.length_le
    have layout := begins.layout.append (by omega) used headerBytes 0
    refine ⟨_, ⟨layout.table, layout.used⟩, begins.l2HeaderBytes, .inr ?_⟩
    rcases begins.first with ⟨rfl, empty⟩ | first
    · simp [begins.l2HeaderBytes, empty]
    · cases hs with
      | nil => cases first
      | cons h hs => exact first

theorem appendHeaders_begins {inetPton : InetPton} {chain : List OuterHeader} {q : Packet}
    (begins : Begins p hs) (returned : appendHeaders inetPton p chain = .ok (.ok q)) : ∃ hs', Begins q hs' := by
  induction chain generalizing p hs with
  | nil =>
    cases returned
    exact ⟨hs, begins⟩
  | cons header chain ih =>
    rw [appendHeaders] at returned
    obtain ⟨result, appended, rest⟩ := run_bind_ok returned
    cases result with
    | error e => cases rest
    | ok r =>
      have next : ∃ hs', Begins r hs' := by
        cases header with
        | ipv4 ipSrc ipDst tos ttl =>
          rw [OuterHeader.append, ipv4HeaderAppend] at appended
          exact appendStored_begins begins (by simp) appended
        | ipv6 ipSrc ipDst tos hopLimit =>
          rw [OuterHeader.append, ipv6HeaderAppend] at appended
          exact appendStored_begins begins (by simp) appended
        | gre header =>
          obtain ⟨length, -, appended⟩ := run_bind_ok appended
          exact appendStored_begins begins (by simp) appended
        | mpls stack =>
          rw [OuterHeader.append, mplsHeaderAppend] at appended
          exact appendStored_begins begins (by simp) appended
      obtain ⟨hs', begins'⟩ := next
      exact ih begins' rest

theorem headerFinish_ptr {h h' : Header} {next : Option Header}
    (finished : headerFinish m h next = .ok (m', h')) : h'.ptr = h.ptr := by
  unfold headerFinish at finished
  split at finished
  · obtain ⟨ip, -, finished⟩ := run_bind_ok finished
    obtain ⟨inner, -, finished⟩ := run_bind_ok finished
    obtain ⟨type, -, finished⟩ := run_bind_ok finished
    cases finished
    rfl
  · obtain ⟨ip, -, finished⟩ := run_bind_ok finished
    obtain ⟨inner, -, finished⟩ := run_bind_ok finished
    obtain ⟨-, -, finished⟩ := run_bind_ok finished
    obtain ⟨type, -, finished⟩ := run_bind_ok finished
    cases finished
    rfl
  · obtain ⟨gre, -, finished⟩ := run_bind_ok finished
    obtain ⟨length, -, finished⟩ := run_bind_ok finished
    obtain ⟨inner, -, finished⟩ := run_bind_ok finished
    obtain ⟨type, -, finished⟩ := run_bind_ok finished
    cases finished
    rfl
  · obtain ⟨inner, -, finished⟩ := run_bind_ok finished
    cases finished
    rfl
  · cases finished
    rfl

theorem finishHeaders_ptrs {hs' : List Header} (finished : finishHeaders m hs = .ok (m', hs')) :
    hs'.map Header.ptr = hs.map Header.ptr := by
  induction hs generalizing m' hs' with
  | nil =>
    cases finished
    rfl
  | cons h hs ih =>
    rw [finishHeaders] at finished
    obtain ⟨⟨m1, inner⟩, rest, finished⟩ := run_bind_ok finished
    have same := ih rest
    by_cases unused : h.type = .none
    · simp only [unused, if_true] at finished
      cases finished
      rw [List.map_cons, List.map_cons, same]
    · simp only [unused, if_false] at finished
      obtain ⟨⟨m2, h2⟩, first, finished⟩ := run_bind_ok finished
      cases finished
      rw [List.map_cons, List.map_cons, same, headerFinish_ptr first]

theorem finishHeaders_first {headers : List Header}
    (finishing : finishHeaders m p.headers.toList = .ok (m', headers)) :
    (headers.getD 0 .unused).ptr = (p.headers.get ⟨0, by decide⟩).ptr := by
  have ptrs := congrArg (fun ptrs => ptrs[0]?) (finishHeaders_ptrs finishing)
  simp only [List.getElem?_map] at ptrs
  have first : p.headers.toList[0]? = some (p.headers.get ⟨0, by decide⟩) :=
    List.getElem?_eq_some_iff.mpr ⟨by rw [Vector.length_toList]; decide, rfl⟩
  rw [first] at ptrs
  rw [List.getD_eq_getElem?_getD]
  cases found : headers[0]? with
  | none => rw [found] at ptrs; cases ptrs
  | some h => rw [found] at ptrs; exact Option.some.inj ptrs

theorem copyHeaders_first (p old : Packet) (headroom : Nat) :
    ((packetCopyHeaders p old headroom).headers.get ⟨0, by decide⟩).ptr =
      if 0 < packetHeaderCount old then (old.headers.get ⟨0, by decide⟩).ptr.map (headroom + ·)
      else (p.headers.get ⟨0, by decide⟩).ptr := by
  rw [packetCopyHeaders, get_ofFn]
  split <;> rfl

theorem moveHeaders_first (p : Packet) (count : Nat) :
    (moveHeaders p 0 count).headers.get ⟨0, by decide⟩ = p.headers.get ⟨0, by decide⟩ := by
  rw [moveHeaders_get]
  split <;> rfl

theorem packetEncapsulate_ptrs {outer inner : Packet} (begins : Begins outer hs)
    (joined : packetEncapsulate allocated outer inner = .ok p) :
    p.ipv4 = inner.ipv4.map (outer.ipBytes + ·) ∧ p.ipv6 = inner.ipv6.map (outer.ipBytes + ·) ∧
    p.tcp = inner.tcp.map (outer.ipBytes + ·) ∧ p.udp = inner.udp.map (outer.ipBytes + ·) ∧
    p.icmpv4 = inner.icmpv4.map (outer.ipBytes + ·) ∧ p.icmpv6 = inner.icmpv6.map (outer.ipBytes + ·) ∧
    (packetStart inner = .ok 0 → 0 < packetHeaderCount inner → packetStart p = .ok 0) := by
  obtain ⟨-, room, joined⟩ := run_bind_ok joined
  obtain ⟨copied, copy, joined⟩ := run_bind_ok joined
  obtain ⟨bytesUsed, -, copy⟩ := run_bind_ok copy
  obtain ⟨-, -, copy⟩ := run_bind_ok copy
  cases copy
  obtain ⟨-, counted, joined⟩ := run_bind_ok joined
  obtain ⟨finished, finish, joined⟩ := run_bind_ok joined
  obtain ⟨⟨buffer, headers⟩, finishing, finish⟩ := run_bind_ok finish
  cases finish
  cases joined
  refine ⟨rfl, rfl, rfl, rfl, rfl, rfl, fun starts filled => ?_⟩
  have first := finishHeaders_first finishing
  rw [copyHeaders_first] at first
  have found : (headers.getD 0 .unused).ptr = some 0 := by
    rw [first, begins.layout.count]
    rcases begins.first with ⟨rfl, empty⟩ | front
    · -- without headers in front the packet starts as before
      have own : (inner.headers.get ⟨0, by decide⟩).ptr = some 0 := by
        unfold packetStart requirePtr at starts
        split at starts
        next offset ptr => rw [ptr]; exact congrArg some (Except.ok.inj starts)
        next => cases starts
      rw [if_neg (by simp), List.length_nil, moveHeaders_first]
      refine (copyHeaders_first _ inner outer.ipBytes).trans ?_
      rw [if_pos filled, own, empty]
      rfl
    · cases hs with
      | nil => cases front
      | cons h hs =>
        have outermost := begins.layout.get ⟨0, by decide⟩
        rw [if_pos (by simp), outermost]
        simp only [List.getD_cons_zero]
        rw [show h.ptr = _ from front]
        rfl
  rw [packetStart]
  simp only [get_ofFn, found]
  rfl

theorem encapsulated_placed {outer inner : Packet} {ip last : HeaderType × Nat}
    (begins : Begins outer hs) (placed : Placed inner 0 ip last) (filled : 0 < packetHeaderCount inner)
    (joined : packetEncapsulate allocated outer inner = .ok p) :
    Placed p 0 (ip.1, outer.ipBytes + ip.2) (last.1, outer.ipBytes + last.2) := by
  obtain ⟨ipv4, ipv6, tcp, udp, icmpv4, icmpv6, starts⟩ := packetEncapsulate_ptrs begins joined
  have moved {c : Prop} [Decidable c] (k : Nat) :
      (if c then some k else none).map (outer.ipBytes + ·) = if c then some (outer.ipBytes + k) else none := by
    split <;> rfl
  have behind := placed.behind
  refine ⟨starts placed.starts filled, placed.network, placed.transport, ?_, ?_, ?_, ?_, ?_, ?_, Nat.zero_le _, ?_⟩
  · rw [ipv4, placed.ipv4, moved]
  · rw [ipv6, placed.ipv6, moved]
  · rw [tcp, placed.tcp, moved]
  · rw [udp, placed.udp, moved]
  · rw [icmpv4, placed.icmpv4, moved]
  · rw [icmpv6, placed.icmpv6, moved]
  · simp only
    omega

theorem Contiguous.start_le {pos : Nat} {es : List Extent} (contiguous : Contiguous pos es) :
    ∀ e ∈ es, pos ≤ e.start := by
  induction es generalizing pos with
  | nil => simp
  | cons d ds ih =>
    obtain ⟨rfl, rest⟩ := contiguous
    intro e member
    rcases List.mem_cons.mp member with rfl | inside
    · exact Nat.le_refl _
    · exact Nat.le_trans (Nat.le_add_right _ _) (ih rest e inside)

theorem accepted_placed {n inBytes : Nat} {layer : PacketLayer}
    (accepted : parsePacket (packetNew m n) inBytes layer = .ok (.ok, p)) : ∃ start ip last, Placed p start ip last := by
  have buffered : inBytes ≤ n := by
    by_contra short
    rw [parsePacket, assertThat, if_neg (by exact short)] at accepted
    cases accepted
  have fresh := packetNew_fresh m n
  obtain ⟨-, ip, last, inner⟩ := accepted_innermost buffered accepted
  obtain ⟨es, wire, fits, rfl⟩ := (parsePacket_ok_iff fresh buffered).mp accepted
  have data := recorded_metadata fresh ⟨rfl, rfl, rfl, rfl, rfl, rfl⟩ wire fits
  have contiguous := wire.2.contiguous
  obtain ⟨e, ds, rfl⟩ := List.exists_cons_of_ne_nil wire.2.ne_nil
  have starts : packetStart (recorded layer (packetNew m n) (e :: ds)) = .ok layer.headerBytes := by
    rw [data.layout.packetStart, Extent.header, contiguous.1]
    rfl
  have single {x : Expect} {pos : Nat} (next : Wire (recorded layer (packetNew m n) (e :: ds)).buffer inBytes x pos [last]) :
      last.type.IsTransport := by
    cases next.nested with
    | transport type => exact type
    | around _ inner => cases inner
  have shape : ip.type.IsIp ∧ last.type.IsTransport ∧ (if ip.type = .ipv4 then 20 else 40) ≤ ip.headerBytes := by
    cases inner.inner with
    | ipv4 header next => exact ⟨.inl rfl, single next, header.long⟩
    | ipv6 header next => exact ⟨.inr rfl, single next, Nat.le_refl 40⟩
  have behind := inner.behind
  obtain ⟨isIp, transport, long⟩ := shape
  refine ⟨layer.headerBytes, (ip.type, ip.start), (last.type, last.start), starts, isIp, transport, inner.ipv4, inner.ipv6,
    inner.tcp, inner.udp, inner.icmpv4, inner.icmpv6, ?_, by simp only; omega⟩
  -- the innermost IP header is one of those in the table
  obtain ⟨ip', found, ptrs⟩ := data.network
  have member : ip' ∈ e :: ds := (List.mem_filter.mp (List.mem_of_getLast? found)).1
  have same : ip'.start = ip.start := by
    rcases ptrs with ⟨-, ptr, -⟩ | ⟨-, ptr, -⟩
    · exact (eq_of_ite_some (inner.ipv4.symm.trans ptr)).2
    · exact (eq_of_ite_some (inner.ipv6.symm.trans ptr)).2
  exact same ▸ contiguous.start_le ip' member

theorem Given.placed (given : Given p) : ∃ start ip last, Placed p start ip last := by
  cases given with
  | built returned =>
    obtain ⟨ip, last, placed, -⟩ := built_placed returned
    exact ⟨0, ip, last, placed⟩
  | encapsulated front returned joined =>
    have empty (m : Mem) (n : Nat) (direction : Direction) : Begins { packetNew m n with direction } [] :=
      ⟨⟨(packetNew_layout m n).table, by simp⟩, rfl, .inl ⟨rfl, rfl⟩⟩
    obtain ⟨hs, begins⟩ := appendHeaders_begins (empty _ _ _) front
    obtain ⟨ip, last, placed, count⟩ := built_placed returned
    exact ⟨0, _, _, encapsulated_placed begins placed (by omega) joined⟩
  | accepted parsed => exact accepted_placed parsed

end TcpFuzz
