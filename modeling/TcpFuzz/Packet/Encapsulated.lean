import TcpFuzz.Packet.HeaderOrder

/-! When the outer headers were appended in an order that the header types admit, the result of
`packet_encapsulate` parses: each header reaches to the end. -/

namespace TcpFuzz
open Bytes Mem

variable {m m' : Mem} {e d : Extent} {pos headerBytes j stop headroom : Nat} {es : List Extent} {type : HeaderType}
  {ipSrc ipDst : String} {inetPton : InetPton} {p : Packet}

/-! ### Encapsulation -/

def Extent.shift (headroom : Nat) (e : Extent) : Extent := { e with start := headroom + e.start }

section Encapsulate

variable {allocated : Mem} {outer inner : Packet} {es ds : List Extent}

def joinedMem (allocated : Mem) (outer inner : Packet) : Mem :=
  (allocated.copy outer.ipBytes inner.buffer 0 inner.ipBytes).copy 0 outer.buffer 0 outer.ipBytes

theorem joinedMem_outer (allocated : Mem) (outer inner : Packet) (inside : j < outer.ipBytes) :
    (joinedMem allocated outer inner).get8 j = outer.buffer.get8 j := by
  have copied := get8_copy_inside (allocated.copy outer.ipBytes inner.buffer 0 inner.ipBytes) (i := 0) outer.buffer 0
    inside
  rwa [Nat.zero_add] at copied

theorem joinedMem_inner (allocated : Mem) (outer inner : Packet) (inside : j < inner.ipBytes) :
    (joinedMem allocated outer inner).get8 (outer.ipBytes + j) = inner.buffer.get8 j := by
  rw [joinedMem, get8_copy_ne _ _ _ (by omega), get8_copy_inside _ _ _ inside, Nat.zero_add]

theorem HeaderChain.ne_nil (chain : HeaderChain m stop pos es) : es ≠ [] := by
  cases chain <;> simp

theorem HeaderChain.admits
    (chain : HeaderChain m stop pos (e :: d :: es)) : e.type.Admits d.type := by
  cases chain with
  | around admits => exact admits

theorem HeaderChain.ends (chain : HeaderChain m stop pos es) :
    ∀ e ∈ es, e.stop = stop := by
  induction chain with
  | transport _ ends => simpa using ends
  | around _ ends _ _ _ ih => exact List.forall_mem_cons.mpr ⟨ends, ih⟩

theorem HeaderChain.inner_le (chain : HeaderChain m stop pos es) :
    ∀ e ∈ es, e.inner ≤ stop := by
  induction chain with
  | @transport e type ends ready =>
    intro x member
    rw [List.mem_singleton.mp member]
    have contained : e.headerBytes ≤ e.totalBytes := by
      unfold Unfinished at ready
      rcases type with type | type | type | type <;> simp only [type] at ready
      · exact ready.1 ▸ ready.2.contained
      · exact ready.1 ▸ ready.2.long
      all_goals exact ready.1 ▸ ready.2
    rw [← ends]
    exact Nat.add_le_add_left contained e.start
  | @around e d es admits ends ready versioned inner ih =>
    intro x member
    rcases List.mem_cons.mp member with rfl | inside
    · have starts := inner.head.1
      have next := ih d List.mem_cons_self
      simp only [Extent.inner] at starts next ⊢
      omega
    · exact ih x inside

theorem HeaderChain.start_lt (chain : HeaderChain m stop pos es) :
    ∀ e ∈ es, e.start < stop := by
  have inside := chain.inner_le
  induction chain with
  | @transport e _ _ ready =>
    intro x member
    rw [List.mem_singleton.mp member]
    exact Nat.lt_of_lt_of_le ready.start_lt (inside e List.mem_cons_self)
  | @around e d es _ _ ready _ _ ih =>
    obtain ⟨here, rest⟩ := List.forall_mem_cons.mp inside
    exact List.forall_mem_cons.mpr ⟨Nat.lt_of_lt_of_le ready.start_lt here, ih rest⟩

theorem Unfinished.shift (ready : Unfinished m e)
    (inside : e.inner ≤ stop) (same : ∀ j < stop, m'.get8 (headroom + j) = m.get8 j) :
    Unfinished m' (e.shift headroom) := by
  refine ready.move (show (e.shift headroom).type = e.type from rfl) rfl (fun _ => rfl) fun j within => ?_
  simp only [Extent.inner] at inside
  simp only [Extent.shift]
  rw [Nat.add_assoc, same _ (by omega)]

theorem Versioned.shift (versioned : Versioned m e)
    (inside : e.start < stop) (same : ∀ j < stop, m'.get8 (headroom + j) = m.get8 j) :
    Versioned m' (e.shift headroom) :=
  versioned.move rfl (same _ inside)

theorem Extent.shift_stop (headroom : Nat) (ends : e.stop = stop) :
    (e.shift headroom).stop = headroom + stop := by
  rw [← ends]
  exact Nat.add_assoc _ _ _

theorem HeaderChain.shift (chain : HeaderChain m stop pos es)
    (same : ∀ j < stop, m'.get8 (headroom + j) = m.get8 j) :
    HeaderChain m' (headroom + stop) (headroom + pos) (es.map (Extent.shift headroom)) := by
  have inside := chain.inner_le
  induction chain with
  | @transport e type ends ready =>
    exact .transport (e := e.shift headroom) type (Extent.shift_stop headroom ends)
      (ready.shift (inside e List.mem_cons_self) same)
  | @around e d es admits ends ready versioned inner ih =>
    have next := ih fun x member => inside x (List.mem_cons_of_mem e member)
    rw [Extent.inner, ← Nat.add_assoc] at next
    exact .around (e := e.shift headroom) admits (Extent.shift_stop headroom ends)
      (ready.shift (inside e List.mem_cons_self) same)
      (fun notIp => (versioned notIp).shift (inner.start_lt d List.mem_cons_self) same) next

theorem versioned_head (stop : Nat) (versioned : ∀ d, ds.head? = some d → Versioned m d)
    (ready : ∀ e ∈ es, OuterReady m e) (head : (es.map (Extent.endAt stop) ++ ds).head? = some d) :
    Versioned m d := by
  cases es with
  | nil => exact versioned d head
  | cons e es =>
    cases head
    exact (ready e List.mem_cons_self).versioned.move rfl rfl

theorem HeaderChain.prepend {k : Nat} (inner : HeaderChain m stop k ds)
    (contiguous : Contiguous pos es) (length : k = pos + (es.map Extent.headerBytes).sum)
    (versioned : ∀ d, ds.head? = some d → Versioned m d) (ready : ∀ e ∈ es, OuterReady m e)
    (admits : ((es ++ ds).map Extent.type).IsChain HeaderType.Admits) :
    HeaderChain m stop pos (es.map (Extent.endAt stop) ++ ds) := by
  induction es generalizing pos with
  | nil =>
    obtain rfl : k = pos := by simpa using length
    exact inner
  | cons e es ih =>
    obtain ⟨rfl, rest⟩ := contiguous
    obtain ⟨⟨here, -, outerType⟩, readyRest⟩ := List.forall_mem_cons.mp ready
    rw [List.map_cons, List.sum_cons, ← Nat.add_assoc] at length
    have chain := ih rest length readyRest admits.tail
    have types : (es.map (Extent.endAt stop) ++ ds).map Extent.type = (es ++ ds).map Extent.type := by
      simp [Function.comp_def, Extent.endAt]
    have here' : Unfinished m (e.endAt stop) :=
      here.move (show (e.endAt stop).type = e.type from rfl) rfl (fun transport => (outerType transport).elim)
        fun _ _ => rfl
    rw [List.cons_append, List.map_cons, ← types] at admits
    rw [List.map_cons, List.cons_append]
    cases list : es.map (Extent.endAt stop) ++ ds with
    | nil =>
      rw [list] at chain
      exact (chain.ne_nil rfl).elim
    | cons d rest =>
      rw [list] at chain admits
      have follows : e.type.Admits d.type := (List.isChain_cons_cons.mp admits).1
      have ends : (e.endAt stop).stop = stop := by
        have next := chain.inner_le d List.mem_cons_self
        have starts := chain.head.1
        simp only [Extent.inner, Extent.endAt, Extent.stop] at next starts ⊢
        omega
      exact .around (e := e.endAt stop) follows ends here' (fun _ => versioned_head stop versioned readyRest (by rw [list]; rfl)) chain

/-! #### The header table -/

theorem Header.shift_zero (h : Header) : h.shift 0 = h := by
  cases h
  simp [Header.shift]

theorem Extent.shift_header (headroom : Nat) (e : Extent) : (e.shift headroom).header = e.header.shift headroom := rfl

theorem packetCopyHeaders_get {new old : Packet} {hs : List Header} (layout : Layout old hs) (headroom : Nat)
    (i : Fin packetMaxHeaders) :
    (packetCopyHeaders new old headroom).headers.get i =
      if i.val < hs.length then (hs.getD i .unused).shift headroom else new.headers.get i := by
  rw [packetCopyHeaders, layout.count, ← layout.get i, get_ofFn]

theorem joined_layout (outerLayout : Layout outer (es.map Extent.header))
    (innerLayout : Layout inner (ds.map Extent.header)) (few : es.length + ds.length ≤ packetMaxHeaders)
    (fresh : p.headers = Vector.replicate packetMaxHeaders Header.unused) (headroom : Nat) :
    Layout (packetCopyHeaders (moveHeaders (packetCopyHeaders p inner headroom) es.length ds.length) outer 0)
      ((es ++ ds.map (Extent.shift headroom)).map Extent.header) := by
  apply Layout.of_get
  · simpa using few
  · intro h member
    rw [List.map_append, List.mem_append] at member
    rcases member with old | moved
    · exact outerLayout.used h old
    · obtain ⟨e, inside, rfl⟩ := List.mem_map.mp moved
      obtain ⟨d, member, rfl⟩ := List.mem_map.mp inside
      exact innerLayout.used d.header (List.mem_map_of_mem member)
  · intro i
    have blank (j : Fin packetMaxHeaders) : p.headers.get j = .unused := by
      rw [fresh]
      exact Vector.getElem_replicate j.isLt
    rw [packetCopyHeaders_get outerLayout, moveHeaders_get, packetCopyHeaders_get innerLayout,
      packetCopyHeaders_get innerLayout, Header.shift_zero, blank, blank, List.map_append]
    simp only [List.length_map]
    by_cases isOuter : i.val < es.length
    · rw [if_pos isOuter, List.getD_append _ _ _ _ (by simpa using isOuter)]
    rw [if_neg isOuter, List.getD_append_right _ _ _ _ (by simpa using isOuter), List.length_map]
    by_cases isInner : i.val < es.length + ds.length
    · have within : i.val - es.length < ds.length := by omega
      rw [if_pos ⟨by omega, isInner⟩, if_pos within]
      rw [List.getD_eq_getElem _ _ (by simpa using within), List.getD_eq_getElem _ _ (by simpa using within)]
      simp [Extent.shift_header]
    · rw [if_neg (by omega), if_neg (by omega), List.getD_eq_default _ _ (by simp; omega)]

theorem Announces.of_transport {h : Header} (same : h = e.header) : Announces h e := by
  subst same
  exact ⟨rfl, rfl, rfl, fun _ => rfl⟩

theorem Announces.endAt (outerType : ¬e.type.IsTransport) (stop : Nat) :
    Announces e.header (e.endAt stop) :=
  ⟨rfl, rfl, rfl, fun transport => (outerType transport).elim⟩

/-- The headers of an outer packet in front of an inner one, with their contents. -/
def encapsulated (es ds : List Extent) (headroom stop : Nat) : List Extent :=
  es.map (Extent.endAt stop) ++ ds.map (Extent.shift headroom)

def joinedPacket (allocated : Mem) (outer inner : Packet) : Packet :=
  let copied := packetDuplicateInfo (packetNew (allocated.copy outer.ipBytes inner.buffer 0 inner.ipBytes)
    (outer.ipBytes + inner.ipBytes)) inner outer.ipBytes 0
  packetCopyHeaders (moveHeaders { copied with buffer := joinedMem allocated outer inner } (packetHeaderCount outer)
    (packetHeaderCount inner)) outer 0

theorem joinedPacket_layout (outerLayout : Layout outer (es.map Extent.header))
    (innerLayout : Layout inner (ds.map Extent.header)) (few : es.length + ds.length ≤ packetMaxHeaders) :
    Layout (joinedPacket allocated outer inner) ((es ++ ds.map (Extent.shift outer.ipBytes)).map Extent.header) := by
  have layout := joined_layout (p := packetNew (allocated.copy outer.ipBytes inner.buffer 0 inner.ipBytes)
    (outer.ipBytes + inner.ipBytes)) outerLayout innerLayout few rfl outer.ipBytes
  have outerCount : packetHeaderCount outer = es.length := by simp [outerLayout.count]
  have innerCount : packetHeaderCount inner = ds.length := by simp [innerLayout.count]
  rw [← outerCount, ← innerCount] at layout
  exact ⟨layout.table, layout.used⟩

theorem packetEncapsulate_eq (outerLayout : Layout outer (es.map Extent.header))
    (innerLayout : Layout inner (ds.map Extent.header)) (few : es.length + ds.length ≤ packetMaxHeaders)
    (stop : packetEnd inner = .ok inner.ipBytes) (bounded : inner.ipBytes ≤ 128 * 1024) :
    packetEncapsulate allocated outer inner =
      (packetFinishEncapsulationHeaders (joinedPacket allocated outer inner) >>= fun p =>
        .ok { p with ipBytes := outer.ipBytes + inner.ipBytes }) := by
  have outerCount : packetHeaderCount outer = es.length := by simp [outerLayout.count]
  have innerCount : packetHeaderCount inner = ds.length := by simp [innerLayout.count]
  have count : packetHeaderCount (joinedPacket allocated outer inner) = packetHeaderCount outer + packetHeaderCount inner := by
    rw [(joinedPacket_layout outerLayout innerLayout few).count, outerCount, innerCount]
    simp
  rw [← outerCount, ← innerCount] at few
  simp only [packetEncapsulate, assertThat_ok few, packetCopyWithHeadroom, stop, assertThat_ok bounded, ok_bind,
    run_pure]
  change (assertThat (packetHeaderCount (joinedPacket allocated outer inner) = _) >>= _) = _
  rw [assertThat_ok count]
  rfl

theorem packetEncapsulate_ok (outerPacket : OuterPacket outer es) (innerPacket : InnerPacket inner ds)
    (admits : ((es ++ ds).map Extent.type).IsChain HeaderType.Admits)
    (few : es.length + ds.length ≤ packetMaxHeaders) (short : outer.ipBytes + inner.ipBytes ≤ 65535) :
    ∃ p, packetEncapsulate allocated outer inner = .ok p ∧ p.ipBytes = outer.ipBytes + inner.ipBytes ∧
      Layout p ((encapsulated es ds outer.ipBytes p.ipBytes).map Extent.header) ∧
      Finished p.buffer p.ipBytes 0 (encapsulated es ds outer.ipBytes p.ipBytes) ∧
      (∀ e ∈ encapsulated es ds outer.ipBytes p.ipBytes, e.stop = p.ipBytes) ∧
      (∀ d, (encapsulated es ds outer.ipBytes p.ipBytes).head? = some d → Versioned p.buffer d) ∧
      ∀ j ∉ (encapsulated es ds outer.ipBytes p.ipBytes).flatMap Extent.rewritten,
        p.buffer.get8 j = (joinedMem allocated outer inner).get8 j := by
  have ready : ∀ e ∈ es, OuterReady (joinedMem allocated outer inner) e := by
    intro e member
    have inside := outerPacket.contiguous.inner_le e member
    rw [Nat.zero_add, ← outerPacket.ipBytes] at inside
    exact (outerPacket.ready e member).congr fun j _ within => joinedMem_outer _ _ _ (by omega)
  have innerVersioned (d : Extent) (head : (ds.map (Extent.shift outer.ipBytes)).head? = some d) :
      Versioned (joinedMem allocated outer inner) d := by
    obtain ⟨x, first, rfl⟩ := Option.map_eq_some_iff.mp (List.head?_map ▸ head)
    have inside := innerPacket.chain.start_lt x (List.mem_of_mem_head? first)
    exact (innerPacket.versioned x first).shift inside fun j inside => joinedMem_inner allocated outer inner inside
  have chain : HeaderChain (joinedMem allocated outer inner) (outer.ipBytes + inner.ipBytes) 0
      (encapsulated es ds outer.ipBytes (outer.ipBytes + inner.ipBytes)) := by
    have moved := innerPacket.chain.shift fun j inside => joinedMem_inner allocated outer inner inside
    refine moved.prepend outerPacket.contiguous (by rw [outerPacket.ipBytes]; omega) innerVersioned ready ?_
    simpa [Function.comp_def, Extent.shift] using admits
  have announced : List.Forall₂ Announces ((es ++ ds.map (Extent.shift outer.ipBytes)).map Extent.header)
      (encapsulated es ds outer.ipBytes (outer.ipBytes + inner.ipBytes)) := by
    rw [List.map_append, encapsulated]
    apply List.rel_append
    · rw [List.forall₂_map_left_iff, List.forall₂_map_right_iff, List.forall₂_same]
      intro e member
      exact .endAt (outerPacket.ready e member).outer _
    · rw [List.forall₂_map_left_iff, List.forall₂_same]
      exact fun e _ => .of_transport rfl
  have stop : packetEnd inner = .ok inner.ipBytes := by
    cases list : ds with
    | nil => exact (innerPacket.chain.ne_nil list).elim
    | cons d rest =>
      have first := (list ▸ innerPacket.chain).head.1
      have layout := innerPacket.layout
      rw [list, List.map_cons] at layout
      simp [packetEnd, layout.packetStart, Extent.header, requirePtr, first]
  have bounded : inner.ipBytes ≤ 128 * 1024 := by omega
  obtain ⟨m, finished, frame, result⟩ := finishHeaders_spec chain announced
    (fun e member => Extent.short_of_stop (chain.ends e member ▸ short))
    (packetMaxHeaders - ((es ++ ds.map (Extent.shift outer.ipBytes)).map Extent.header).length)
  have joinedLayout : Layout (joinedPacket allocated outer inner) _ :=
    joinedPacket_layout outerPacket.layout innerPacket.layout few
  have run : packetEncapsulate allocated outer inner = _ :=
    packetEncapsulate_eq outerPacket.layout innerPacket.layout few stop bounded
  have table : finishHeaders (joinedPacket allocated outer inner).buffer
      (joinedPacket allocated outer inner).headers.toList = _ := joinedLayout.table ▸ finished
  simp only [packetFinishEncapsulationHeaders, table, ok_bind, run_pure] at run
  refine ⟨_, run, rfl, ?_, result, chain.ends, fun d head => ?_, frame⟩
  rotate_left
  · obtain ⟨rest, list⟩ := List.head?_eq_some_iff.mp head
    refine (versioned_head _ innerVersioned ready head).move rfl (frame _ ?_)
    rw [list]
    exact (list ▸ chain : HeaderChain _ _ _ (d :: rest)).start_not_rewritten
  apply Layout.of_get
  · simpa [encapsulated] using few
  · intro h member
    obtain ⟨e, inside, rfl⟩ := List.mem_map.mp member
    rcases List.mem_append.mp inside with old | moved
    · obtain ⟨d, found, rfl⟩ := List.mem_map.mp old
      exact outerPacket.layout.used d.header (List.mem_map_of_mem found)
    · obtain ⟨d, found, rfl⟩ := List.mem_map.mp moved
      exact innerPacket.layout.used d.header (List.mem_map_of_mem found)
  · intro i
    rw [get_ofFn, getD_append_replicate]

end Encapsulate

/-! ### Parsing an encapsulated packet -/

def Extent.kind (e : Extent) : HeaderType × Nat := (e.type, e.headerBytes)

def concatenated (outer inner : Packet) (j : Nat) : Nat :=
  if j < outer.ipBytes then outer.buffer.get8 j else inner.buffer.get8 (j - outer.ipBytes)

/-- The packet parses as the headers of `outer` followed by those of `inner`, every header reaches
to the end, its fields say so, and nothing else of the two packets changed. -/
structure Encapsulates (outer inner p : Packet) : Prop where
  length : p.ipBytes = outer.ipBytes + inner.ipBytes
  parses : ∃ q, parsePacket (packetNew p.buffer p.ipBytes) p.ipBytes .layer3Ip = .ok (.ok, q) ∧
    q.headers = p.headers
  headers : (extents p).map Extent.kind = (extents outer ++ extents inner).map Extent.kind
  totals : ∀ e ∈ extents p, e.start + e.totalBytes = p.ipBytes
  fields : FieldsAgree p.buffer (extents p)
  checksums : ∀ e ∈ extents p, e.type = .ipv4 → ipv4Checksum p.buffer e.start e.headerBytes = 0
  bytes : ∀ j < p.ipBytes, j ∉ (extents p).flatMap Extent.rewritten →
    p.buffer.get8 j = concatenated outer inner j

/-- Outer headers in an order that their types admit, in front of an inner packet. -/
structure OuterChain (chain : List OuterHeader) (inner : HeaderType) : Prop where
  wellFormed : ∀ header ∈ chain, header.WellFormed
  first : ∀ header, chain.head? = some header → header.type.IsIp
  admits : (chain.map OuterHeader.type ++ [inner]).IsChain HeaderType.Admits

theorem encapsulate_parses (inetPton : InetPton) (outerAllocated innerAllocated allocated : Mem) (n : Nat)
    {chain : List OuterHeader} {call : BuilderCall} {outer inner : Packet}
    (valid : OuterChain chain call.family.headerType) (few : chain.length + 2 ≤ packetMaxHeaders)
    (outerBuilt : appendHeaders inetPton (packetNew outerAllocated n) chain = .ok (.ok outer))
    (innerBuilt : call.run innerAllocated = .ok (.ok inner)) (short : outer.ipBytes + inner.ipBytes ≤ 65535) :
    ∃ p, packetEncapsulate allocated outer inner = .ok p ∧ Encapsulates outer inner p := by
  obtain ⟨es, outerPacket, types⟩ := appendHeaders_ok (packetNew_outer outerAllocated n) valid.wellFormed outerBuilt
  rw [List.nil_append] at outerPacket
  obtain ⟨ip, transport, innerPacket, ipType⟩ := BuilderCall.run_inner innerBuilt (by omega)
  have size : es.length = chain.length := by
    have := congrArg List.length types
    simpa using this
  have admits : ((es ++ [ip, transport]).map Extent.type).IsChain HeaderType.Admits := by
    rw [List.map_append, types]
    exact List.isChain_split.mpr ⟨ipType ▸ valid.admits, .cons_cons innerPacket.chain.admits (.singleton _)⟩
  obtain ⟨p, returned, length, layout, finished, ends, versioned, frame⟩ :=
    packetEncapsulate_ok outerPacket innerPacket admits (by rw [size]; exact few) short
  let found := encapsulated es [ip, transport] outer.ipBytes p.ipBytes
  have table : extents p = found := extents_of_layout layout
  have firstIp : ∃ d ds, found = d :: ds ∧ d.type.IsIp := by
    cases chain with
    | nil =>
      obtain rfl : es = [] := by simpa using types
      refine ⟨_, _, rfl, ?_⟩
      change ip.type.IsIp
      rw [ipType]
      cases call.family <;> simp [AddressFamily.headerType, HeaderType.IsIp]
    | cons header chain =>
      obtain ⟨e, rest, rfl, type, -⟩ := List.map_eq_cons_iff.mp types
      exact ⟨_, _, rfl, type ▸ valid.first header rfl⟩
  obtain ⟨d, ds, list, isIp⟩ := firstIp
  have wire : WirePacket p.buffer p.ipBytes .layer3Ip found := by
    refine ⟨Nat.zero_le _, ?_⟩
    rw [list]
    refine (list ▸ finished : Finished p.buffer p.ipBytes 0 (d :: ds)).layer3 isIp (versioned d ?_)
    exact congrArg List.head? list
  have fits : found.length ≤ packetMaxHeaders := by simpa [found, encapsulated, size] using few
  have fresh := packetNew_fresh p.buffer p.ipBytes
  have data := recorded_metadata fresh ⟨rfl, rfl, rfl, rfl, rfl, rfl⟩ wire fits
  refine ⟨p, returned, length, ?_, ?_, ?_, ?_, ?_, ?_⟩
  · exact ⟨_, (parsePacket_ok_iff fresh (Nat.le_refl p.ipBytes)).mpr ⟨found, wire, fits, rfl⟩,
      layout.headers_eq data.layout⟩
  · rw [table, extents_of_layout outerPacket.layout, extents_of_layout innerPacket.layout]
    simp [found, encapsulated, Function.comp_def, Extent.kind, Extent.endAt, Extent.shift]
  · rw [table]
    exact ends
  · rw [table]
    exact finished.fields
  · intro e member type
    rw [table] at member
    obtain ⟨twenty, verified⟩ := finished.checks e member type
    rw [twenty]
    exact verified
  · intro j inside kept
    rw [table] at kept
    rw [frame j kept, concatenated]
    split
    next isOuter => exact joinedMem_outer _ _ _ isOuter
    next isInner =>
      rw [length] at inside
      rw [← joinedMem_inner allocated outer inner (by omega : j - outer.ipBytes < inner.ipBytes)]
      congr 1
      omega

def labelledTunnel : List OuterHeader :=
  [.ipv4 "1.1.1.1" "2.2.2.2" 0 64, .gre (Vector.replicate 16 0), .mpls [0x00001040, 0x00002140]]

def tunnelPton : InetPton where
  inet address := if address = "1.1.1.1" then some #v[1, 1, 1, 1] else if address = "2.2.2.2" then some #v[2, 2, 2, 2]
    else none
  inet6 _ := none

theorem encapsulate_parses_labelledTunnel :
    ∃ outer inner p, appendHeaders tunnelPton (packetNew (fun _ => 0) 256) labelledTunnel = .ok (.ok outer) ∧
      (BuilderCall.tcp (synSegment .noEcn)).run (fun _ => 0) = .ok (.ok inner) ∧
      packetEncapsulate (fun _ => 0) outer inner = .ok p ∧ Encapsulates outer inner p := by
  have innerBuilt : (BuilderCall.tcp (synSegment .noEcn)).run (fun _ => 0) = .ok (.ok _) := synSegment_returns .noEcn
  have chain : OuterChain labelledTunnel (BuilderCall.tcp (synSegment .noEcn)).family.headerType := by
    refine ⟨?_, ?_, ?_⟩
    · intro header member
      rcases List.mem_cons.mp member with rfl | member
      · trivial
      · rcases List.mem_pair.mp member with rfl | rfl
        · exact ⟨by decide, by decide⟩
        · refine ⟨[0x00001040], 0x00002140, rfl, ?_, by decide⟩
          intro entry front
          rw [List.mem_singleton.mp front]
          decide
    · rintro header ⟨⟩
      exact .inl rfl
    · change List.IsChain HeaderType.Admits [.ipv4, .gre, .mpls, .ipv4]
      simp [HeaderType.Admits, HeaderType.IsIp]
  have evaluated : (appendHeaders tunnelPton (packetNew (fun _ => 0) 256) labelledTunnel).toOption.map
      (fun result => result.toOption.map Packet.ipBytes) = some (some 32) := by decide +kernel
  obtain ⟨result, built, bytes⟩ := ok_of_toOption evaluated
  cases result with
  | error e => cases bytes
  | ok outer =>
    have bytes : outer.ipBytes = 32 := Option.some.inj bytes
    obtain ⟨p, returned, encapsulates⟩ := encapsulate_parses tunnelPton (fun _ => 0) (fun _ => 0) (fun _ => 0) 256
      chain (by decide) built innerBuilt (by rw [bytes]; decide +kernel)
    exact ⟨outer, _, p, built, innerBuilt, returned, encapsulates⟩

end TcpFuzz
