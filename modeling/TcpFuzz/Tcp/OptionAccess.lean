import TcpFuzz.Packet.Parser
import TcpFuzz.Tcp.OptionWalk

/-! `find_tcp_timestamp` and `offset_sack_blocks` do not look at where the options end. -/

namespace TcpFuzz
open Bytes Mem

def sackRun (p : Packet) (tcp : Nat) (offset : UInt32) : SackRun :=
  offsetSackRun offset (optionsEnd p.buffer tcp) p.buffer (tcp + 20)

def SackRun.outcome (run : SackRun) (p : Packet) : Except String Packet :=
  match run.error with
  | none => .ok { p with buffer := run.buffer }
  | some e => .error e

theorem tcpOptionsBegin_eq {p : Packet} {tcp : Nat} (found : p.tcp = some tcp) :
    tcpOptionsBegin p = .ok (tcp + 20, optionsEnd p.buffer tcp) := by
  simp only [tcpOptionsBegin, packetPayload, found, requirePtr, ok_bind, run_pure, optionsEnd]

theorem offsetSackBlocks_eq {p : Packet} {tcp : Nat} (found : p.tcp = some tcp) (offset : UInt32) :
    offsetSackBlocks p offset = .ok ((sackRun p tcp offset).outcome p) := by
  rw [offsetSackBlocks, tcpOptionsBegin_eq found, ok_bind]
  simp only [forOptions_offsetSackRun]
  unfold sackRun SackRun.outcome
  cases (offsetSackRun offset (optionsEnd p.buffer tcp) p.buffer (tcp + 20)).error <;> rfl

section Offset

variable {m m' : Mem} {stop option : Nat} {offset : UInt32}

theorem InSackBlocks.edge {o j : Nat} (block : InSackBlocks m o j) :
    ∃ i < 2 * sackBlocks m o, ∃ b < 4, j = o + 2 + 4 * i + b := by
  obtain ⟨lower, upper⟩ := block
  exact ⟨(j - (o + 2)) / 4, by omega, (j - (o + 2)) % 4, by omega, by omega⟩

theorem BlocksOffset.steers (done : BlocksOffset m (visitedOptions m stop option) offset m') :
    ∀ o ∈ optionOffsets m stop option, m'.get8 o = m.get8 o ∧ m'.get8 (o + 1) = m.get8 (o + 1) := by
  intro o member
  constructor <;> apply done.frame <;> intro o' visited block
  · exact (block.apart member (visitedOptions_mem visited).1).1 rfl
  · exact (block.apart member (visitedOptions_mem visited).1).2 rfl

theorem BlocksOffset.cancel {options : List Nat} {m'' : Mem} (first : BlocksOffset m options offset m')
    (second : BlocksOffset m' options (-offset) m'') (same : ∀ o ∈ options, sackBlocks m' o = sackBlocks m o) : m'' = m := by
  have blocks {o j : Nat} (member : o ∈ options) : InSackBlocks m' o j ↔ InSackBlocks m o j := by
    unfold InSackBlocks
    rw [same o member]
  funext j
  apply UInt8.toNat.inj
  show m''.get8 j = m.get8 j
  by_cases outside : ∀ o ∈ options, ¬InSackBlocks m o j
  · rw [second.frame j fun o member => mt (blocks member).mp (outside o member), first.frame j outside]
  · simp only [not_forall, not_not] at outside
    obtain ⟨o, member, block⟩ := outside
    obtain ⟨i, edge, b, byte, rfl⟩ := block.edge
    apply get8_of_be32 byte
    have cancels := add_neg_toNat offset
    have small := be32_lt m (o + 2 + 4 * i)
    rw [second.edges o member i (same o member ▸ edge), first.edges o member i edge]
    omega

theorem blockStarts_ordered (m : Mem) (option : Nat) : (blockStarts m option).Pairwise (· + 8 ≤ ·) := by
  unfold blockStarts
  rw [List.pairwise_map]
  apply List.pairwise_lt_range.imp
  intro i j before
  omega

theorem mem_blockStarts {o b : Nat} : b ∈ blockStarts m o ↔ ∃ i < sackBlocks m o, b = o + 2 + 8 * i := by
  simp only [blockStarts, List.mem_map, List.mem_range, eq_comm]

theorem optionOffsets_blocks_ordered (m : Mem) (stop option : Nat) :
    ((optionOffsets m stop option).flatMap (blockStarts m)).Pairwise (· + 8 ≤ ·) := by
  induction option using optionWalk m stop with
  | outside option outside => simp [optionOffsets_nil outside]
  | last option inside last =>
    rw [optionOffsets_none inside last, List.flatMap_singleton]
    exact blockStarts_ordered m option
  | more option next inside found ih =>
    rw [optionOffsets_some inside found, List.flatMap_cons, List.pairwise_append]
    refine ⟨blockStarts_ordered m option, ih, ?_⟩
    intro b first b' later
    obtain ⟨i, block, rfl⟩ := mem_blockStarts.mp first
    obtain ⟨o, member, start⟩ := List.mem_flatMap.mp later
    obtain ⟨i', -, rfl⟩ := mem_blockStarts.mp start
    have behind := optionOffsets_bounds o member
    have before : option + 2 + 8 * i + 7 < next := InSackBlocks.before_next ⟨by omega, by omega⟩ found
    omega

theorem SackRun.Done.ordered {run : SackRun} (done : run.Done m stop option offset) : run.blocks.Pairwise (· + 8 ≤ ·) := by
  rw [done.blocks]
  have ordered := optionOffsets_blocks_ordered m stop option
  rw [← List.takeWhile_append_dropWhile (p := fun o => !decide (ShortSack m o)) (l := optionOffsets m stop option),
    List.flatMap_append, List.pairwise_append] at ordered
  exact ordered.1

end Offset

/-- Offsetting the SACK blocks of a packet by `a` and then by `-a` restores every byte. One run
adds `a` once to every edge of the blocks that it visits and changes nothing else, so that both
runs find the same options, the same blocks and the same error. -/
theorem offsetSackBlocks_invertible {p : Packet} {tcp : Nat} (found : p.tcp = some tcp) (a : UInt32) :
    let first := sackRun p tcp a
    let between := { p with buffer := first.buffer }
    let second := sackRun between tcp (-a)
    offsetSackBlocks p a = .ok (first.outcome p) ∧ offsetSackBlocks between (-a) = .ok (second.outcome between) ∧
      second.buffer = p.buffer ∧
      first.blocks.Pairwise (· + 8 ≤ ·) ∧
      (∀ b ∈ first.blocks, ∀ edge ∈ [b, b + 4],
        first.buffer.be32 edge = (p.buffer.be32 edge + a.toNat) % 2 ^ 32) ∧
      (∀ j, first.buffer.get8 j ≠ p.buffer.get8 j → ∃ b ∈ first.blocks, b ≤ j ∧ j < b + 8) ∧
      (∀ o ∈ segmentOptions p.buffer tcp,
        first.buffer.get8 o = p.buffer.get8 o ∧ first.buffer.get8 (o + 1) = p.buffer.get8 (o + 1)) ∧
      segmentOptions first.buffer tcp = segmentOptions p.buffer tcp ∧
      second.blocks = first.blocks ∧ second.error = first.error := by
  intro first between second
  have done : first.Done p.buffer (optionsEnd p.buffer tcp) (tcp + 20) a := offsetSackRun_done _ _ _ _
  have steers := done.offsets.steers
  -- no block reaches back to the data offset, so both runs end at the same place
  have stop : optionsEnd first.buffer tcp = optionsEnd p.buffer tcp := by
    have offsetByte : first.buffer.get8 (tcp + 12) = p.buffer.get8 (tcp + 12) := by
      apply done.offsets.frame
      intro o visited block
      have := optionOffsets_bounds o (visitedOptions_mem visited).1
      have := block.1
      omega
    rw [optionsEnd, optionsEnd, tcpDoff, tcpDoff, offsetByte]
  have walk : segmentOptions first.buffer tcp = segmentOptions p.buffer tcp := by
    rw [segmentOptions, segmentOptions, stop]
    exact optionOffsets_congr fun o member => ⟨(steers o member).1, fun _ => (steers o member).2⟩
  have again : second.Done first.buffer (optionsEnd p.buffer tcp) (tcp + 20) (-a) := by
    have ran := offsetSackRun_done first.buffer (optionsEnd first.buffer tcp) (tcp + 20) (-a)
    rw [stop] at ran
    show (offsetSackRun (-a) (optionsEnd first.buffer tcp) first.buffer (tcp + 20)).Done _ _ _ _
    rwa [stop]
  have visits := visitedOptions_congr steers
  have counts : ∀ o ∈ visitedOptions p.buffer (optionsEnd p.buffer tcp) (tcp + 20),
      sackBlocks first.buffer o = sackBlocks p.buffer o := by
    intro o visited
    obtain ⟨kind, length⟩ := steers o (visitedOptions_mem visited).1
    exact sackBlocks_congr kind length
  refine ⟨offsetSackBlocks_eq found a, offsetSackBlocks_eq (p := between) found (-a), ?_, done.ordered, ?_, ?_, steers, walk,
    ?_, ?_⟩
  · have offsets := again.offsets
    rw [visits] at offsets
    exact done.offsets.cancel offsets counts
  · intro b member edge isEdge
    rw [done.blocks] at member
    obtain ⟨o, visited, start⟩ := List.mem_flatMap.mp member
    obtain ⟨i, block, rfl⟩ := mem_blockStarts.mp start
    simp only [List.mem_cons, List.not_mem_nil, or_false] at isEdge
    rcases isEdge with rfl | rfl
    · have edges := done.offsets.edges o visited (2 * i) (by omega)
      rwa [show o + 2 + 4 * (2 * i) = o + 2 + 8 * i by omega] at edges
    · have edges := done.offsets.edges o visited (2 * i + 1) (by omega)
      rwa [show o + 2 + 4 * (2 * i + 1) = o + 2 + 8 * i + 4 by omega] at edges
  · intro j changed
    by_contra outside
    apply changed
    apply done.offsets.frame
    intro o visited block
    obtain ⟨lower, upper⟩ := block
    apply outside
    refine ⟨o + 2 + 8 * ((j - (o + 2)) / 8), ?_, by omega, by omega⟩
    rw [done.blocks]
    exact List.mem_flatMap.mpr ⟨o, visited, mem_blockStarts.mpr ⟨(j - (o + 2)) / 8, by omega, rfl⟩⟩
  · rw [again.blocks, done.blocks, visits]
    apply List.flatMap_congr
    intro o visited
    rw [blockStarts, blockStarts, counts o visited]
  · rw [again.error, done.error]
    congr 1
    rw [eq_iff_iff]
    have options : optionOffsets first.buffer (optionsEnd p.buffer tcp) (tcp + 20) =
        optionOffsets p.buffer (optionsEnd p.buffer tcp) (tcp + 20) :=
      optionOffsets_congr fun o member => ⟨(steers o member).1, fun _ => (steers o member).2⟩
    rw [options]
    constructor
    · rintro ⟨o, member, short⟩
      exact ⟨o, member, (shortSack_congr (steers o member).1 (steers o member).2).mp short⟩
    · rintro ⟨o, member, short⟩
      exact ⟨o, member, (shortSack_congr (steers o member).1 (steers o member).2).mpr short⟩

def twoByteSegment (options payload : List UInt8) : List UInt8 :=
  [0x45, 0, 0, UInt8.ofNat (42 + options.length), 0, 0, 0, 0, 255, 6, 0, 0, 1, 1, 1, 1, 2, 2, 2, 2,
    0, 7, 0, 8, 0, 0, 0, 1, 0, 0, 0, 1, UInt8.ofNat (16 * (5 + options.length / 4)), 0x10, 1, 0, 0, 0, 0, 0] ++
    options ++ payload

def sniff (bytes : List UInt8) : Run (ParseResult × Packet) :=
  parsePacket (packetNew (.ofList bytes) bytes.length) bytes.length .layer3Ip

theorem offsetSackBlocks_invertible_short :
    ∃ p, sniff (twoByteSegment [5, 10, 0, 0, 0, 3, 255, 255, 255, 255, 5, 2] [1, 2]) = .ok (.ok, p) ∧
      (sackRun p 20 7).blocks = [42] ∧ (sackRun p 20 7).buffer.be32 46 = 6 ∧
      (sackRun p 20 7).error = some "TCP SACK option too short" ∧
      (sackRun { p with buffer := (sackRun p 20 7).buffer } 20 (-7)).buffer = p.buffer := by
  have evaluated : (sniff (twoByteSegment [5, 10, 0, 0, 0, 3, 255, 255, 255, 255, 5, 2] [1, 2])).toOption.map
      (fun sniffed => decide (sniffed.1 = .ok ∧ sniffed.2.tcp = some 20 ∧ (sackRun sniffed.2 20 7).blocks = [42] ∧
        (sackRun sniffed.2 20 7).buffer.be32 46 = 6 ∧
        (sackRun sniffed.2 20 7).error = some "TCP SACK option too short")) = some true := by
    decide +kernel
  obtain ⟨⟨result, p⟩, sniffed, facts⟩ := ok_of_toOption evaluated
  obtain ⟨ok, tcp, blocks, edge, error⟩ := of_decide_eq_true facts
  simp only at ok
  subst ok
  exact ⟨p, sniffed, blocks, edge, error, (offsetSackBlocks_invertible tcp 7).2.2.1⟩

/-- The four-byte fields that `find_tcp_timestamp` records, the last two for good. -/
def timestampFields (m : Mem) (tcp : Nat) : List Nat :=
  ((segmentOptions m tcp).filter fun o => m.get8 o = tcpoptTimestamp).flatMap fun o => [o + 2, o + 6]

structure AccessInside (p : Packet) (tcp : Nat) (offset : UInt32) : Prop where
  starts : ∀ o ∈ segmentOptions p.buffer tcp, tcp + 20 ≤ o ∧ o < optionsEnd p.buffer tcp
  timestamps : ∀ f ∈ timestampFields p.buffer tcp, tcp + 20 ≤ f ∧ f + 4 ≤ optionsEnd p.buffer tcp
  blocks : ∀ b ∈ (sackRun p tcp offset).blocks, tcp + 20 ≤ b ∧ b + 8 ≤ optionsEnd p.buffer tcp

/-- Timestamp options have room for their ten bytes, and SACK options for the blocks that their
length byte announces. What is behind a SACK option that is too short does not matter. -/
structure OptionsFit (p : Packet) (tcp : Nat) : Prop where
  timestamps : ∀ o ∈ segmentOptions p.buffer tcp, p.buffer.get8 o = tcpoptTimestamp → o + 10 ≤ optionsEnd p.buffer tcp
  sacks : ∀ o ∈ visitedOptions p.buffer (optionsEnd p.buffer tcp) (tcp + 20),
    sackBlocks p.buffer o = 0 ∨ o + 2 + 8 * sackBlocks p.buffer o ≤ optionsEnd p.buffer tcp

theorem findTcpTimestamp_recorded {p : Packet} {tcp : Nat} (found : p.tcp = some tcp) :
    ∃ q, findTcpTimestamp p = .ok (.ok q) ∧ (∀ f, q.tcpTsVal = some f → f ∈ timestampFields p.buffer tcp) ∧
      ∀ f, q.tcpTsEcr = some f → f ∈ timestampFields p.buffer tcp := by
  have recorded {o f : Nat} (last : lastTimestamp p.buffer (optionsEnd p.buffer tcp) (tcp + 20) = some o)
      (field : f ∈ [o + 2, o + 6]) : f ∈ timestampFields p.buffer tcp :=
    List.mem_flatMap.mpr ⟨o, List.mem_of_getLast? last, field⟩
  refine ⟨_, findTcpTimestamp_eq found, ?_, ?_⟩
  · intro f val
    obtain ⟨o, last, rfl⟩ := Option.map_eq_some_iff.mp val
    exact recorded last (by simp)
  · intro f ecr
    obtain ⟨o, last, rfl⟩ := Option.map_eq_some_iff.mp ecr
    exact recorded last (by simp)

/-- Both loops come to an end, and they stay inside of the options area exactly when the options
that they look into fit. -/
theorem optionAccess_inside_iff {p : Packet} {tcp : Nat} (found : p.tcp = some tcp) (offset : UInt32) :
    (∃ q, findTcpTimestamp p = .ok (.ok q) ∧ (∀ f, q.tcpTsVal = some f → f ∈ timestampFields p.buffer tcp) ∧
        ∀ f, q.tcpTsEcr = some f → f ∈ timestampFields p.buffer tcp) ∧
      offsetSackBlocks p offset = .ok ((sackRun p tcp offset).outcome p) ∧
      (AccessInside p tcp offset ↔ OptionsFit p tcp) := by
  have done : (sackRun p tcp offset).Done p.buffer (optionsEnd p.buffer tcp) (tcp + 20) offset := offsetSackRun_done _ _ _ _
  refine ⟨findTcpTimestamp_recorded found, offsetSackBlocks_eq found offset, ?_⟩
  constructor
  · intro inside
    constructor
    case timestamps =>
      intro o member kind
      have field : o + 6 ∈ timestampFields p.buffer tcp :=
        List.mem_flatMap.mpr ⟨o, List.mem_filter.mpr ⟨member, by simpa using kind⟩, by simp⟩
      have := (inside.timestamps (o + 6) field).2
      omega
    case sacks =>
      intro o visited
      rcases Nat.eq_zero_or_pos (sackBlocks p.buffer o) with none | some
      · exact .inl none
      · have last : o + 2 + 8 * (sackBlocks p.buffer o - 1) ∈ (sackRun p tcp offset).blocks := by
          rw [done.blocks]
          exact List.mem_flatMap.mpr ⟨o, visited, mem_blockStarts.mpr ⟨_, by omega, rfl⟩⟩
        have := (inside.blocks _ last).2
        omega
  · intro fits
    constructor
    case starts => exact fun o member => optionOffsets_bounds o member
    case timestamps =>
      intro f field
      obtain ⟨o, stamped, isField⟩ := List.mem_flatMap.mp field
      obtain ⟨member, kind⟩ := List.mem_filter.mp stamped
      have room := fits.timestamps o member (by simpa using kind)
      have start := (optionOffsets_bounds o member).1
      simp only [List.mem_cons, List.not_mem_nil, or_false] at isField
      omega
    case blocks =>
      intro b member
      rw [done.blocks] at member
      obtain ⟨o, visited, start⟩ := List.mem_flatMap.mp member
      obtain ⟨i, block, rfl⟩ := mem_blockStarts.mp start
      have lower := (optionOffsets_bounds o (visitedOptions_mem visited).1).1
      have room := fits.sacks o visited
      omega

theorem timestamp_outside_options :
    ∃ p, sniff (twoByteSegment [1, 1, 8, 10] [1, 2]) = .ok (.ok, p) ∧ p.tcp = some 20 ∧
      ∃ f ∈ timestampFields p.buffer 20, ¬f + 4 ≤ optionsEnd p.buffer 20 := by
  have evaluated : (sniff (twoByteSegment [1, 1, 8, 10] [1, 2])).toOption.map (fun sniffed => decide
      (sniffed.1 = .ok ∧ sniffed.2.tcp = some 20 ∧
        ∃ f ∈ timestampFields sniffed.2.buffer 20, ¬f + 4 ≤ optionsEnd sniffed.2.buffer 20)) = some true := by
    decide +kernel
  obtain ⟨⟨result, p⟩, sniffed, facts⟩ := ok_of_toOption evaluated
  obtain ⟨ok, tcp, outside⟩ := of_decide_eq_true facts
  simp only at ok
  subst ok
  exact ⟨p, sniffed, tcp, outside⟩

theorem optionAccess_inside_timestamp :
    ∃ p, sniff (twoByteSegment [8, 10, 0, 0, 0, 1, 0, 0, 0, 2, 5, 10, 0, 0, 0, 3, 0, 0, 0, 4] [1, 2]) = .ok (.ok, p) ∧
      p.tcp = some 20 ∧ timestampFields p.buffer 20 = [42, 46] ∧ (sackRun p 20 7).blocks = [52] ∧ AccessInside p 20 7 := by
  have evaluated : (sniff (twoByteSegment [8, 10, 0, 0, 0, 1, 0, 0, 0, 2, 5, 10, 0, 0, 0, 3, 0, 0, 0, 4] [1, 2])).toOption.map
      (fun sniffed => decide (sniffed.1 = .ok ∧ sniffed.2.tcp = some 20 ∧
        timestampFields sniffed.2.buffer 20 = [42, 46] ∧ (sackRun sniffed.2 20 7).blocks = [52] ∧
        (∀ o ∈ segmentOptions sniffed.2.buffer 20, sniffed.2.buffer.get8 o = tcpoptTimestamp →
          o + 10 ≤ optionsEnd sniffed.2.buffer 20) ∧
        ∀ o ∈ visitedOptions sniffed.2.buffer (optionsEnd sniffed.2.buffer 20) (20 + 20),
          sackBlocks sniffed.2.buffer o = 0 ∨
            o + 2 + 8 * sackBlocks sniffed.2.buffer o ≤ optionsEnd sniffed.2.buffer 20)) = some true := by
    decide +kernel
  obtain ⟨⟨result, p⟩, sniffed, facts⟩ := ok_of_toOption evaluated
  obtain ⟨ok, tcp, fields, blocks, timestamps, sacks⟩ := of_decide_eq_true facts
  simp only at ok
  subst ok
  exact ⟨p, sniffed, tcp, fields, blocks, (optionAccess_inside_iff tcp 7).2.2.mpr ⟨timestamps, sacks⟩⟩

end TcpFuzz
