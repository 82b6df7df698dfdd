import TcpFuzz.Packet.RoundTrip
import TcpFuzz.Script.TcpOption
import TcpFuzz.Tcp.OptionAccess

/-! The iterator of `tcp_options_iterator.c` finds the options that the grammar put into a packet. The grammar
collects the blocks of a SACK option one by one in a `struct tcp_option`. -/

namespace TcpFuzz
open Bytes Mem

section Option

variable {m : Mem} {stop option : Nat}

theorem bytes_head {n : Nat} {b : UInt8} {rest : List UInt8} (stored : m.bytes option (n + 1) = b :: rest) :
    m.get8 option = b.toNat ∧ m.bytes (option + 1) n = rest := by
  rw [Nat.add_comm, bytes_append] at stored
  have split : m option = b ∧ m.bytes (option + 1) n = rest := List.cons.inj stored
  exact ⟨congrArg UInt8.toNat split.1, split.2⟩

theorem tcpOptionsNext_withLength {kind expected : Nat} {data : List UInt8}
    (stored : m.bytes option (data.length + 2) = withLength kind data)
    (known : getExpectedTcpOptionLength kind = (expected, none)) (matching : expected = 0 ∨ expected = data.length + 2)
    (isKind : kind < 256) (short : data.length + 2 < 256) (inside : option + (data.length + 2) ≤ stop) :
    tcpOptionsNext m stop option = (getCurrentOption stop (option + (data.length + 2)), none) := by
  obtain ⟨first, rest⟩ := bytes_head stored
  obtain ⟨second, -⟩ := bytes_head rest
  rw [UInt8.toNat_ofNat_of_lt' isKind] at first
  rw [UInt8.toNat_ofNat_of_lt' (show 2 + data.length < 256 by omega), Nat.add_comm 2] at second
  have length : getTcpOptionLength m option stop expected = (some (data.length + 2), none) := by
    have far : ¬stop ≤ option + 1 := by omega
    have tooShort : ¬data.length + 2 < 2 := by omega
    have tooFar : ¬stop < option + (data.length + 2) := by omega
    have bad : ¬(expected ≠ 0 ∧ data.length + 2 ≠ expected) := by omega
    simp only [getTcpOptionLength, far, second, tooShort, tooFar, bad, if_false]
  have several : ¬expected = 1 := by omega
  simp only [tcpOptionsNext, first, known, if_neg several, length]
  rfl

theorem tcpOptionsNext_single (kind : Nat) (stored : m.bytes option 1 = [UInt8.ofNat kind]) (single : kind ≤ 1) :
    tcpOptionsNext m stop option = (getCurrentOption stop (option + 1), none) := by
  obtain ⟨first, -⟩ := bytes_head stored
  rw [UInt8.toNat_ofNat_of_lt' (show kind < 256 by omega)] at first
  have known : getExpectedTcpOptionLength kind = (1, none) := if_pos (by simp only [tcpoptEol, tcpoptNop]; omega)
  simp only [tcpOptionsNext, first, known, if_true]

theorem sackBytes_length (blocks : List SackBlock) : (blocks.flatMap SackBlock.bytes).length = 8 * blocks.length := by
  induction blocks with
  | nil => rfl
  | cons b blocks ih =>
    rw [List.flatMap_cons, List.length_append, ih, List.length_cons]
    simp only [SackBlock.bytes, List.length_append, be32Bytes_length]
    omega

theorem TcpOption.next (o : TcpOption) (stored : m.bytes option o.bytes.length = o.bytes)
    (inside : option + o.bytes.length ≤ stop) :
    tcpOptionsNext m stop option = (getCurrentOption stop (option + o.bytes.length), none) := by
  cases o with
  | nop => exact tcpOptionsNext_single 1 stored (by decide)
  | eol => exact tcpOptionsNext_single 0 stored (by decide)
  | mss bytes => exact tcpOptionsNext_withLength stored rfl (.inr rfl) (by decide) (show 4 < 256 by decide) inside
  | wscale shiftCount => exact tcpOptionsNext_withLength stored rfl (.inr rfl) (by decide) (show 3 < 256 by decide) inside
  | sackOk => exact tcpOptionsNext_withLength stored rfl (.inr rfl) (by decide) (by decide) inside
  | timestamp val ecr => exact tcpOptionsNext_withLength stored rfl (.inr rfl) (by decide) (show 10 < 256 by decide) inside
  | sack block more room =>
    refine tcpOptionsNext_withLength stored rfl (.inl rfl) (by decide) ?_ inside
    rw [sackBytes_length, List.length_cons]
    omega
  | md5 digest fits =>
    refine tcpOptionsNext_withLength stored rfl (.inl rfl) (by decide) ?_ inside
    simp only [tcpMd5DigestLen] at fits
    omega
  | fastOpen exp cookie fits =>
    simp only [maxCookieBytes, maxTcpOptionBytes] at fits
    cases exp with
    | false => exact tcpOptionsNext_withLength stored rfl (.inl rfl) (by decide) (by omega) inside
    | true =>
      refine tcpOptionsNext_withLength stored rfl (.inl rfl) (by decide) ?_ inside
      simp only [List.length_append, be16Bytes, List.length_cons, List.length_nil]
      omega

theorem TcpOption.bytes_pos (o : TcpOption) : 0 < o.bytes.length := by
  cases o with
  | fastOpen exp => cases exp <;> simp [TcpOption.bytes, withLength]
  | _ => simp [TcpOption.bytes, withLength]

theorem optionOffsets_step {next : Nat} (inside : option < stop)
    (step : (tcpOptionsNext m stop option).1 = getCurrentOption stop next) :
    optionOffsets m stop option = option :: optionOffsets m stop next := by
  unfold getCurrentOption at step
  split at step
  · rename_i ended
    rw [optionOffsets_none inside step, optionOffsets_nil (by omega)]
  · exact optionOffsets_some inside step

/-- The iterator finds the options where they are, and no step of it reports an error. -/
structure Finds (m : Mem) (stop start : Nat) (options : List TcpOption) : Prop where
  found : List.Forall₂ (fun (o : TcpOption) offset => m.bytes offset o.bytes.length = o.bytes) options
    (optionOffsets m stop start)
  fine : ∀ offset ∈ optionOffsets m stop start, (tcpOptionsNext m stop offset).2 = none

theorem finds_stored (options : List TcpOption)
    (stored : m.bytes option (options.flatMap TcpOption.bytes).length = options.flatMap TcpOption.bytes)
    (ends : stop = option + (options.flatMap TcpOption.bytes).length) : Finds m stop option options := by
  induction options generalizing option with
  | nil =>
    have none : optionOffsets m stop option = [] := optionOffsets_nil (by simp [ends])
    constructor
    · rw [none]
      exact .nil
    · rw [none]
      simp
  | cons o options ih =>
    rw [List.flatMap_cons, List.length_append] at stored ends
    rw [bytes_append] at stored
    obtain ⟨here, later⟩ := List.append_inj stored (by rw [bytes_length])
    have step := o.next here (show option + o.bytes.length ≤ stop by omega)
    have inside : option < stop := by
      have := o.bytes_pos
      omega
    have walk := optionOffsets_step inside (congrArg Prod.fst step)
    obtain ⟨found, fine⟩ := ih later (by omega)
    constructor
    · rw [walk]
      exact .cons here found
    · intro offset at_offset
      rw [walk] at at_offset
      rcases List.mem_cons.mp at_offset with rfl | at_offset
      · exact congrArg Prod.snd step
      · exact fine offset at_offset

end Option

theorem tcpOptionsAppend_all (options : List TcpOption) (os : TcpOptions)
    (fits : os.data.length + (options.flatMap TcpOption.bytes).length ≤ maxTcpOptionBytes) :
    ∃ os', options.foldlM tcpOptionsAppend os = some os' ∧ os'.options = os.options ++ options := by
  induction options generalizing os with
  | nil => exact ⟨os, rfl, (List.append_nil _).symm⟩
  | cons o options ih =>
    rw [List.flatMap_cons, List.length_append] at fits
    have room : os.data.length + o.bytes.length ≤ maxTcpOptionBytes := by omega
    rw [List.foldlM_cons, tcpOptionsAppend, dif_pos room]
    obtain ⟨os', all, options'⟩ := ih ⟨os.options ++ [o], _⟩ (by
      rw [TcpOptions.data, List.flatMap_append, List.length_append, List.flatMap_singleton]
      rw [TcpOptions.data] at fits
      omega)
    exact ⟨os', all, by rw [options', List.append_assoc, List.singleton_append]⟩

theorem tcpPacket_finds {a : TcpArgs} (allocated : Mem) (accepted : a.Accepted) {options : List TcpOption}
    (holds : a.optionBytes = options.flatMap TcpOption.bytes) :
    ∃ start stop, tcpOptionsBegin (tcpPacket allocated a) = .ok (start, stop) ∧
      Finds (tcpPacket allocated a).buffer stop start options := by
  refine ⟨_, _, tcpOptionsBegin_eq rfl, finds_stored options ?_ ?_⟩
  · rw [← holds]
    exact setTcpHeader_options _ _ a
  · have aligned : a.tcpHeaderBytes / 4 * 4 = a.tcpHeaderBytes := by
      have := accepted.padded
      unfold TcpArgs.tcpHeaderBytes
      omega
    have doff : tcpDoff (tcpPacket allocated a).buffer (ipHeaderMinLen a.family) = a.tcpHeaderBytes / 4 :=
      setTcpHeader_doff _ _ a accepted.header
    rw [optionsEnd, doff, aligned, ← holds, TcpArgs.tcpHeaderBytes]
    omega

/-- The options of a script come back from the packet: all of them are appended, the packet is built
unless something else about it is refused, and the iterator finds them in order, without an error. -/
theorem option_list_round_trip (options : List TcpOption)
    (fits : (options.flatMap TcpOption.bytes).length ≤ maxTcpOptionBytes)
    (padded : (options.flatMap TcpOption.bytes).length % 4 = 0) :
    ∃ os, options.foldlM tcpOptionsAppend tcpOptionsNew = some os ∧ os.options = options ∧
      ∀ allocated a, a.tcpOptions = some os.data →
        (a.ipBytes ≤ 65535 → invalidTcpFlag a.flags = none → a.window ≠ -1 → ∃ p, newTcpPacket allocated a = .ok (.ok p)) ∧
        ∀ p, newTcpPacket allocated a = .ok (.ok p) →
          ∃ start stop, tcpOptionsBegin p = .ok (start, stop) ∧ Finds p.buffer stop start options := by
  obtain ⟨os, all, same⟩ := tcpOptionsAppend_all options tcpOptionsNew (by simpa [tcpOptionsNew, TcpOptions.data] using fits)
  have same : os.options = options := same
  refine ⟨os, all, same, fun allocated a given => ?_⟩
  have holds : a.optionBytes = options.flatMap TcpOption.bytes := by
    rw [TcpArgs.optionBytes, given, Option.getD_some, TcpOptions.data, same]
  constructor
  · intro small flags window
    have accepted : a.Accepted := by
      refine ⟨by rw [holds]; exact padded, ?_, by omega, flags⟩
      rw [TcpArgs.tcpHeaderBytes, holds]
      rw [maxTcpOptionBytes] at fits
      omega
    have fitsIp : FitsIpHeader a.family a.ipBytes := by
      intro inet6
      have large : 40 ≤ a.ipBytes := by
        rw [TcpArgs.ipBytes, inet6, ipHeaderMinLen]
        omega
      rw [u16, Nat.mod_eq_of_lt (by omega)]
      exact large
    exact ⟨_, newTcpPacket_eq allocated accepted fitsIp fun both => window both.1⟩
  · intro p built
    rcases newTcpPacket_cases allocated a with ⟨e, refused⟩ | ⟨-, -, failed⟩ | ⟨accepted, -, -, done⟩
    · cases refused.symm.trans built
    · cases failed.symm.trans built
    · cases done.symm.trans built
      exact tcpPacket_finds allocated accepted holds

def synOptions : List TcpOption := [.mss 1460, .sackOk, .timestamp 100 0, .nop, .wscale 7]

theorem option_list_round_trip_syn :
    ∃ os, synOptions.foldlM tcpOptionsAppend tcpOptionsNew = some os ∧ os.options = synOptions ∧
      ∀ allocated a, a.tcpOptions = some os.data →
        (a.ipBytes ≤ 65535 → invalidTcpFlag a.flags = none → a.window ≠ -1 → ∃ p, newTcpPacket allocated a = .ok (.ok p)) ∧
        ∀ p, newTcpPacket allocated a = .ok (.ok p) →
          ∃ start stop, tcpOptionsBegin p = .ok (start, stop) ∧ Finds p.buffer stop start synOptions :=
  option_list_round_trip synOptions (by decide) (by decide)

/-! ### `struct tcp_option`

The members of the union `data` are at most 38 bytes long; the alignment of the 32-bit members makes
the union a multiple of four bytes, as packing the structure around it does not reach into it. -/

def optionDataBytes : Nat := 40

@[ext] structure OptionStruct where
  kind : UInt8
  length : UInt8
  data : List UInt8
  sized : data.length = optionDataBytes
deriving DecidableEq

def tcpOptionNew (kind length : UInt8) : OptionStruct := ⟨kind, length, List.replicate optionDataBytes 0, by simp⟩

def OptionStruct.store (o : OptionStruct) (offset : Nat) (bytes : List UInt8) : Run OptionStruct :=
  if fits : offset + bytes.length ≤ optionDataBytes then
    .ok { o with
      data := o.data.take offset ++ bytes ++ o.data.drop (offset + bytes.length)
      sized := by
        have := o.sized
        simp only [List.length_append, List.length_take, List.length_drop]
        omega }
  else .error .invalidAccess

def sackBlock (b : SackBlock) : Run OptionStruct := (tcpOptionNew (UInt8.ofNat tcpoptSack) 10).store 0 b.bytes

/-- The step of `sack_block_list`. The length is a byte, and the rest is computed from it. -/
def sackBlockAppend (list : OptionStruct) (block : SackBlock) : Run OptionStruct := do
  let option ← sackBlock block
  let listBlockBytes : Int := list.length.toNat - 2
  assertThat (0 < listBlockBytes)
  assertThat (listBlockBytes % 8 = 0)
  let numBlocks := (listBlockBytes / 8).toNat
  let list ← list.store (8 * numBlocks) (option.data.take 8)
  return { list with length := list.length + 8 }

def sackBlockListStruct (first : SackBlock) (more : List SackBlock) : Run OptionStruct := do
  let list ← sackBlock first
  more.foldlM sackBlockAppend list

/-- `tcp_options_append` to an empty list, with the bytes that it copies from the structure. -/
def appendToEmpty (o : OptionStruct) : Option (List UInt8) :=
  if maxTcpOptionBytes < o.length.toNat then none
  else some ((o.kind :: o.length :: o.data).take o.length.toNat)

def holding (blocks : List SackBlock) (room : blocks.length ≤ 5) : OptionStruct where
  kind := UInt8.ofNat tcpoptSack
  length := UInt8.ofNat (2 + 8 * blocks.length)
  data := blocks.flatMap SackBlock.bytes ++ List.replicate (optionDataBytes - 8 * blocks.length) 0
  sized := by
    rw [List.length_append, sackBytes_length, List.length_replicate, optionDataBytes]
    omega

theorem SackBlock.bytes_length (b : SackBlock) : b.bytes.length = 8 := rfl

theorem sackBlock_eq (b : SackBlock) : sackBlock b = .ok (holding [b] (show 1 ≤ 5 by decide)) := by
  rw [sackBlock, OptionStruct.store, dif_pos (by rw [b.bytes_length]; decide)]
  rfl

theorem sackBlockAppend_eq (blocks : List SackBlock) (some_ : blocks ≠ []) (room : blocks.length ≤ 5) (b : SackBlock) :
    sackBlockAppend (holding blocks room) b =
      if more : blocks.length + 1 ≤ 5 then .ok (holding (blocks ++ [b]) (List.length_append.trans_le more))
      else .error .invalidAccess := by
  have count : 0 < blocks.length := List.length_pos_iff.mpr some_
  have length : (holding blocks room).length.toNat = 2 + 8 * blocks.length :=
    UInt8.toNat_ofNat_of_lt' (show 2 + 8 * blocks.length < 256 by omega)
  have block : (holding [b] (by simp)).data.take 8 = b.bytes := List.take_left' b.bytes_length
  have positive : (0 : Int) < ((2 + 8 * blocks.length : Nat) : Int) - 2 := by omega
  have whole : (((2 + 8 * blocks.length : Nat) : Int) - 2) % 8 = 0 := by omega
  have number : ((((2 + 8 * blocks.length : Nat) : Int) - 2) / 8).toNat = blocks.length := by omega
  simp only [sackBlockAppend, sackBlock_eq, ok_bind, length, assertThat_ok positive, assertThat_ok whole, number, block]
  rw [OptionStruct.store]
  by_cases more : blocks.length + 1 ≤ 5
  · rw [dif_pos (by rw [b.bytes_length, optionDataBytes]; omega), dif_pos more, ok_bind, run_pure]
    refine congrArg Except.ok (OptionStruct.ext rfl ?_ ?_)
    · show UInt8.ofNat (2 + 8 * blocks.length) + UInt8.ofNat 8 = UInt8.ofNat (2 + 8 * (blocks ++ [b]).length)
      rw [← UInt8.ofNat_add, List.length_append, List.length_singleton, Nat.mul_add, Nat.add_assoc]
    · simp only [holding]
      have filled := sackBytes_length blocks
      rw [List.take_left' filled, b.bytes_length, List.drop_append, filled,
        List.drop_eq_nil_of_le (by omega), List.nil_append, List.drop_replicate, List.flatMap_append,
        List.flatMap_singleton, List.length_append, List.length_singleton]
      congr 2
      rw [optionDataBytes]
      omega
  · rw [dif_neg (by rw [b.bytes_length, optionDataBytes]; omega), dif_neg more]
    rfl

theorem sackBlockListStruct_eq (first : SackBlock) (more : List SackBlock) (room : (first :: more).length ≤ 5) :
    sackBlockListStruct first more = .ok (holding (first :: more) room) := by
  rw [sackBlockListStruct, sackBlock_eq, ok_bind]
  have collect (later done : List SackBlock) (some_ : done ≠ []) (room : (done ++ later).length ≤ 5) :
      later.foldlM sackBlockAppend (holding done (by rw [List.length_append] at room; omega)) =
        .ok (holding (done ++ later) room) := by
    induction later generalizing done with
    | nil => simp only [List.foldlM_nil, List.append_nil, run_pure]
    | cons b later ih =>
      have fits : done.length + 1 ≤ 5 := by
        rw [List.length_append, List.length_cons] at room
        omega
      rw [List.foldlM_cons, sackBlockAppend_eq done some_ _ b, dif_pos fits, ok_bind]
      have all : done ++ [b] ++ later = done ++ b :: later := by rw [List.append_assoc, List.singleton_append]
      rw [ih (done ++ [b]) (by simp) (by rw [all]; exact room)]
      simp only [all]
  exact collect more [first] (by simp) room

theorem sackBlockListStruct_overflows (first : SackBlock) (more : List SackBlock) (many : 5 < (first :: more).length) :
    sackBlockListStruct first more = .error .invalidAccess := by
  match more, many with
  | b :: c :: d :: e :: f :: more, _ =>
    have five := sackBlockListStruct_eq first [b, c, d, e] (by simp)
    rw [sackBlockListStruct, sackBlock_eq, ok_bind] at five ⊢
    have split : b :: c :: d :: e :: f :: more = [b, c, d, e] ++ f :: more := rfl
    rw [split, List.foldlM_append, five, ok_bind, List.foldlM_cons, sackBlockAppend_eq _ (by simp), dif_neg (by simp)]
    rfl

def SackListFits (first : SackBlock) (more : List SackBlock) : Prop :=
  ∃ option, sackBlockListStruct first more = .ok option ∧
    ((appendToEmpty option).isSome ↔ (first :: more).length ≤ 4) ∧
    ∀ bytes ∈ appendToEmpty option,
      bytes = withLength tcpoptSack ((first :: more).flatMap SackBlock.bytes) ∧
        option.length.toNat = 2 + 8 * (first :: more).length

theorem appendToEmpty_holding (blocks : List SackBlock) (room : blocks.length ≤ 5) :
    appendToEmpty (holding blocks room) =
      if blocks.length ≤ 4 then some (withLength tcpoptSack (blocks.flatMap SackBlock.bytes)) else none := by
  have length : (holding blocks room).length.toNat = 2 + 8 * blocks.length :=
    UInt8.toNat_ofNat_of_lt' (show 2 + 8 * blocks.length < 256 by omega)
  rw [appendToEmpty, length, maxTcpOptionBytes]
  by_cases few : blocks.length ≤ 4
  · rw [if_neg (by omega), if_pos few, Nat.add_comm, List.take_succ_cons, List.take_succ_cons]
    have filled := sackBytes_length blocks
    simp only [holding, List.take_left' filled, withLength, filled]
  · rw [if_pos (by omega), if_neg few]

/-- Up to five blocks are collected without harm, and four of them are accepted. -/
theorem sack_list_bounded (first : SackBlock) (more : List SackBlock) :
    SackListFits first more ↔ (first :: more).length ≤ 5 := by
  constructor
  · rintro ⟨option, built, -⟩
    by_contra many
    rw [sackBlockListStruct_overflows first more (by omega)] at built
    cases built
  · intro room
    refine ⟨_, sackBlockListStruct_eq first more room, ?_, ?_⟩
    · rw [appendToEmpty_holding]
      split <;> simp_all
    · intro bytes accepted
      rw [appendToEmpty_holding] at accepted
      split at accepted
      · cases accepted
        exact ⟨rfl, UInt8.toNat_ofNat_of_lt' (show 2 + 8 * (first :: more).length < 256 by omega)⟩
      · cases accepted

theorem sack_list_overflow :
    sackBlockListStruct ⟨1, 2⟩ (List.replicate 5 ⟨3, 4⟩) = .error .invalidAccess := by
  decide +kernel

end TcpFuzz
