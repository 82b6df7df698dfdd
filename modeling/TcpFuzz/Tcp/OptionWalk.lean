import Mathlib.Data.List.Induction
import Mathlib.Data.List.TakeWhile
import TcpFuzz.Tcp.Options

/-! Where the iterator finds options, and what the loops over them do as a whole. -/

namespace TcpFuzz
open Bytes Mem

variable {next o p j n option : Nat} {m : Mem} {offset : UInt32}

def optionOffsets (m : Mem) (stop option : Nat) : List Nat :=
  if option < stop then
    option :: match _found : (tcpOptionsNext m stop option).1 with
      | none => []
      | some next => optionOffsets m stop next
  else []
termination_by stop - option
decreasing_by
  have := tcpOptionsNext_bounds _found
  omega

section Walk

variable {m m' : Mem} {stop option : Nat}

theorem optionOffsets_none (inside : option < stop) (last : (tcpOptionsNext m stop option).1 = none) :
    optionOffsets m stop option = [option] := by
  rw [optionOffsets, if_pos inside]
  split
  next => rfl
  next next found => cases last.symm.trans found

theorem optionOffsets_some (inside : option < stop)
    (found : (tcpOptionsNext m stop option).1 = some next) :
    optionOffsets m stop option = option :: optionOffsets m stop next := by
  rw [optionOffsets, if_pos inside]
  split
  next none => cases found.symm.trans none
  next other same => cases found.symm.trans same; rfl

theorem optionOffsets_nil (outside : ¬option < stop) : optionOffsets m stop option = [] := by
  rw [optionOffsets, if_neg outside]

theorem optionWalk {motive : Nat → Prop} (m : Mem) (stop : Nat) (outside : ∀ option, ¬option < stop → motive option)
    (last : ∀ option, option < stop → (tcpOptionsNext m stop option).1 = none → motive option)
    (more : ∀ option next, option < stop → (tcpOptionsNext m stop option).1 = some next → motive next → motive option)
    (option : Nat) : motive option := by
  by_cases inside : option < stop
  · cases found : (tcpOptionsNext m stop option).1 with
    | none => exact last option inside found
    | some next =>
      have := tcpOptionsNext_bounds found
      exact more option next inside found (optionWalk m stop outside last more next)
  · exact outside option inside
termination_by stop - option

theorem optionOffsets_bounds : ∀ o ∈ optionOffsets m stop option, option ≤ o ∧ o < stop := by
  induction option using optionWalk m stop with
  | outside option outside => simp [optionOffsets_nil outside]
  | last option inside last => simp [optionOffsets_none inside last, inside]
  | more option next inside found ih =>
    rw [optionOffsets_some inside found]
    have bounds := tcpOptionsNext_bounds found
    intro o member
    rcases List.mem_cons.mp member with rfl | behind
    · omega
    · have := ih o behind
      omega

theorem tcpOptionsNext_congr (kind : m'.get8 option = m.get8 option)
    (length : option + 1 < stop → m'.get8 (option + 1) = m.get8 (option + 1)) :
    (tcpOptionsNext m' stop option).1 = (tcpOptionsNext m stop option).1 := by
  rw [tcpOptionsNext_eq, tcpOptionsNext_eq, kind]
  by_cases far : stop ≤ option + 1
  · simp only [far, true_or, if_true]
  · rw [length (by omega)]

theorem mem_optionOffsets (inside : option < stop) : option ∈ optionOffsets m stop option := by
  rw [optionOffsets, if_pos inside]
  exact List.mem_cons_self

theorem optionOffsets_congr (same : ∀ o ∈ optionOffsets m stop option,
    m'.get8 o = m.get8 o ∧ (o + 1 < stop → m'.get8 (o + 1) = m.get8 (o + 1))) :
    optionOffsets m' stop option = optionOffsets m stop option := by
  induction option using optionWalk m stop with
  | outside option outside => rw [optionOffsets_nil outside, optionOffsets_nil outside]
  | last option inside last =>
    obtain ⟨kind, length⟩ := same option (mem_optionOffsets inside)
    have step : (tcpOptionsNext m' stop option).1 = (tcpOptionsNext m stop option).1 :=
      tcpOptionsNext_congr kind length
    rw [optionOffsets_none inside last, optionOffsets_none inside (step.trans last)]
  | more option next inside found ih =>
    obtain ⟨kind, length⟩ := same option (mem_optionOffsets inside)
    have step : (tcpOptionsNext m' stop option).1 = (tcpOptionsNext m stop option).1 :=
      tcpOptionsNext_congr kind length
    rw [optionOffsets_some inside found] at same
    rw [optionOffsets_some inside found, optionOffsets_some inside (step.trans found),
      ih fun o member => same o (List.mem_cons_of_mem _ member)]

theorem optionOffsets_ordered {o' : Nat} (found : o ∈ optionOffsets m stop option)
    (found' : o' ∈ optionOffsets m stop option) (before : o < o') :
    ∃ next, (tcpOptionsNext m stop o).1 = some next ∧ next ≤ o' := by
  induction option using optionWalk m stop with
  | outside option outside => simp [optionOffsets_nil outside] at found
  | last option inside last =>
    rw [optionOffsets_none inside last, List.mem_singleton] at found found'
    omega
  | more option next inside step ih =>
    rw [optionOffsets_some inside step, List.mem_cons] at found found'
    have bounds := tcpOptionsNext_bounds step
    rcases found' with rfl | found'
    · rcases found with rfl | found
      · omega
      · have := optionOffsets_bounds o found
        omega
    · rcases found with rfl | found
      · exact ⟨next, step, (optionOffsets_bounds o' found').1⟩
      · exact ih found found'

theorem tcpOptionsNext_length (long : 1 < m.get8 option)
    (found : (tcpOptionsNext m stop option).1 = some next) : next = option + m.get8 (option + 1) := by
  rw [tcpOptionsNext_eq, if_neg (by omega)] at found
  split at found
  · cases found
  · unfold getCurrentOption at found
    split at found <;> cases found
    rfl

end Walk

def optionsEnd (m : Mem) (tcp : Nat) : Nat := tcp + tcpDoff m tcp * 4

def segmentOptions (m : Mem) (tcp : Nat) : List Nat := optionOffsets m (optionsEnd m tcp) (tcp + 20)

section Loop

variable {σ : Type} {mem : σ → Mem} {stop option : Nat} {body : σ → Nat → Except String σ} {s s' : σ}

theorem forOptions_outside (outside : ¬option < stop) : forOptions mem stop body s option = .ok s := by
  rw [forOptions, if_neg outside]

theorem forOptions_error {e : String} (inside : option < stop) (step : body s option = .error e) :
    forOptions mem stop body s option = .error e := by
  rw [forOptions, if_pos inside, step]

theorem forOptions_last (inside : option < stop) (step : body s option = .ok s')
    (last : (tcpOptionsNext (mem s') stop option).1 = none) : forOptions mem stop body s option = .ok s' := by
  rw [forOptions, if_pos inside, step]
  simp only
  split
  next => rfl
  next next found => cases last.symm.trans found

theorem forOptions_more (inside : option < stop) (step : body s option = .ok s')
    (found : (tcpOptionsNext (mem s') stop option).1 = some next) :
    forOptions mem stop body s option = forOptions mem stop body s' next := by
  rw [forOptions, if_pos inside, step]
  simp only
  split
  next none => cases found.symm.trans none
  next other same => cases found.symm.trans same; rfl

end Loop

def sackBlocks (m : Mem) (option : Nat) : Nat :=
  if m.get8 option = tcpoptSack then (m.get8 (option + 1) - 2) / 8 else 0

def ShortSack (m : Mem) (option : Nat) : Prop := m.get8 option = tcpoptSack ∧ m.get8 (option + 1) ≤ 2

instance (m : Mem) (option : Nat) : Decidable (ShortSack m option) :=
  inferInstanceAs (Decidable (_ ∧ _))

def InSackBlocks (m : Mem) (option j : Nat) : Prop := option + 2 ≤ j ∧ j < option + 2 + 8 * sackBlocks m option

section Blocks

variable {offset : UInt32}

theorem add_neg_toNat (x : UInt32) : (x.toNat + (-x).toNat) % 2 ^ 32 = 0 := by
  have sum := UInt32.toNat_add x (-x)
  rw [UInt32.add_right_neg] at sum
  exact sum.symm

theorem get8_addSeq_ne (m : Mem) (apart : j < p ∨ p + 3 < j) :
    (addSeq m p offset).get8 j = m.get8 j := get8_putBe32_ne m _ apart

theorem be32_addSeq_ne (m : Mem) (apart : j + 3 < p ∨ p + 3 < j) :
    (addSeq m p offset).be32 j = m.be32 j := be32_putBe32_ne m _ apart.symm

theorem be32_addSeq_self (m : Mem) (p : Nat) :
    (addSeq m p offset).be32 p = (m.be32 p + offset.toNat) % 2 ^ 32 := by
  rw [addSeq, be32_putBe32_self]
  omega

theorem get8_offsetBlocks_ne (m : Mem) (apart : j < p ∨ p + 8 * n ≤ j) :
    (offsetBlocks m p offset n).get8 j = m.get8 j := by
  induction n generalizing m p with
  | zero => rfl
  | succ n ih =>
    rw [offsetBlocks, ih _ (by omega), get8_addSeq_ne _ (by omega), get8_addSeq_ne _ (by omega)]

theorem be32_offsetBlocks_ne (m : Mem) (apart : j + 3 < p ∨ p + 8 * n ≤ j) :
    (offsetBlocks m p offset n).be32 j = m.be32 j := by
  induction n generalizing m p with
  | zero => rfl
  | succ n ih =>
    rw [offsetBlocks, ih _ (by omega), be32_addSeq_ne _ (by omega), be32_addSeq_ne _ (by omega)]

theorem be32_offsetBlocks {i : Nat} (m : Mem) (inside : i < 2 * n) :
    (offsetBlocks m p offset n).be32 (p + 4 * i) = (m.be32 (p + 4 * i) + offset.toNat) % 2 ^ 32 := by
  induction n generalizing m p i with
  | zero => omega
  | succ n ih =>
    rw [offsetBlocks]
    match i with
    | 0 =>
      simp (disch := omega) only [Nat.mul_zero, Nat.add_zero, be32_offsetBlocks_ne, be32_addSeq_ne, be32_addSeq_self]
    | 1 => rw [be32_offsetBlocks_ne _ (by omega), be32_addSeq_self, be32_addSeq_ne _ (by omega)]
    | i + 2 =>
      have later : p + 4 * (i + 2) = p + 8 + 4 * i := by omega
      rw [later, ih _ (by omega), be32_addSeq_ne _ (by omega), be32_addSeq_ne _ (by omega)]

end Blocks

/-- The memory after the loop: every edge of the blocks of every option found is offset, and nothing
else changes. -/
structure SacksOffset (m : Mem) (stop option : Nat) (offset : UInt32) (m' : Mem) : Prop where
  edges : ∀ o ∈ optionOffsets m stop option, ∀ i < 2 * sackBlocks m o,
    m'.be32 (o + 2 + 4 * i) = (m.be32 (o + 2 + 4 * i) + offset.toNat) % 2 ^ 32
  frame : ∀ j, (∀ o ∈ optionOffsets m stop option, ¬InSackBlocks m o j) → m'.get8 j = m.get8 j

/-- The memory that the loop of `offset_sack_blocks` leaves, its error, and the blocks that it reads
and rewrites. The blocks before an error stay rewritten. -/
structure SackRun where
  buffer : Mem
  error : Option String
  blocks : List Nat

def blockStarts (m : Mem) (option : Nat) : List Nat := (List.range (sackBlocks m option)).map fun i => option + 2 + 8 * i

def offsetSackRun (offset : UInt32) (stop : Nat) (m : Mem) (option : Nat) : SackRun :=
  if option < stop then
    match offsetSackOption offset m option with
    | .error e => ⟨m, some e, []⟩
    | .ok m' =>
      match _found : (tcpOptionsNext m' stop option).1 with
      | none => ⟨m', none, blockStarts m option⟩
      | some next =>
        let rest := offsetSackRun offset stop m' next
        { rest with blocks := blockStarts m option ++ rest.blocks }
  else ⟨m, none, []⟩
termination_by stop - option
decreasing_by
  have := tcpOptionsNext_bounds _found
  omega

def visitedOptions (m : Mem) (stop option : Nat) : List Nat :=
  (optionOffsets m stop option).takeWhile fun o => !decide (ShortSack m o)

/-- Every edge of the blocks of some options is offset, and nothing else changes. -/
structure BlocksOffset (m : Mem) (options : List Nat) (offset : UInt32) (m' : Mem) : Prop where
  edges : ∀ o ∈ options, ∀ i < 2 * sackBlocks m o,
    m'.be32 (o + 2 + 4 * i) = (m.be32 (o + 2 + 4 * i) + offset.toNat) % 2 ^ 32
  frame : ∀ j, (∀ o ∈ options, ¬InSackBlocks m o j) → m'.get8 j = m.get8 j

theorem shortSack_congr {m' : Mem} (kind : m'.get8 option = m.get8 option)
    (length : m'.get8 (option + 1) = m.get8 (option + 1)) : ShortSack m' option ↔ ShortSack m option := by
  unfold ShortSack
  rw [kind, length]

theorem BlocksOffset.nil : BlocksOffset m [] offset m where
  edges _ member := absurd member List.not_mem_nil
  frame _ _ := rfl

theorem BlocksOffset.single :
    BlocksOffset m [option] offset (offsetBlocks m (option + 2) offset (sackBlocks m option)) where
  edges o member i edge := by
    obtain rfl := List.mem_singleton.mp member
    exact be32_offsetBlocks m edge
  frame j outside := by
    apply get8_offsetBlocks_ne
    have := outside option (List.mem_singleton.mpr rfl)
    unfold InSackBlocks at this
    omega

section SackLoop

variable {m m' : Mem} {stop option : Nat} {offset : UInt32}

theorem offsetSackOption_short (short : ShortSack m option) :
    offsetSackOption offset m option = .error "TCP SACK option too short" := by
  rw [offsetSackOption, if_pos short.1, numSackBlocks, if_pos short.2]

theorem offsetSackOption_ok (offset : UInt32) (long : ¬ShortSack m option) :
    offsetSackOption offset m option = .ok (offsetBlocks m (option + 2) offset (sackBlocks m option)) := by
  unfold offsetSackOption sackBlocks
  split
  next kind =>
    have enough : ¬m.get8 (option + 1) ≤ 2 := fun short => long ⟨kind, short⟩
    rw [numSackBlocks, if_neg enough]
  next => rfl

theorem InSackBlocks.before_next (block : InSackBlocks m option j)
    (found : (tcpOptionsNext m stop option).1 = some next) : j < next := by
  obtain ⟨lower, upper⟩ := block
  unfold sackBlocks at upper
  split at upper
  next kind =>
    simp only [tcpoptSack] at kind
    have := tcpOptionsNext_length (by omega) found
    omega
  next => omega

theorem InSackBlocks.apart {o' : Nat} (found : o ∈ optionOffsets m stop option)
    (found' : o' ∈ optionOffsets m stop option) (block : InSackBlocks m o' j) : j ≠ o ∧ j ≠ o + 1 := by
  have start := block.1
  induction option using optionWalk m stop with
  | outside option outside => simp [optionOffsets_nil outside] at found
  | last option inside last =>
    rw [optionOffsets_none inside last, List.mem_singleton] at found found'
    omega
  | more option next inside step ih =>
    rw [optionOffsets_some inside step, List.mem_cons] at found found'
    rcases found' with rfl | found'
    · have before := block.before_next step
      rcases found with rfl | found
      · omega
      · have := optionOffsets_bounds o found
        omega
    · rcases found with rfl | found
      · have := optionOffsets_bounds o' found'
        have := tcpOptionsNext_bounds step
        omega
      · exact ih found found'

theorem optionOffsets_behind (same : ∀ j, option ≤ j → m'.get8 j = m.get8 j) :
    optionOffsets m' stop option = optionOffsets m stop option := by
  apply optionOffsets_congr
  intro o member
  have := optionOffsets_bounds o member
  exact ⟨same o (by omega), fun _ => same (o + 1) (by omega)⟩

theorem sackBlocks_congr (kind : m'.get8 option = m.get8 option)
    (length : m'.get8 (option + 1) = m.get8 (option + 1)) : sackBlocks m' option = sackBlocks m option := by
  unfold sackBlocks
  rw [kind, length]

theorem get8_offsetBlocks_next (found : (tcpOptionsNext m stop option).1 = some next)
    (behind : next ≤ j) : (offsetBlocks m (option + 2) offset (sackBlocks m option)).get8 j = m.get8 j := by
  apply get8_offsetBlocks_ne
  have before : InSackBlocks m option j → j < next := fun block => block.before_next found
  unfold InSackBlocks at before
  omega

/-- The first option's blocks are offset before the walk goes on, and they end before the next
option, so the walk and what it finds stay as they were. -/
theorem BlocksOffset.cons {options : List Nat} (found : (tcpOptionsNext m stop option).1 = some next)
    (behind : ∀ o ∈ options, next ≤ o)
    (rest : BlocksOffset (offsetBlocks m (option + 2) offset (sackBlocks m option)) options offset m') :
    BlocksOffset m (option :: options) offset m' := by
  have blocks {o : Nat} (member : o ∈ options) :
      sackBlocks (offsetBlocks m (option + 2) offset (sackBlocks m option)) o = sackBlocks m o := by
    have := behind o member
    exact sackBlocks_congr (get8_offsetBlocks_next found (by omega)) (get8_offsetBlocks_next found (by omega))
  refine ⟨fun o member i edge => ?_, fun j outside => ?_⟩
  · rcases List.mem_cons.mp member with rfl | later
    · have kept : m'.be32 (o + 2 + 4 * i) =
          (offsetBlocks m (o + 2) offset (sackBlocks m o)).be32 (o + 2 + 4 * i) := by
        apply be32_of_get8
        intro k lower upper
        have before : k < next := InSackBlocks.before_next ⟨by omega, by omega⟩ found
        apply rest.frame
        intro later member block
        have := behind later member
        have := block.1
        omega
      rw [kept, be32_offsetBlocks m edge]
    · have := behind o later
      have kept : (offsetBlocks m (option + 2) offset (sackBlocks m option)).be32 (o + 2 + 4 * i) =
          m.be32 (o + 2 + 4 * i) :=
            be32_of_get8 fun k lower _ => get8_offsetBlocks_next found (by omega)
      rw [← kept]
      exact rest.edges o later i (blocks later ▸ edge)
  · rw [rest.frame j]
    · apply get8_offsetBlocks_ne
      have := outside option List.mem_cons_self
      unfold InSackBlocks at this
      omega
    · intro o member
      unfold InSackBlocks
      rw [blocks member]
      exact outside o (List.mem_cons_of_mem _ member)

theorem offsetSackRun_outside (outside : ¬option < stop) : offsetSackRun offset stop m option = ⟨m, none, []⟩ := by
  rw [offsetSackRun, if_neg outside]

theorem offsetSackRun_short (inside : option < stop) (short : ShortSack m option) :
    offsetSackRun offset stop m option = ⟨m, some "TCP SACK option too short", []⟩ := by
  rw [offsetSackRun, if_pos inside, offsetSackOption_short short]

section Long

variable (inside : option < stop) (long : ¬ShortSack m option)
include inside long

theorem offsetSackRun_last (last : (tcpOptionsNext m stop option).1 = none) :
    offsetSackRun offset stop m option =
      ⟨offsetBlocks m (option + 2) offset (sackBlocks m option), none, blockStarts m option⟩ := by
  have same : (tcpOptionsNext (offsetBlocks m (option + 2) offset (sackBlocks m option)) stop option).1 = none :=
    (tcpOptionsNext_congr (get8_offsetBlocks_ne _ (by omega)) fun _ => get8_offsetBlocks_ne _ (by omega)).trans last
  rw [offsetSackRun, if_pos inside, offsetSackOption_ok offset long]
  simp only
  split
  next => rfl
  next next found => cases same.symm.trans found

theorem offsetSackRun_more (found : (tcpOptionsNext m stop option).1 = some next) :
    offsetSackRun offset stop m option =
      let rest := offsetSackRun offset stop (offsetBlocks m (option + 2) offset (sackBlocks m option)) next
      { rest with blocks := blockStarts m option ++ rest.blocks } := by
  have same : (tcpOptionsNext (offsetBlocks m (option + 2) offset (sackBlocks m option)) stop option).1 = some next :=
    (tcpOptionsNext_congr (get8_offsetBlocks_ne _ (by omega)) fun _ => get8_offsetBlocks_ne _ (by omega)).trans found
  rw [offsetSackRun, if_pos inside, offsetSackOption_ok offset long]
  simp only
  split
  next none => cases same.symm.trans none
  next other found' => cases same.symm.trans found'; rfl

end Long

theorem visitedOptions_mem (visited : o ∈ visitedOptions m stop option) :
    o ∈ optionOffsets m stop option ∧ ¬ShortSack m o := by
  refine ⟨(List.takeWhile_prefix _).subset visited, ?_⟩
  simpa using List.mem_takeWhile_imp visited

theorem visitedOptions_congr (same : ∀ o ∈ optionOffsets m stop option,
    m'.get8 o = m.get8 o ∧ m'.get8 (o + 1) = m.get8 (o + 1)) :
    visitedOptions m' stop option = visitedOptions m stop option := by
  unfold visitedOptions
  rw [optionOffsets_congr fun o member => ⟨(same o member).1, fun _ => (same o member).2⟩]
  generalize optionOffsets m stop option = options at same
  induction options with
  | nil => rfl
  | cons o rest ih =>
    obtain ⟨kind, length⟩ := same o List.mem_cons_self
    rw [List.takeWhile_cons, List.takeWhile_cons, ih fun o member => same o (List.mem_cons_of_mem _ member),
      decide_eq_decide.mpr (shortSack_congr kind length)]

/-- What `offset_sack_blocks` does as a whole. -/
structure SackRun.Done (m : Mem) (stop option : Nat) (offset : UInt32) (run : SackRun) : Prop where
  offsets : BlocksOffset m (visitedOptions m stop option) offset run.buffer
  blocks : run.blocks = (visitedOptions m stop option).flatMap (blockStarts m)
  error : run.error = if ∃ o ∈ optionOffsets m stop option, ShortSack m o then some "TCP SACK option too short" else none

theorem offsetSackRun_done (m : Mem) (stop option : Nat) (offset : UInt32) :
    (offsetSackRun offset stop m option).Done m stop option offset := by
  by_cases inside : option < stop
  swap
  · rw [offsetSackRun_outside inside]
    constructor <;> simp [visitedOptions, optionOffsets_nil inside, BlocksOffset.nil]
  by_cases short : ShortSack m option
  · rw [offsetSackRun_short inside short]
    have listed := mem_optionOffsets (m := m) inside
    have none : visitedOptions m stop option = [] := by
      rw [visitedOptions, optionOffsets, if_pos inside, List.takeWhile_cons, if_neg (by simpa using short)]
    refine ⟨?_, ?_, ?_⟩
    · rw [none]
      exact .nil
    · rw [none]
      rfl
    · rw [if_pos ⟨option, listed, short⟩]
  cases found : (tcpOptionsNext m stop option).1 with
  | none =>
    have visited : visitedOptions m stop option = [option] := by
      rw [visitedOptions, optionOffsets_none inside found, List.takeWhile_cons, if_pos (by simpa using short)]
      rfl
    rw [offsetSackRun_last inside short found]
    refine ⟨?_, ?_, ?_⟩
    · rw [visited]
      exact .single
    · rw [visited, List.flatMap_singleton]
    · simp [optionOffsets_none inside found, short]
  | some next =>
    have bounds := tcpOptionsNext_bounds found
    have visited : visitedOptions m stop option = option :: visitedOptions m stop next := by
      rw [visitedOptions, optionOffsets_some inside found, List.takeWhile_cons, if_pos (by simpa using short)]
      rfl
    have same (o : Nat) (member : o ∈ optionOffsets m stop next) :
        (offsetBlocks m (option + 2) offset (sackBlocks m option)).get8 o = m.get8 o ∧
          (offsetBlocks m (option + 2) offset (sackBlocks m option)).get8 (o + 1) = m.get8 (o + 1) := by
      have := optionOffsets_bounds o member
      exact ⟨get8_offsetBlocks_next found (by omega), get8_offsetBlocks_next found (by omega)⟩
    have walk := optionOffsets_congr fun o member => ⟨(same o member).1, fun _ => (same o member).2⟩
    obtain ⟨offsets, blocks, error⟩ :=
      offsetSackRun_done (offsetBlocks m (option + 2) offset (sackBlocks m option)) stop next offset
    rw [visitedOptions_congr same] at offsets blocks
    rw [walk] at error
    rw [offsetSackRun_more inside short found]
    refine ⟨?_, ?_, ?_⟩
    · rw [visited]
      apply BlocksOffset.cons found ?_ offsets
      intro o member
      exact (optionOffsets_bounds o (visitedOptions_mem member).1).1
    · rw [visited, List.flatMap_cons]
      dsimp only
      rw [blocks]
      congr 1
      apply List.flatMap_congr
      intro o member
      obtain ⟨kind, length⟩ := same o (visitedOptions_mem member).1
      rw [blockStarts, blockStarts, sackBlocks_congr kind length]
    · dsimp only
      rw [error, optionOffsets_some inside found]
      congr 1
      rw [eq_iff_iff]
      constructor
      · rintro ⟨o, member, tooShort⟩
        exact ⟨o, List.mem_cons_of_mem _ member, (shortSack_congr (same o member).1 (same o member).2).mp tooShort⟩
      · rintro ⟨o, member, tooShort⟩
        rcases List.mem_cons.mp member with rfl | later
        · exact absurd tooShort short
        · exact ⟨o, later, (shortSack_congr (same o later).1 (same o later).2).mpr tooShort⟩
termination_by stop - option

theorem forOptions_offsetSackRun (m : Mem) (stop option : Nat) (offset : UInt32) :
    forOptions id stop (offsetSackOption offset) m option =
      match (offsetSackRun offset stop m option).error with
      | none => .ok (offsetSackRun offset stop m option).buffer
      | some e => .error e := by
  by_cases inside : option < stop
  swap
  · rw [offsetSackRun_outside inside, forOptions_outside inside]
  by_cases short : ShortSack m option
  · rw [offsetSackRun_short inside short, forOptions_error inside (offsetSackOption_short short)]
  have step := offsetSackOption_ok offset short
  have same : (tcpOptionsNext (offsetBlocks m (option + 2) offset (sackBlocks m option)) stop option).1 =
      (tcpOptionsNext m stop option).1 :=
    tcpOptionsNext_congr (get8_offsetBlocks_ne _ (by omega)) fun _ => get8_offsetBlocks_ne _ (by omega)
  cases found : (tcpOptionsNext m stop option).1 with
  | none => rw [offsetSackRun_last inside short found, forOptions_last inside step (same.trans found)]
  | some next =>
    have bounds := tcpOptionsNext_bounds found
    rw [offsetSackRun_more inside short found, forOptions_more inside step (same.trans found)]
    exact forOptions_offsetSackRun _ stop next offset
termination_by stop - option

/-- The loop over the SACK options: it gives up at one that is too short, and otherwise offsets all
the blocks. -/
theorem sackLoop (m : Mem) (stop option : Nat) (offset : UInt32) :
    (∃ o ∈ optionOffsets m stop option, ShortSack m o) ∧
        forOptions id stop (offsetSackOption offset) m option = .error "TCP SACK option too short" ∨
      (∀ o ∈ optionOffsets m stop option, ¬ShortSack m o) ∧
        ∃ m', forOptions id stop (offsetSackOption offset) m option = .ok m' ∧
          SacksOffset m stop option offset m' := by
  obtain ⟨offsets, -, error⟩ := offsetSackRun_done m stop option offset
  rw [forOptions_offsetSackRun, error]
  by_cases short : ∃ o ∈ optionOffsets m stop option, ShortSack m o
  · exact .inl ⟨short, by rw [if_pos short]⟩
  · have long : ∀ o ∈ optionOffsets m stop option, ¬ShortSack m o := fun o member tooShort => short ⟨o, member, tooShort⟩
    have all : visitedOptions m stop option = optionOffsets m stop option :=
      List.takeWhile_eq_self_iff.mpr fun o member => by simpa using long o member
    rw [all] at offsets
    rw [if_neg short]
    exact .inr ⟨long, _, rfl, offsets.edges, offsets.frame⟩

theorem SacksOffset.walk (done : SacksOffset m stop option offset m') :
    (∀ o ∈ optionOffsets m stop option, m'.get8 o = m.get8 o ∧ m'.get8 (o + 1) = m.get8 (o + 1)) ∧
      optionOffsets m' stop option = optionOffsets m stop option := by
  have same : ∀ o ∈ optionOffsets m stop option, m'.get8 o = m.get8 o ∧ m'.get8 (o + 1) = m.get8 (o + 1) := by
    intro o member
    constructor <;> apply done.frame <;> intro o' member' block
    · exact (block.apart member member').1 rfl
    · exact (block.apart member member').2 rfl
  exact ⟨same, optionOffsets_congr fun o member => ⟨(same o member).1, fun _ => (same o member).2⟩⟩

end SackLoop

theorem forOptions_fold {σ : Type} (m : Mem) (stop : Nat) (f : σ → Nat → σ) (s : σ) (option : Nat) :
    forOptions (fun _ => m) stop (fun s o => .ok (f s o)) s option = .ok ((optionOffsets m stop option).foldl f s) := by
  induction option using optionWalk m stop generalizing s with
  | outside option outside => rw [forOptions_outside outside, optionOffsets_nil outside, List.foldl_nil]
  | last option inside last =>
    rw [forOptions_last inside rfl last, optionOffsets_none inside last, List.foldl_cons, List.foldl_nil]
  | more option next inside found ih =>
    rw [forOptions_more inside rfl found, ih, optionOffsets_some inside found, List.foldl_cons]

def lastTimestamp (m : Mem) (stop option : Nat) : Option Nat :=
  ((optionOffsets m stop option).filter fun o => m.get8 o = tcpoptTimestamp).getLast?

theorem findTimestampOption_eq (m : Mem) (stop option : Nat) :
    findTimestampOption m stop option = .ok (lastTimestamp m stop option) := by
  rw [findTimestampOption, forOptions_fold, lastTimestamp]
  congr 1
  induction optionOffsets m stop option using List.reverseRecOn with
  | nil => rfl
  | append_singleton front o ih =>
    rw [List.foldl_append, ih, List.filter_append, List.getLast?_append]
    by_cases kind : m.get8 o = tcpoptTimestamp <;> simp [kind]

theorem findTcpTimestamp_eq {p : Packet} {tcp : Nat} (found : p.tcp = some tcp) :
    findTcpTimestamp p = .ok (.ok { p with
      tcpTsVal := (lastTimestamp p.buffer (tcp + tcpDoff p.buffer tcp * 4) (tcp + 20)).map (· + 2)
      tcpTsEcr := (lastTimestamp p.buffer (tcp + tcpDoff p.buffer tcp * 4) (tcp + 20)).map (· + 6) }) := by
  have begins : tcpOptionsBegin p = .ok (tcp + 20, tcp + tcpDoff p.buffer tcp * 4) := by
    simp only [tcpOptionsBegin, packetPayload, found, requirePtr, ok_bind, run_pure]
  rw [findTcpTimestamp, begins, ok_bind]
  simp only [findTimestampOption_eq, run_pure]

theorem findTcpTimestamp_returns {p : Packet} {result : Except String Packet} (returned : findTcpTimestamp p = .ok result) :
    ∃ q, result = .ok q := by
  cases found : p.tcp with
  | none =>
    simp only [findTcpTimestamp, tcpOptionsBegin, found, requirePtr, error_bind] at returned
    cases returned
  | some tcp =>
    rw [findTcpTimestamp_eq found] at returned
    cases returned
    exact ⟨_, rfl⟩

theorem lastTimestamp_mem {stop : Nat} (found : lastTimestamp m stop option = some o) :
    o ∈ optionOffsets m stop option := (List.mem_filter.mp (List.mem_of_getLast? found)).1

theorem SacksOffset.lastTimestamp {m' : Mem} {stop : Nat}
    (done : SacksOffset m stop option offset m') : lastTimestamp m' stop option = lastTimestamp m stop option := by
  obtain ⟨same, walk⟩ := done.walk
  unfold TcpFuzz.lastTimestamp
  rw [walk]
  congr 1
  apply List.filter_congr
  intro o member
  rw [(same o member).1]

end TcpFuzz
