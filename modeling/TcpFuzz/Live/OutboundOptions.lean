import TcpFuzz.Live.Timestamps
import TcpFuzz.Live.Verify

/-! The lock-step walk of `verify_outbound_live_tcp_options` over two options areas, and the tolerance for
timestamps, which is computed in 32 bits. -/

namespace TcpFuzz
open Bytes Mem

structure TimestampConfig where
  toleranceUsecs : Int := 4000
  tcpTsTickUsecs : Int := 0
  deriving Repr, DecidableEq

/-- A result in a 32-bit signed integer, which wraps around. -/
def int32 (n : Int) : Int := Int.bmod n (2 ^ 32)

def packetTcpTsVal (p : Packet) : Run UInt32 := do
  let field ← deref p.tcpTsVal
  return packetTs p field

def tsDeviationUsecs (actualTsVal scriptTsVal : UInt32) (tick : Int) : Int :=
  int32 (int32 (asInt (actualTsVal - scriptTsVal).toNat).natAbs * tick)

def verifyOutboundTcpOption (config : TimestampConfig) (actual script : Packet) (a s : Nat) : Check Unit := do
  let kind := actual.buffer.get8 a
  if kind = tcpoptEol ∨ kind = tcpoptNop then pure ()
  else if kind = tcpoptTimestamp then
    let scriptTsVal ← packetTcpTsVal script
    let actualTsVal ← packetTcpTsVal actual
    let tick := config.tcpTsTickUsecs
    if tick ≠ 0 ∧ config.toleranceUsecs < tsDeviationUsecs actualTsVal scriptTsVal tick then
      differs ("bad outbound TCP timestamp value, tolerance " ++ toString config.toleranceUsecs)
  else
    let length := actual.buffer.get8 (a + 1)
    if script.buffer.get8 (s + 1) ≠ length then
      differs ("bad lengths for outbound TCP option " ++ toString (script.buffer.get8 s))
    if 2 < script.buffer.get8 (s + 1) ∧
        actual.buffer.bytes (a + 2) (length - 2) ≠ script.buffer.bytes (s + 2) (length - 2) then
      differs ("bad value outbound TCP option " ++ toString (script.buffer.get8 s))

def InTimestamp (m : Mem) (stop option j : Nat) : Prop :=
  ∃ o ∈ optionOffsets m stop option,
    m.get8 o = tcpoptTimestamp ∧ m.get8 (o + 1) = 10 ∧ o + 2 ≤ j ∧ j < o + 10

/-- Two areas hold the same options up to their ends: their bytes are the same, but for the fields
of timestamps. -/
structure SameOptions (m : Mem) (stop option : Nat) (m' : Mem) (stop' option' : Nat) : Prop where
  length : stop - option = stop' - option'
  bytes : ∀ k < stop - option, m.get8 (option + k) = m'.get8 (option' + k) ∨
    InTimestamp m stop option (option + k) ∧ InTimestamp m' stop' option' (option' + k)

def optionSize (m : Mem) (o : Nat) : Nat := if m.get8 o ≤ 1 then 1 else m.get8 (o + 1)

structure CompleteOption (m : Mem) (stop o : Nat) : Prop where
  inside : o + optionSize m o ≤ stop
  length : 1 < m.get8 o → 2 ≤ m.get8 (o + 1)
  timestamp : m.get8 o = tcpoptTimestamp → m.get8 (o + 1) = 10

instance (m : Mem) (stop o : Nat) : Decidable (CompleteOption m stop o) :=
  decidable_of_iff (o + optionSize m o ≤ stop ∧ (1 < m.get8 o → 2 ≤ m.get8 (o + 1)) ∧
      (m.get8 o = tcpoptTimestamp → m.get8 (o + 1) = 10))
    ⟨fun ⟨inside, length, timestamp⟩ => ⟨inside, length, timestamp⟩, fun ⟨inside, length, timestamp⟩ => ⟨inside, length, timestamp⟩⟩

section Complete

variable {m : Mem} {stop o : Nat}

theorem CompleteOption.size_pos (complete : CompleteOption m stop o) : 0 < optionSize m o := by
  unfold optionSize
  split
  · decide
  · have := complete.length (by omega)
    omega

theorem CompleteOption.next (complete : CompleteOption m stop o) :
    (tcpOptionsNext m stop o).1 = getCurrentOption stop (o + optionSize m o) := by
  have inside := complete.inside
  rw [tcpOptionsNext_eq]
  unfold optionSize at inside ⊢
  split
  · rfl
  · rename_i long
    have := complete.length (by omega)
    rw [if_neg long] at inside
    exact if_neg (by omega)

theorem CompleteOption.offsets (complete : CompleteOption m stop o) (inside : o < stop) :
    optionOffsets m stop o = o :: optionOffsets m stop (o + optionSize m o) := by
  have next := complete.next
  unfold getCurrentOption at next
  split at next
  · rename_i outside
    rw [optionOffsets_none inside next, optionOffsets_nil (by omega)]
  · exact optionOffsets_some inside next

end Complete

section Passed

variable {config : TimestampConfig} {actual script : Packet} {aStop sStop a s : Nat}

theorem SameOptions.cons {m m' : Mem} {stop stop' o o' : Nat} (complete : CompleteOption m stop o)
    (complete' : CompleteOption m' stop' o') (size : optionSize m o = optionSize m' o')
    (first : ∀ k < optionSize m o, m.get8 (o + k) = m'.get8 (o' + k) ∨ m.get8 o = tcpoptTimestamp ∧ 2 ≤ k)
    (behind : SameOptions m stop (o + optionSize m o) m' stop' (o' + optionSize m' o')) :
    SameOptions m stop o m' stop' o' := by
  have inside := complete.inside
  have inside' := complete'.inside
  have pos := complete.size_pos
  have offsets := complete.offsets (by omega)
  have offsets' := complete'.offsets (by omega)
  have rest := behind.length
  refine ⟨by omega, fun k bound => ?_⟩
  by_cases here : k < optionSize m o
  · rcases first k here with same | ⟨stamp, field⟩
    · exact .inl same
    · have kind : m'.get8 o' = tcpoptTimestamp := by
        rcases first 0 pos with same | ⟨-, impossible⟩
        · exact same.symm.trans stamp
        · omega
      have ten := complete.timestamp stamp
      have ten' := complete'.timestamp kind
      have size : optionSize m o = 10 := (if_neg (by rw [stamp]; decide)).trans ten
      refine .inr ⟨⟨o, ?_, stamp, ten, by omega, by omega⟩, ⟨o', ?_, kind, ten', by omega, by omega⟩⟩
      · exact offsets ▸ List.mem_cons_self
      · exact offsets' ▸ List.mem_cons_self
  · obtain ⟨j, rfl⟩ := Nat.exists_eq_add_of_le (Nat.le_of_not_lt here)
    have found := behind.bytes j (by omega)
    rw [← size, Nat.add_assoc, Nat.add_assoc] at found
    rcases found with same | ⟨⟨p, member, facts⟩, ⟨p', member', facts'⟩⟩
    · exact .inl same
    · refine .inr ⟨⟨p, ?_, facts⟩, ⟨p', ?_, facts'⟩⟩
      · exact offsets ▸ List.mem_cons_of_mem _ member
      · exact offsets' ▸ List.mem_cons_of_mem _ (size ▸ member')

theorem SameOptions.behind {m m' : Mem} {stop stop' o o' : Nat} (complete : CompleteOption m stop o)
    (complete' : CompleteOption m' stop' o') (size : optionSize m o = optionSize m' o')
    (same : SameOptions m stop o m' stop' o') :
    SameOptions m stop (o + optionSize m o) m' stop' (o' + optionSize m' o') := by
  -- a field of the first option is not behind it
  have behind {m : Mem} {stop o k : Nat} (complete : CompleteOption m stop o) (field : InTimestamp m stop o (o + (optionSize m o + k))) :
      InTimestamp m stop (o + optionSize m o) (o + optionSize m o + k) := by
    obtain ⟨p, member, stamp, ten, low, high⟩ := field
    have inside := complete.inside
    have pos := complete.size_pos
    rw [complete.offsets (by omega)] at member
    refine ⟨p, ?_, stamp, ten, by omega, by omega⟩
    rcases List.mem_cons.mp member with rfl | later
    · have size : optionSize m p = 10 := (if_neg (by rw [stamp]; decide)).trans ten
      omega
    · exact later
  have length := same.length
  have inside := complete.inside
  have inside' := complete'.inside
  refine ⟨by omega, fun k bound => ?_⟩
  rcases same.bytes (optionSize m o + k) (by omega) with equal | ⟨field, field'⟩
  · rw [← Nat.add_assoc, ← Nat.add_assoc] at equal
    exact .inl (size ▸ equal)
  · exact .inr ⟨behind complete field, behind complete' (size ▸ field')⟩

end Passed

def paddedStamp (length : UInt8) (fields : List UInt8) : Packet :=
  let bytes := twoByteSegment ([1, 1, 8, length] ++ fields) [1, 2]
  { packetNew (.ofList bytes) bytes.length with ipv4 := some 0, tcp := some 20, tcpTsVal := some 44, tcpTsEcr := some 48 }

def tsDistanceUsecs (actualTsVal scriptTsVal : UInt32) (tick : Int) : Int :=
  |asInt (actualTsVal - scriptTsVal).toNat| * tick

theorem tsDeviationUsecs_eq (actualTsVal scriptTsVal : UInt32) (tick : Int) :
    tsDeviationUsecs actualTsVal scriptTsVal tick = int32 (tsDistanceUsecs actualTsVal scriptTsVal tick) := by
  rw [tsDeviationUsecs, tsDistanceUsecs, int32, int32, Int.bmod_mul_bmod, Int.natCast_natAbs]
  rfl

theorem lt_int32_iff {tolerance : Int} (nonneg : 0 ≤ tolerance) (n : Int) :
    tolerance < int32 n ↔ tolerance < n % 2 ^ 32 ∧ n % 2 ^ 32 < 2 ^ 31 := by
  unfold int32 Int.bmod
  simp only
  split <;> omega

theorem verifyOutboundTcpOption_stamp {config : TimestampConfig} {actual script : Packet} {a s f g : Nat}
    (stamp : actual.buffer.get8 a = tcpoptTimestamp) (val : actual.tcpTsVal = some f) (val' : script.tcpTsVal = some g) :
    verifyOutboundTcpOption config actual script a s =
      if config.tcpTsTickUsecs ≠ 0 ∧ config.toleranceUsecs <
          tsDeviationUsecs (packetTs actual f) (packetTs script g) config.tcpTsTickUsecs then
        differs ("bad outbound TCP timestamp value, tolerance " ++ toString config.toleranceUsecs)
      else pure () := by
  simp only [verifyOutboundTcpOption, packetTcpTsVal, val, val', stamp]
  rfl

/-- The timestamp branch reports an error just when the timestamps are farther apart than the tolerance,
as long as the product does not wrap around, or wraps around to a value that is itself above the tolerance. -/
theorem timestampTolerance_exact_iff {config : TimestampConfig} {actual script : Packet} {a s f g : Nat}
    (stamp : actual.buffer.get8 a = tcpoptTimestamp) (val : actual.tcpTsVal = some f) (val' : script.tcpTsVal = some g)
    (tick : 1 ≤ config.tcpTsTickUsecs) (nonneg : 0 ≤ config.toleranceUsecs) :
    ((∃ message, (verifyOutboundTcpOption config actual script a s).run = .ok (.error message)) ↔
        config.toleranceUsecs < tsDistanceUsecs (packetTs actual f) (packetTs script g) config.tcpTsTickUsecs) ↔
      tsDistanceUsecs (packetTs actual f) (packetTs script g) config.tcpTsTickUsecs < 2 ^ 31 ∨
      tsDistanceUsecs (packetTs actual f) (packetTs script g) config.tcpTsTickUsecs ≤ config.toleranceUsecs ∨
      config.toleranceUsecs < tsDistanceUsecs (packetTs actual f) (packetTs script g) config.tcpTsTickUsecs % 2 ^ 32 ∧
        tsDistanceUsecs (packetTs actual f) (packetTs script g) config.tcpTsTickUsecs % 2 ^ 32 < 2 ^ 31 := by
  have reported : (∃ message, (verifyOutboundTcpOption config actual script a s).run = .ok (.error message)) ↔
      config.toleranceUsecs < tsDeviationUsecs (packetTs actual f) (packetTs script g) config.tcpTsTickUsecs := by
    rw [verifyOutboundTcpOption_stamp stamp val val']
    split
    · rename_i apart
      exact iff_of_true ⟨_, rfl⟩ apart.2
    · rename_i close
      refine iff_of_false ?_ (not_and.mp close (by omega))
      rintro ⟨message, failed⟩
      cases failed
  rw [reported, tsDeviationUsecs_eq, lt_int32_iff nonneg]
  have positive : 0 ≤ tsDistanceUsecs (packetTs actual f) (packetTs script g) config.tcpTsTickUsecs :=
    Int.mul_nonneg (abs_nonneg _) (by omega)
  generalize tsDistanceUsecs (packetTs actual f) (packetTs script g) config.tcpTsTickUsecs = distance at positive ⊢
  omega

theorem timestampTolerance_exact_iff_near :
    (∃ message, (verifyOutboundTcpOption { tcpTsTickUsecs := 1000 } (paddedStamp 10 [0, 0, 0, 9, 0, 0, 0, 2])
        (paddedStamp 10 [0, 0, 0, 1, 0, 0, 0, 2]) 42 42).run = .ok (.error message)) ∧
      tsDistanceUsecs (packetTs (paddedStamp 10 [0, 0, 0, 9, 0, 0, 0, 2]) 44)
        (packetTs (paddedStamp 10 [0, 0, 0, 1, 0, 0, 0, 2]) 44) 1000 = 8000 := by
  have distance : tsDistanceUsecs (packetTs (paddedStamp 10 [0, 0, 0, 9, 0, 0, 0, 2]) 44)
      (packetTs (paddedStamp 10 [0, 0, 0, 1, 0, 0, 0, 2]) 44) 1000 = 8000 := by decide +kernel
  refine ⟨?_, distance⟩
  apply ((timestampTolerance_exact_iff (f := 44) (g := 44) (by decide +kernel) rfl rfl (by decide) (by decide)).mpr (.inl ?_)).mpr
  · simp only [distance]
    decide
  · simp only [distance]
    decide

/-- Timestamps that are 2147484 milliseconds apart: the product wraps around to a negative number. -/
theorem timestampTolerance_wraps :
    verifyOutboundTcpOption { tcpTsTickUsecs := 1000 } (paddedStamp 10 [0, 0x20, 0xc4, 0x9c, 0, 0, 0, 2])
        (paddedStamp 10 [0, 0, 0, 0, 0, 0, 0, 2]) 42 42 = pure () ∧
      ({} : TimestampConfig).toleranceUsecs < tsDistanceUsecs (packetTs (paddedStamp 10 [0, 0x20, 0xc4, 0x9c, 0, 0, 0, 2]) 44)
        (packetTs (paddedStamp 10 [0, 0, 0, 0, 0, 0, 0, 2]) 44) 1000 :=
  ⟨Check.passed_of_eval (by decide +kernel), by decide +kernel⟩

end TcpFuzz
