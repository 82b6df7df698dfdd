import TcpFuzz.Packet.Parser
import TcpFuzz.Packet.Encapsulate

/-! The action of `gre_header_expression` stores the numbers of a script at fixed places of a `struct gre`. In the
packet only the words that the flags announce are there, one after the other. -/

namespace TcpFuzz
open Bytes Mem

/-- The numbers of a `gre_header_expression`, any 64-bit integers. -/
structure GreNumbers where
  flags : Int
  sum : Int
  off : Int
  key : Int
  seq : Int
deriving DecidableEq, Repr

namespace GreNumbers

def low16 (n : Int) : UInt16 := .ofNat (n % 65536).toNat
def low32 (n : Int) : UInt32 := .ofNat (n % 4294967296).toNat

def header (n : GreNumbers) : Gre :=
  ⟨(be16Bytes (low16 n.flags) ++ [0, 0] ++ be16Bytes (low16 n.sum) ++ be16Bytes (low16 n.off) ++
    be32Bytes (low32 n.key) ++ be32Bytes (low32 n.seq)).toArray, rfl⟩

def Has (n : GreNumbers) (bit : Nat) : Prop := n.flags / 2 ^ bit % 2 = 1

instance (n : GreNumbers) (bit : Nat) : Decidable (n.Has bit) := inferInstanceAs (Decidable (_ = _))

/-- `GRE_FLAG_C`, `GRE_FLAG_R`, `GRE_FLAG_K` and `GRE_FLAG_S`. -/
abbrev HasChecksum (n : GreNumbers) : Prop := n.Has 15
abbrev HasRouting (n : GreNumbers) : Prop := n.Has 14
abbrev HasKey (n : GreNumbers) : Prop := n.Has 13
abbrev HasSeq (n : GreNumbers) : Prop := n.Has 12

end GreNumbers

def greKeyWord (m : Mem) (gre : Nat) : Nat := if greHasChecksum m gre ∨ greHasRouting m gre then 1 else 0
def greSeqWord (m : Mem) (gre : Nat) : Nat := greKeyWord m gre + if greHasKey m gre then 1 else 0

structure GreFields where
  flags : Nat
  proto : Nat
  sumOff : Option (Nat × Nat)
  key : Option Nat
  seq : Option Nat
deriving DecidableEq, Repr

def greFields (m : Mem) (gre : Nat) : GreFields where
  flags := m.be16 gre
  proto := greProto m gre
  sumOff := if greHasChecksum m gre ∨ greHasRouting m gre then some (m.be16 (gre + 4), m.be16 (gre + 6)) else none
  key := if greHasKey m gre then some (m.be32 (gre + 4 + 4 * greKeyWord m gre)) else none
  seq := if greHasSeq m gre then some (m.be32 (gre + 4 + 4 * greSeqWord m gre)) else none

/-- The fields are the numbers of the script, for every flag that is set. -/
structure GreFields.Match (f : GreFields) (n : GreNumbers) : Prop where
  sumOff : n.HasChecksum → ∃ sum off, f.sumOff = some (sum, off) ∧ (sum : Int) = n.sum ∧ (off : Int) = n.off
  key : n.HasKey → ∃ key, f.key = some key ∧ (key : Int) = n.key
  seq : n.HasSeq → ∃ seq, f.seq = some seq ∧ (seq : Int) = n.seq

section Stored

variable (n : GreNumbers)

theorem low16_toNat (i : Int) : (GreNumbers.low16 i).toNat = (i % 65536).toNat :=
  UInt16.toNat_ofNat_of_lt' (show (i % 65536).toNat < 65536 by omega)

theorem low32_toNat (i : Int) : (GreNumbers.low32 i).toNat = (i % 4294967296).toNat :=
  UInt32.toNat_ofNat_of_lt' (show (i % 4294967296).toNat < 4294967296 by omega)

theorem be16_bytes (m : Mem) (i : Nat) (v : UInt16) (high : m i = UInt8.ofNat (v.toNat / 256))
    (low : m (i + 1) = UInt8.ofNat v.toNat) : m.be16 i = v.toNat := by
  have small := v.toNat_lt
  rw [be16, get8, get8, high, low, UInt8.toNat_ofNat', UInt8.toNat_ofNat']
  omega

theorem header_flags : n.header.mem.be16 0 = (n.flags % 65536).toNat :=
  (be16_bytes n.header.mem 0 (GreNumbers.low16 n.flags) rfl rfl).trans (low16_toNat _)

theorem header_sum : n.header.mem.be16 4 = (n.sum % 65536).toNat :=
  (be16_bytes n.header.mem 4 (GreNumbers.low16 n.sum) rfl rfl).trans (low16_toNat _)

theorem header_off : n.header.mem.be16 6 = (n.off % 65536).toNat :=
  (be16_bytes n.header.mem 6 (GreNumbers.low16 n.off) rfl rfl).trans (low16_toNat _)

theorem header_key : n.header.mem.be32 8 = (n.key % 4294967296).toNat := by
  have read := be32_be32Bytes (be16Bytes (GreNumbers.low16 n.flags) ++ [0, 0] ++ be16Bytes (GreNumbers.low16 n.sum) ++
    be16Bytes (GreNumbers.low16 n.off)) (GreNumbers.low32 n.key) (be32Bytes (GreNumbers.low32 n.seq))
  rw [low32_toNat] at read
  rw [← read]
  rfl

theorem header_seq : n.header.mem.be32 12 = (n.seq % 4294967296).toNat := by
  have read := be32_be32Bytes (be16Bytes (GreNumbers.low16 n.flags) ++ [0, 0] ++ be16Bytes (GreNumbers.low16 n.sum) ++
    be16Bytes (GreNumbers.low16 n.off) ++ be32Bytes (GreNumbers.low32 n.key)) (GreNumbers.low32 n.seq) []
  rw [low32_toNat] at read
  rw [← read]
  rfl

theorem header_sumOff : n.header.mem.be32 4 = (n.sum % 65536).toNat * 65536 + (n.off % 65536).toNat := by
  rw [be32, header_sum, header_off]

theorem header_bytes :
    n.header.mem.get8 0 = (n.flags % 65536).toNat / 256 ∧ n.header.mem.get8 1 = (n.flags % 65536).toNat % 256 := by
  have flags := header_flags n
  have low := get8_lt n.header.mem 1
  rw [be16, Nat.zero_add] at flags
  omega

theorem header_hasChecksum : greHasChecksum n.header.mem 0 ↔ n.HasChecksum := by
  rw [greHasChecksum, (header_bytes n).1, GreNumbers.HasChecksum, GreNumbers.Has]
  omega

theorem header_hasRouting : greHasRouting n.header.mem 0 ↔ n.HasRouting := by
  rw [greHasRouting, (header_bytes n).1, GreNumbers.HasRouting, GreNumbers.Has]
  omega

theorem header_hasKey : greHasKey n.header.mem 0 ↔ n.HasKey := by
  rw [greHasKey, (header_bytes n).1, GreNumbers.HasKey, GreNumbers.Has]
  omega

theorem header_hasSeq : greHasSeq n.header.mem 0 ↔ n.HasSeq := by
  rw [greHasSeq, (header_bytes n).1, GreNumbers.HasSeq, GreNumbers.Has]
  omega

theorem header_version : greVersion n.header.mem 0 = 0 ↔ n.flags % 8 = 0 := by
  rw [greVersion, (header_bytes n).2]
  omega

end Stored

theorem greLen_fails {m : Mem} {gre : Nat} (bad : ¬(greVersion m gre = 0 ∧ ¬greHasRouting m gre)) :
    greLen m gre = .error .assertion := by
  by_cases version : greVersion m gre = 0
  · have routing : greHasRouting m gre := by tauto
    simp [greLen, assertThat, version, routing]
  · simp [greLen, assertThat, version]

theorem greHeaderAppend_eq (p : Packet) {gre : Gre} (version : greVersion gre.mem 0 = 0) (direct : ¬greHasRouting gre.mem 0) :
    greHeaderAppend p gre =
      if packetHeaderCount p = packetMaxHeaders ∨ p.bufferBytes < p.ipBytes + greFlagsLen gre.mem 0 then
        .ok (.error "too many headers")
      else .ok (.ok { appended p .gre (greFlagsLen gre.mem 0) 0 with
        buffer := p.buffer.copy (p.l2HeaderBytes + p.ipBytes) gre.mem 0 (greFlagsLen gre.mem 0) }) := by
  rw [greHeaderAppend, greLen_ok version direct, ok_bind, appendStored_eq]
  rfl

theorem greFlagsLen_words (m : Mem) (gre : Nat) :
    greFlagsLen m gre = 4 + 4 * greSeqWord m gre + if greHasSeq m gre then 4 else 0 := by
  rw [greFlagsLen, greSeqWord, greKeyWord]
  split <;> split <;> split <;> rfl

theorem greFields_copy (m : Mem) (gre : Nat) (src : Mem) :
    greFields (m.copy gre src 0 (greFlagsLen src 0)) gre = greFields src 0 := by
  set copied := m.copy gre src 0 (greFlagsLen src 0)
  have minimum := greFlagsLen_ge src 0
  have at8 {k : Nat} (inside : k < greFlagsLen src 0) : copied.get8 (gre + k) = src.get8 k := by
    have read := get8_copy_inside m src 0 inside (i := gre)
    rwa [Nat.zero_add] at read
  have at16 {k : Nat} (inside : k + 1 < greFlagsLen src 0) : copied.be16 (gre + k) = src.be16 k := by
    rw [be16, at8 (by omega), Nat.add_assoc, at8 inside, be16]
  have at32 {k : Nat} (inside : k + 3 < greFlagsLen src 0) : copied.be32 (gre + k) = src.be32 k := by
    rw [be32, at16 (by omega), Nat.add_assoc, at16 (by omega), be32]
  have flags : copied.get8 gre = src.get8 0 := at8 (k := 0) (by omega)
  have checksum : greHasChecksum copied gre ↔ greHasChecksum src 0 := by rw [greHasChecksum, flags, greHasChecksum]
  have routing : greHasRouting copied gre ↔ greHasRouting src 0 := greHasRouting_congr flags
  have key : greHasKey copied gre ↔ greHasKey src 0 := by rw [greHasKey, flags, greHasKey]
  have seq : greHasSeq copied gre ↔ greHasSeq src 0 := by rw [greHasSeq, flags, greHasSeq]
  have keyWord : greKeyWord copied gre = greKeyWord src 0 := by simp only [greKeyWord, checksum, routing]
  have seqWord : greSeqWord copied gre = greSeqWord src 0 := by simp only [greSeqWord, keyWord, key]
  have words := greFlagsLen_words src 0
  have first : copied.be16 gre = src.be16 0 := at16 (k := 0) (by omega)
  have second : greProto copied gre = greProto src 0 := at16 (k := 2) (by omega)
  simp only [greFields, first, second, checksum, routing, key, seq, keyWord, seqWord, GreFields.mk.injEq, true_and,
    Nat.zero_add, Nat.add_assoc]
  refine ⟨?_, ?_, ?_⟩
  · split
    · rename_i announced
      rw [greSeqWord, greKeyWord, if_pos announced] at words
      rw [at16 (by omega), at16 (by omega)]
    · rfl
  · split
    · rename_i announced
      rw [greSeqWord, if_pos announced] at words
      rw [at32 (by omega)]
    · rfl
  · split
    · rename_i announced
      rw [if_pos announced] at words
      rw [at32 (by omega)]
    · rfl

/-- What must hold for the numbers to be found where they are looked for: the key and the sequence
number are stored in the second and in the third word, and read from the first that is left. -/
structure GreNumbers.Placed (n : GreNumbers) : Prop where
  version : n.flags % 8 = 0
  direct : ¬n.HasRouting
  sumOff : n.HasChecksum → (0 ≤ n.sum ∧ n.sum < 65536) ∧ 0 ≤ n.off ∧ n.off < 65536
  key : n.HasKey → n.key =
    if n.HasChecksum then n.key % 4294967296 else n.sum % 65536 * 65536 + n.off % 65536
  seq : n.HasSeq → n.seq =
    if n.HasChecksum ∧ n.HasKey then n.seq % 4294967296
    else if n.HasChecksum ∨ n.HasKey then n.key % 4294967296
    else n.sum % 65536 * 65536 + n.off % 65536

section Match

variable (n : GreNumbers)

theorem header_keyWord (direct : ¬n.HasRouting) :
    (n.header.mem.be32 (0 + 4 + 4 * greKeyWord n.header.mem 0) : Int) =
      if n.HasChecksum then n.key % 4294967296 else n.sum % 65536 * 65536 + n.off % 65536 := by
  rw [greKeyWord]
  simp only [header_hasChecksum, header_hasRouting, direct, or_false]
  by_cases checksum : n.HasChecksum
  · rw [if_pos checksum, if_pos checksum, header_key]
    omega
  · rw [if_neg checksum, if_neg checksum, header_sumOff]
    omega

theorem header_seqWord (direct : ¬n.HasRouting) :
    (n.header.mem.be32 (0 + 4 + 4 * greSeqWord n.header.mem 0) : Int) =
      if n.HasChecksum ∧ n.HasKey then n.seq % 4294967296
      else if n.HasChecksum ∨ n.HasKey then n.key % 4294967296
      else n.sum % 65536 * 65536 + n.off % 65536 := by
  rw [greSeqWord, greKeyWord]
  simp only [header_hasChecksum, header_hasRouting, header_hasKey, direct, or_false]
  by_cases checksum : n.HasChecksum <;> by_cases key : n.HasKey <;> simp only [checksum, key, if_true, if_false,
    and_self, and_true, and_false, or_self, or_true, or_false]
  · rw [header_seq]
    omega
  · rw [header_key]
    omega
  · rw [header_key]
    omega
  · rw [header_sumOff]
    omega

theorem header_match (version : n.flags % 8 = 0) (direct : ¬n.HasRouting) :
    (greFields n.header.mem 0).Match n ↔ n.Placed := by
  constructor
  · rintro ⟨sumOff, key, seq⟩
    refine ⟨version, direct, fun checksum => ?_, fun hasKey => ?_, fun hasSeq => ?_⟩
    · obtain ⟨sum, off, found, isSum, isOff⟩ := sumOff checksum
      rw [greFields, if_pos (.inl ((header_hasChecksum n).mpr checksum)), header_sum, header_off] at found
      cases found
      omega
    · obtain ⟨word, found, isKey⟩ := key hasKey
      rw [greFields, if_pos ((header_hasKey n).mpr hasKey)] at found
      cases found
      exact isKey.symm.trans (header_keyWord n direct)
    · obtain ⟨word, found, isSeq⟩ := seq hasSeq
      rw [greFields, if_pos ((header_hasSeq n).mpr hasSeq)] at found
      cases found
      exact isSeq.symm.trans (header_seqWord n direct)
  · intro placed
    refine ⟨fun checksum => ?_, fun hasKey => ?_, fun hasSeq => ?_⟩
    · obtain ⟨isSum, isOff⟩ := placed.sumOff checksum
      refine ⟨_, _, if_pos (.inl ((header_hasChecksum n).mpr checksum)), ?_, ?_⟩
      · rw [header_sum]
        omega
      · rw [header_off]
        omega
    · exact ⟨_, if_pos ((header_hasKey n).mpr hasKey), (header_keyWord n direct).trans (placed.key hasKey).symm⟩
    · exact ⟨_, if_pos ((header_hasSeq n).mpr hasSeq), (header_seqWord n direct).trans (placed.seq hasSeq).symm⟩

end Match

/-- Appending the header to a packet fails no assertion, and if it is appended it is read back. -/
def GreNumbers.Kept (n : GreNumbers) (p : Packet) : Prop :=
  ∃ result, greHeaderAppend p n.header = .ok result ∧
    ∀ q, result = .ok q → (greFields q.buffer (p.l2HeaderBytes + p.ipBytes)).Match n

/-- The header of a script is built and read back, in every packet, exactly if its numbers are placed. -/
theorem gre_numbers_kept (n : GreNumbers) : (∀ p, n.Kept p) ↔ n.Placed := by
  constructor
  · intro kept
    obtain ⟨result, ran, reads⟩ := kept (packetNew (fun _ => 0) 256)
    have fine : greVersion n.header.mem 0 = 0 ∧ ¬greHasRouting n.header.mem 0 := by
      by_contra bad
      rw [greHeaderAppend, greLen_fails bad] at ran
      cases ran
    have length := greFlagsLen_le n.header.mem 0
    have room : ¬(packetHeaderCount (packetNew (fun _ => 0) 256) = packetMaxHeaders ∨
        (packetNew (fun _ => 0) 256).bufferBytes < (packetNew (fun _ => 0) 256).ipBytes + greFlagsLen n.header.mem 0) := by
      rw [show packetHeaderCount (packetNew (fun _ => 0) 256) = 0 by decide]
      simp only [packetMaxHeaders, packetNew]
      omega
    rw [greHeaderAppend_eq _ fine.1 fine.2, if_neg room] at ran
    have found := reads _ (Except.ok.inj ran).symm
    rw [greFields_copy] at found
    rw [header_version, header_hasRouting] at fine
    exact (header_match n fine.1 fine.2).mp found
  · intro placed p
    have version := (header_version n).mpr placed.version
    have direct := (header_hasRouting n).not.mpr placed.direct
    rw [GreNumbers.Kept, greHeaderAppend_eq p version direct]
    split
    · refine ⟨_, rfl, fun q refused => ?_⟩
      cases refused
    · refine ⟨_, rfl, fun q appended => ?_⟩
      cases appended
      rw [greFields_copy]
      exact (header_match n placed.version placed.direct).mpr placed

/-- A key of 7 without a checksum is read as 0, and a version stops the process. -/
theorem gre_numbers_lost :
    (∃ q, greHeaderAppend (packetNew (fun _ => 0) 256) (⟨0x2000, 0, 0, 7, 0⟩ : GreNumbers).header = .ok (.ok q) ∧
      (greFields q.buffer 0).key = some 0) ∧
    greHeaderAppend (packetNew (fun _ => 0) 256) (⟨1, 0, 0, 0, 0⟩ : GreNumbers).header = .error .assertion :=
  ⟨⟨_, rfl, by decide +kernel⟩, rfl⟩

end TcpFuzz
