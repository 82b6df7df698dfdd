import TcpFuzz.Lib.Peek
import TcpFuzz.Script.Lexer
import TcpFuzz.Script.PacketToString
import TcpFuzz.Script.TcpOption

/-! The functions of the parser and the scanner that walk over a string: `parse_hex_string` with its two callers, and
`code`. -/

namespace TcpFuzz

/-- The string with its terminator stands at `s`; what stands around it is not known. -/
def HoldsString (m : Int → Char) (s : Int) (text : List Char) : Prop :=
  ∀ i ≤ text.length, m (s + i) = text.getD i '\x00'

theorem HoldsString.tail {m : Int → Char} {s : Int} {c : Char} {text : List Char} (holds : HoldsString m s (c :: text)) :
    HoldsString m (s + 1) text := by
  intro i inside
  have next := holds (i + 1) (Nat.succ_le_succ inside)
  rw [List.getD_cons_succ] at next
  rw [← next]
  congr 1
  omega

theorem HoldsString.head {m : Int → Char} {s : Int} {c : Char} {text : List Char} (holds : HoldsString m s (c :: text)) :
    m s = c := by
  simpa using holds 0 (Nat.zero_le _)

theorem HoldsString.terminator {m : Int → Char} {s : Int} (holds : HoldsString m s []) : m s = '\x00' := by
  simpa using holds 0 (Nat.le_refl 0)

def isxdigit (c : Char) : Bool := (hexValue c).isSome

/-- `strtoul` in base 16 on a text of digits: the value and how many characters it takes. -/
def strtoul16 (text : List Char) : Nat × Nat :=
  let digits := text.takeWhile isxdigit
  (digits.foldl (fun value c => value * 16 + (hexValue c).getD 0) 0, digits.length)

abbrev StringWalk := Peek Int Char Fault

def parseHexByteAt (hex : Int) : StringWalk (Option UInt8) := do
  if !isxdigit (← .look hex) then return none
  if !isxdigit (← .look (hex + 1)) then return none
  let (byteValue, bufEnd) := strtoul16 [← .look hex, ← .look (hex + 1)]
  .lift (assertThat (byteValue ≤ 0xff))
  .lift (assertThat (bufEnd = 2))
  return some (UInt8.ofNat byteValue)

structure HexRun where
  written : List UInt8
  outLen : Option Nat
deriving DecidableEq

/-- The loop with `room` bytes left between `out` and `buf_end`. -/
def parseHexLoop (bufLen room : Nat) (hex : Int) (written : List UInt8) : StringWalk HexRun := do
  if (← .look hex) = '\x00' then
    .lift (assertThat (written.length ≤ bufLen))
    return ⟨written, some written.length⟩
  match room with
  | 0 => return ⟨written, none⟩
  | room + 1 =>
    match ← parseHexByteAt hex with
    | none => return ⟨written, none⟩
    | some byte => parseHexLoop bufLen room (hex + 2) (written ++ [byte])

def parseHexStringAt (hex : Int) (bufLen : Nat) : StringWalk HexRun := parseHexLoop bufLen bufLen hex []

variable {m : Int → Char} {s hex : Int} {text : List Char} {h l : Char} {exp : Bool}

theorem eq_of_range {a b c : Char} (low : a ≤ c) (high : c ≤ b) : ∃ k ≤ b.toNat - a.toNat, c = Char.ofNat (a.toNat + k) := by
  have low : a.toNat ≤ c.toNat := low
  have high : c.toNat ≤ b.toNat := high
  refine ⟨c.toNat - a.toNat, by omega, ?_⟩
  rw [show a.toNat + (c.toNat - a.toNat) = c.toNat by omega, Char.ofNat_toNat]

theorem hexValue_lower : ∀ c ∈ hexDigits, ∀ v ∈ hexValue c, v < 16 ∧ Nat.digitChar v = c.toLower := by decide

theorem hexValue_spec {c : Char} {v : Nat} (h : hexValue c = some v) : v < 16 ∧ Nat.digitChar v = c.toLower := by
  refine hexValue_lower c ?_ v h
  have digits : ∀ k ≤ 9, Char.ofNat ('0'.toNat + k) ∈ hexDigits := by decide
  have lower : ∀ k ≤ 5, Char.ofNat ('a'.toNat + k) ∈ hexDigits := by decide
  have upper : ∀ k ≤ 5, Char.ofNat ('A'.toNat + k) ∈ hexDigits := by decide
  unfold hexValue at h
  split at h
  · rename_i digit
    have range : 48 ≤ c.val ∧ c.val ≤ 57 := by simpa [Char.isDigit] using digit
    obtain ⟨k, inside, rfl⟩ := eq_of_range (a := '0') (b := '9') range.1 range.2
    exact digits k inside
  split at h
  · rename_i range
    obtain ⟨k, inside, rfl⟩ := eq_of_range range.1 range.2
    exact lower k inside
  split at h
  · rename_i range
    obtain ⟨k, inside, rfl⟩ := eq_of_range range.1 range.2
    exact upper k inside
  · cases h

theorem strtoul16_digits {high low : Nat} (hh : hexValue h = some high) (hl : hexValue l = some low) :
    strtoul16 [h, l] = (high * 16 + low, 2) := by
  simp [strtoul16, isxdigit, hh, hl]

theorem parseHexByteAt_reads (first : m hex = h) (second : m (hex + 1) = l) :
    Peek.Reads m (fun i => i = hex ∨ isxdigit h = true ∧ i = hex + 1) (parseHexByteAt hex) (parseHexByte h l) := by
  refine .look (.inl rfl) first ?_
  cases hh : hexValue h with
  | none =>
    rw [if_pos (by simp [isxdigit, hh]), parseHexByte, hh]
    exact .pure none
  | some high =>
    have digit : isxdigit h = true := by simp [isxdigit, hh]
    rw [if_neg (by simp [digit])]
    refine .look (.inr ⟨digit, rfl⟩) second ?_
    cases hl : hexValue l with
    | none =>
      rw [if_pos (by simp [isxdigit, hl]), parseHexByte, hh, hl]
      exact .pure none
    | some low =>
      have := (hexValue_spec hh).1
      have := (hexValue_spec hl).1
      rw [if_neg (by simp [isxdigit, hl])]
      refine .look (.inl rfl) first (.look (.inr ⟨digit, rfl⟩) second ?_)
      rw [strtoul16_digits hh hl]
      refine .bind (.lift (assertThat_ok (by omega))) (.bind (.lift (assertThat_ok rfl)) ?_)
      rw [parseHexByte, hh, hl]
      exact .pure _

theorem parseHexLoop_reads {bufLen room : Nat} {written : List UInt8} (fits : written.length + room ≤ bufLen)
    (holds : HoldsString m hex text) (nul : '\x00' ∉ text) :
    ∃ more, Peek.Reads m (fun i => hex ≤ i ∧ i ≤ hex + text.length) (parseHexLoop bufLen room hex written)
        ⟨written ++ more, (parseHexString room text).map fun bytes => written.length + bytes.length⟩ ∧
      more.length ≤ room ∧ ∀ bytes, parseHexString room text = some bytes → more = bytes := by
  -- A character of the string is not its terminator.
  have goesOn {c : Char} {rest : List Char} (nul : '\x00' ∉ c :: rest) : c ≠ '\x00' := fun same => nul (same ▸ List.mem_cons_self)
  fun_induction parseHexString room text generalizing hex written with
  | case1 =>
    refine ⟨[], ?_, Nat.zero_le _, fun bytes parsed => Option.some.inj parsed⟩
    unfold parseHexLoop
    refine .look (by simp) holds.terminator (.bind (.lift (assertThat_ok (by omega))) ?_)
    simpa using Peek.Reads.pure _
  | case2 text some =>
    obtain ⟨c, rest, rfl⟩ := List.exists_cons_of_ne_nil some
    refine ⟨[], ?_, Nat.zero_le _, fun bytes parsed => by cases parsed⟩
    unfold parseHexLoop
    refine .look (by omega) holds.head ?_
    rw [if_neg (goesOn nul)]
    simpa using Peek.Reads.pure _
  | case3 room c full =>
    obtain ⟨room, rfl⟩ := Nat.exists_eq_succ_of_ne_zero full
    have byte := parseHexByteAt_reads holds.head holds.tail.terminator
    refine ⟨[], ?_, Nat.zero_le _, fun bytes parsed => by cases parsed⟩
    unfold parseHexLoop
    refine .look (by omega) holds.head ?_
    rw [if_neg (goesOn nul)]
    have none : parseHexByte c '\x00' = none := by
      unfold parseHexByte
      cases hexValue c <;> rfl
    rw [none] at byte
    refine .bind (byte.mono ?_) (by simpa using Peek.Reads.pure _)
    simp only [List.length_cons]
    omega
  | case4 room high low rest ih =>
    have byte := parseHexByteAt_reads holds.head holds.tail.head
    have inside : ∀ i, (i = hex ∨ isxdigit high = true ∧ i = hex + 1) →
        hex ≤ i ∧ i ≤ hex + ((high :: low :: rest).length : Nat) := by
      simp only [List.length_cons]
      omega
    unfold parseHexLoop
    cases parsed : parseHexByte high low with
    | none =>
      rw [parsed] at byte
      refine ⟨[], .look (by omega) holds.head ?_, Nat.zero_le _, fun bytes parsed => by cases parsed⟩
      rw [if_neg (goesOn nul)]
      exact .bind (byte.mono inside) (by simpa using Peek.Reads.pure _)
    | some b =>
      rw [parsed] at byte
      have holds' : HoldsString m (hex + 2) rest := by simpa [add_assoc] using holds.tail.tail
      have fits' : (written ++ [b]).length + room ≤ bufLen := by
        simp only [List.length_append, List.length_cons, List.length_nil]
        omega
      obtain ⟨more, reads, short, same⟩ := ih fits' holds' (by simp_all)
      refine ⟨b :: more, .look (by omega) holds.head ?_, by simpa using short, ?_⟩
      · rw [if_neg (goesOn nul)]
        refine .bind (byte.mono inside) ?_
        refine Peek.Reads.mono ?_ (show ∀ i, hex + 2 ≤ i ∧ i ≤ hex + 2 + rest.length → _ by
          simp only [List.length_cons]
          omega)
        convert reads using 2
        · simp
        · cases parseHexString room rest <;> simp [add_assoc, add_comm 1]
      · intro bytes
        cases found : parseHexString room rest with
        | none =>
          intro equal
          cases equal
        | some bytes' =>
          intro equal
          rw [same _ found]
          exact Option.some.inj equal

theorem hexValue_digitChar : ∀ n < 16, hexValue (Nat.digitChar n) = some n := by decide

theorem parseHexByte_digits (b : UInt8) :
    parseHexByte (Nat.digitChar (b.toNat / 16)) (Nat.digitChar (b.toNat % 16)) = some b := by
  have small := b.toNat_lt
  rw [parseHexByte, hexValue_digitChar _ (by omega), hexValue_digitChar _ (by omega)]
  show some (UInt8.ofNat (b.toNat / 16 * 16 + b.toNat % 16)) = some b
  rw [Nat.div_add_mod', UInt8.ofNat_toNat]

theorem parseHexString_hexText {data : List UInt8} {bufLen : Nat} (fits : data.length ≤ bufLen) :
    parseHexString bufLen (hexText data) = some data := by
  induction data generalizing bufLen with
  | nil =>
    cases bufLen <;> rfl
  | cons b data ih =>
    obtain ⟨bufLen, rfl⟩ := Nat.exists_eq_succ_of_ne_zero (show bufLen ≠ 0 by rw [List.length_cons] at fits; omega)
    have rest := ih (Nat.le_of_succ_le_succ fits)
    show parseHexString (bufLen + 1) (_ :: _ :: hexText data) = _
    rw [parseHexString, parseHexByte_digits, rest]
    rfl

theorem hexText_injective {a b : List UInt8} (same : hexText a = hexText b) : a = b := by
  have whole := parseHexString_hexText (Nat.le_max_left a.length b.length)
  rw [same, parseHexString_hexText (Nat.le_max_right a.length b.length)] at whole
  exact (Option.some.inj whole).symm

theorem digits_of_parseHexByte {b : UInt8} (parsed : parseHexByte h l = some b) :
    Nat.digitChar (b.toNat / 16) = h.toLower ∧ Nat.digitChar (b.toNat % 16) = l.toLower := by
  obtain ⟨high, hh, parsed⟩ := Option.bind_eq_some_iff.mp parsed
  obtain ⟨low, hl, parsed⟩ := Option.bind_eq_some_iff.mp parsed
  obtain ⟨small, highDigit⟩ := hexValue_spec hh
  obtain ⟨small', lowDigit⟩ := hexValue_spec hl
  have value : b.toNat = high * 16 + low := by
    rw [← Option.some.inj parsed, UInt8.toNat_ofNat']
    omega
  rw [← highDigit, ← lowDigit, value]
  constructor <;> congr 1 <;> omega

/-- The bytes are printed as the string, in lower case. -/
theorem hexText_of_parseHexString {bufLen : Nat} {bytes : List UInt8} (parsed : parseHexString bufLen text = some bytes) :
    hexText bytes = text.map Char.toLower := by
  fun_induction parseHexString bufLen text generalizing bytes with
  | case1 => cases parsed; rfl
  | case2 => cases parsed
  | case3 => cases parsed
  | case4 bufLen high low hex ih =>
    obtain ⟨byte, pair, parsed⟩ := Option.bind_eq_some_iff.mp parsed
    obtain ⟨rest, found, parsed⟩ := Option.bind_eq_some_iff.mp parsed
    cases parsed
    obtain ⟨highDigit, lowDigit⟩ := digits_of_parseHexByte pair
    show _ :: _ :: hexText rest = _
    rw [highDigit, lowDigit, ih found]
    rfl

theorem parseHexString_isSome (bufLen : Nat) (text : List Char) :
    (parseHexString bufLen text).isSome = true ↔
      text.length % 2 = 0 ∧ (∀ c ∈ text, isxdigit c = true) ∧ text.length ≤ 2 * bufLen := by
  fun_induction parseHexString bufLen text with
  | case1 => simp
  | case2 text some =>
    have := List.length_pos_of_ne_nil some
    simp only [Option.isSome_none, Bool.false_eq_true, false_iff]
    omega
  | case3 => simp
  | case4 bufLen high low hex ih =>
    have lengths : (hex.length + 1 + 1) % 2 = 0 ∧ hex.length + 1 + 1 ≤ 2 * (bufLen + 1) ↔
        hex.length % 2 = 0 ∧ hex.length ≤ 2 * bufLen := by omega
    have pair : (parseHexByte high low).isSome = (isxdigit high && isxdigit low) := by
      unfold parseHexByte isxdigit
      cases hexValue high <;> cases hexValue low <;> rfl
    have both : ((parseHexByte high low).bind fun byte => (parseHexString bufLen hex).bind fun rest => some (byte :: rest)).isSome =
        ((parseHexByte high low).isSome && (parseHexString bufLen hex).isSome) := by
      cases parseHexByte high low <;> cases parseHexString bufLen hex <;> rfl
    refine (Bool.eq_iff_iff.mp both).trans ?_
    rw [pair, Bool.and_eq_true, Bool.and_eq_true, ih, List.forall_mem_cons, List.forall_mem_cons]
    simp only [List.length_cons]
    tauto

def stringCells (text : List Char) (i : Int) : Char := text.getD i.toNat '\x00'

theorem stringCells_holds (text : List Char) : HoldsString (stringCells text) 0 text := by
  intro i _
  simp [stringCells]

def toInt32 (n : Int) : Int := (BitVec.ofInt 32 n).toInt

/-- `new_tcp_fast_open_option` as far as it asserts: the cookie, or the error. -/
def fastOpenCookie (cookieString : List Char) (exp : Bool) : Run (Except String (List UInt8)) := do
  let cookieStringLen := toInt32 cookieString.length
  if cookieStringLen % 2 ≠ 0 then return .error "TCP fast open cookie has an odd number of digits"
  let cookieBytes := cookieStringLen.tdiv 2
  let maxBytes := maxCookieBytes exp
  if maxBytes < cookieBytes then
    return .error ("TCP fast open cookie of " ++ toString cookieBytes ++ " bytes exceeds maximum cookie length of " ++
      toString maxBytes ++ " bytes")
  let parsed ← (parseHexStringAt 0 maxBytes).eval (stringCells cookieString)
  match parsed.outLen with
  | none => return .error ("TCP fast open cookie '" ++ String.ofList cookieString ++ "' is not a valid hex string")
  | some parsedBytes =>
    assertThat (parsedBytes = cookieBytes)
    return .ok parsed.written

def md5Digest (digestString : List Char) : Run (Except String (List UInt8)) := do
  let digestBytes := (toInt32 digestString.length).tdiv 2
  if tcpMd5DigestLen < digestBytes then return .error "TCP MD5 digest longer than 16 bytes"
  let parsed ← (parseHexStringAt 0 tcpMd5DigestLen).eval (stringCells digestString)
  match parsed.outLen with
  | none => return .error "TCP MD5 digest is not a valid hex string"
  | some parsedBytes =>
    assertThat (parsedBytes ≤ digestBytes)
    return .ok parsed.written

theorem toInt32_small {n : Int} (low : -2 ^ 31 ≤ n) (high : n < 2 ^ 31) : toInt32 n = n := by
  rw [toInt32, BitVec.toInt_ofInt]
  exact Int.bmod_eq_of_le (by omega) (by omega)

theorem half_length {bytes : List UInt8} (double : text.length = 2 * bytes.length) :
    (text.length : Int).tdiv 2 = bytes.length := by
  rw [Int.tdiv_eq_ediv_of_nonneg (by omega)]
  omega

theorem parseHexStringAt_reads (holds : HoldsString m hex text) (nul : '\x00' ∉ text) (bufLen : Nat) :
    ∃ written, Peek.Reads m (fun i => hex ≤ i ∧ i ≤ hex + text.length) (parseHexStringAt hex bufLen)
        ⟨written, (parseHexString bufLen text).map List.length⟩ ∧
      written.length ≤ bufLen ∧ ∀ bytes, parseHexString bufLen text = some bytes → written = bytes := by
  obtain ⟨written, reads, short, same⟩ :=
    parseHexLoop_reads (show ([] : List UInt8).length + bufLen ≤ bufLen by simp) holds nul
  simp only [List.nil_append, List.length_nil, Nat.zero_add] at reads
  exact ⟨written, reads, short, same⟩

/-- No assertion fails, and the cookie is the one the string stands for. -/
theorem fastOpenCookie_returns (nul : '\x00' ∉ text) (exp : Bool) :
    ∃ option, fastOpenCookie text exp = .ok option ∧ option.toOption = parseHexString (maxCookieBytes exp) text := by
  obtain ⟨written, reads, _, same⟩ := parseHexStringAt_reads (stringCells_holds text) nul (maxCookieBytes exp)
  unfold fastOpenCookie
  dsimp only
  cases parsed : parseHexString (maxCookieBytes exp) text with
  | none =>
    rw [reads.result, parsed]
    split
    · exact ⟨_, rfl, rfl⟩
    split
    · exact ⟨_, rfl, rfl⟩
    · exact ⟨_, rfl, rfl⟩
  | some cookie =>
    obtain ⟨short, double⟩ := parseHexString_length parsed
    have room : maxCookieBytes exp ≤ 40 := by cases exp <;> decide
    refine ⟨.ok cookie, ?_, rfl⟩
    rw [toInt32_small (by omega) (by omega), half_length double, if_neg (by omega), if_neg (by omega), reads.result, parsed, same _ parsed]
    show (assertThat (_ = _) >>= fun _ => _) = _
    rw [assertThat_ok rfl]
    rfl

theorem md5Digest_returns (nul : '\x00' ∉ text) :
    ∃ option, md5Digest text = .ok option ∧ option.toOption = parseHexString tcpMd5DigestLen text := by
  obtain ⟨written, reads, _, same⟩ := parseHexStringAt_reads (stringCells_holds text) nul tcpMd5DigestLen
  unfold md5Digest
  dsimp only
  cases parsed : parseHexString tcpMd5DigestLen text with
  | none =>
    rw [reads.result, parsed]
    split
    · exact ⟨_, rfl, rfl⟩
    · exact ⟨_, rfl, rfl⟩
  | some digest =>
    obtain ⟨short, double⟩ := parseHexString_length parsed
    have room : tcpMd5DigestLen ≤ 16 := by decide
    refine ⟨.ok digest, ?_, rfl⟩
    rw [toInt32_small (by omega) (by omega), half_length double, if_neg (by omega), reads.result, parsed, same _ parsed]
    show (assertThat ((digest.length : Int) ≤ digest.length) >>= fun _ => _) = _
    rw [assertThat_ok (Int.le_refl _)]
    rfl

theorem newTcpFastOpenOption_iff {exp : Bool} {cookie : List UInt8} :
    (∃ fits, newTcpFastOpenOption text exp = .ok (.fastOpen exp cookie fits)) ↔ parseHexString (maxCookieBytes exp) text = some cookie := by
  unfold newTcpFastOpenOption
  constructor
  · rintro ⟨fits, built⟩
    split at built
    · cases built
    split at built
    · cases built
    split at built
    · cases built
    · rename_i parsed
      cases built
      exact parsed
  · intro parsed
    obtain ⟨short, double⟩ := parseHexString_length parsed
    refine ⟨short, ?_⟩
    rw [if_neg (by omega), if_neg (by omega)]
    split
    · rename_i failed
      cases failed.symm.trans parsed
    · rename_i found
      cases found.symm.trans parsed
      rfl

theorem newMd5Option_iff {digest : List UInt8} :
    (∃ fits, newMd5Option text = .ok (.md5 digest fits)) ↔ parseHexString tcpMd5DigestLen text = some digest := by
  unfold newMd5Option
  constructor
  · rintro ⟨fits, built⟩
    split at built
    · cases built
    split at built
    · cases built
    · rename_i parsed
      cases built
      exact parsed
  · intro parsed
    obtain ⟨short, double⟩ := parseHexString_length parsed
    refine ⟨short, ?_⟩
    rw [if_neg (by omega)]
    split
    · rename_i failed
      cases failed.symm.trans parsed
    · rename_i found
      cases found.symm.trans parsed
      rfl

/-- The grammar's options are those of the functions that walk the string. -/
theorem hexOptions_agree (nul : '\x00' ∉ text) (exp : Bool) (bytes : List UInt8) :
    (fastOpenCookie text exp = .ok (.ok bytes) ↔ ∃ fits, newTcpFastOpenOption text exp = .ok (.fastOpen exp bytes fits)) ∧
      (md5Digest text = .ok (.ok bytes) ↔ ∃ fits, newMd5Option text = .ok (.md5 bytes fits)) := by
  have same {run : Run (Except String (List UInt8))} {option : Except String (List UInt8)} (ran : run = .ok option) :
      run = .ok (.ok bytes) ↔ option.toOption = some bytes := by
    subst ran
    cases option <;> simp [Except.toOption]
  obtain ⟨fastOpen, ranFastOpen, cookie⟩ := fastOpenCookie_returns nul exp
  obtain ⟨md5, ranMd5, digest⟩ := md5Digest_returns nul
  rw [same ranFastOpen, same ranMd5, cookie, digest]
  exact ⟨newTcpFastOpenOption_iff.symm, newMd5Option_iff.symm⟩

/-- `parse_hex_string` returns for every string and buffer, with success exactly for the pairs of digits that fit. It stays
in the string and in the buffer, and no assertion of its callers fails. -/
theorem parseHexStringAt_correct (holds : HoldsString m hex text) (nul : '\x00' ∉ text) (bufLen : Nat) (exp : Bool) :
    ∃ run, (parseHexStringAt hex bufLen).eval m = .ok run ∧
      (run.outLen.isSome = true ↔
        text.length % 2 = 0 ∧ (∀ c ∈ text, isxdigit c = true) ∧ text.length ≤ 2 * bufLen) ∧
      run.written.length ≤ bufLen ∧
      (∀ i ∈ (parseHexStringAt hex bufLen).looks m, hex ≤ i ∧ i ≤ hex + text.length) ∧
      (∀ outLen, run.outLen = some outLen → outLen = run.written.length ∧
        ∀ bytes, hexText bytes = text.map Char.toLower ↔ bytes = run.written) ∧
      (∃ option, fastOpenCookie text exp = .ok option) ∧ ∃ option, md5Digest text = .ok option := by
  obtain ⟨written, reads, short, same⟩ := parseHexStringAt_reads holds nul bufLen
  obtain ⟨fastOpen, fastOpenRun, _⟩ := fastOpenCookie_returns nul exp
  obtain ⟨md5, md5Run, _⟩ := md5Digest_returns nul
  refine ⟨_, reads.result, ?_, short, reads.inside, ?_, ⟨fastOpen, fastOpenRun⟩, md5, md5Run⟩
  · rw [Option.isSome_map]
    exact parseHexString_isSome bufLen text
  · intro outLen success
    obtain ⟨bytes, parsed, rfl⟩ := Option.map_eq_some_iff.mp success
    cases same _ parsed
    refine ⟨rfl, fun bytes' => ?_⟩
    rw [← hexText_of_parseHexString parsed]
    exact ⟨hexText_injective, congrArg hexText⟩

theorem parseHexStringAt_mixed_case :
    ∃ run, (parseHexStringAt 0 16).eval (stringCells "0aF9".toList) = .ok run ∧ run = ⟨[0x0a, 0xf9], some 2⟩ := by
  obtain ⟨run, returns, -⟩ := parseHexStringAt_correct (stringCells_holds "0aF9".toList) (by decide) 16 false
  exact ⟨run, returns, Except.ok.inj (returns.symm.trans (by decide))⟩

def strndup : Nat → Nat → Int → StringWalk (List Char)
  | 0, _, _ => .fail .outOfFuel
  | _ + 1, 0, _ => return []
  | fuel + 1, n + 1, s => do
    let c ← .look s
    if c = '\x00' then return []
    return c :: (← strndup fuel n (s + 1))

def strlen (fuel : Nat) (s : Int) : StringWalk Int :=
  return (← .walk (· ≠ '\x00') 1 .outOfFuel fuel s) - s

/-- The loops and the library functions take at most `fuel` rounds each. -/
def code (fuel : Nat) (s : Int) : StringWalk (List Char) := do
  let start ← .walk isBlank 1 .outOfFuel fuel (s + 2)
  let stop ← .walk isBlank (-1) .outOfFuel fuel (s + ((← strlen fuel s) - 1) - 2)
  -- The `int` goes to `strndup` as a `size_t`.
  strndup fuel (BitVec.ofInt 64 (toInt32 (stop - start + 1))).toNat start

variable {c : Char} {run rest : List Char} {fuel : Nat} {p : Char → Bool}

theorem HoldsString.behind (holds : HoldsString m s (run ++ rest)) : HoldsString m (s + run.length) rest := by
  induction run generalizing s with
  | nil => simpa using holds
  | cons c run ih =>
    have next := ih holds.tail
    rwa [Int.add_assoc, Int.add_comm 1] at next

theorem HoldsString.mem (holds : HoldsString m s (run ++ rest)) {j : Nat} (inside : j < run.length) : m (s + j) ∈ run := by
  rw [holds j (by simp; omega), List.getD_append _ _ _ _ inside, List.getD_eq_getElem _ _ inside]
  exact List.getElem_mem inside

theorem strndup_reads (n : Nat) (holds : HoldsString m s text) (nul : '\x00' ∉ text) (enough : text.length < fuel) :
    Peek.Reads m (fun i => s ≤ i ∧ i ≤ s + text.length) (strndup fuel n s) (text.take n) := by
  induction text generalizing s n fuel with
  | nil =>
    obtain ⟨fuel, rfl⟩ := Nat.exists_eq_succ_of_ne_zero (show fuel ≠ 0 by omega)
    cases n with
    | zero => exact .pure []
    | succ n =>
      refine .look (by simp) holds.terminator ?_
      exact .pure []
  | cons c text ih =>
    obtain ⟨fuel, rfl⟩ := Nat.exists_eq_succ_of_ne_zero (show fuel ≠ 0 by omega)
    cases n with
    | zero => exact .pure []
    | succ n =>
      have other : c ≠ '\x00' := fun same => nul (same ▸ List.mem_cons_self)
      refine .look (by omega) holds.head ?_
      rw [if_neg other]
      have copied := ih n holds.tail (fun member => nul (List.mem_cons_of_mem c member)) (Nat.lt_of_succ_lt_succ enough)
      refine .bind (copied.mono ?_) (.pure _)
      simp only [List.length_cons]
      omega

theorem strndup_no_nul {n : Nat} {result : List Char} (returned : (strndup fuel n s).eval m = .ok result) : '\x00' ∉ result := by
  fun_induction strndup fuel n s generalizing result with
  | case1 => cases returned
  | case2 => cases returned; simp
  | case3 fuel n s ih =>
    rw [Peek.eval_bind, Peek.eval_look, ok_bind] at returned
    by_cases ends : m s = '\x00'
    · rw [if_pos ends] at returned
      cases returned
      simp
    · rw [if_neg ends, Peek.eval_bind] at returned
      obtain ⟨rest, copied, returned⟩ := run_bind_ok returned
      cases returned
      simpa [Ne.symm ends] using ih copied

theorem skip_forward (holds : HoldsString m s (run ++ rest)) (every : ∀ c ∈ run, p c = true)
    (halt : p (m (s + run.length)) = false) (enough : run.length < fuel) :
    Peek.Reads m (fun i => s ≤ i ∧ i ≤ s + run.length) (.walk p 1 Fault.outOfFuel fuel s) (s + run.length) := by
  rw [← Int.one_mul (run.length : Int)] at halt ⊢
  refine Peek.walk_reads ?_ halt enough (by omega)
  intro j inside
  rw [Int.one_mul]
  exact every _ (holds.mem inside)

theorem skip_backward (holds : HoldsString m s (c :: (run ++ rest))) (every : ∀ c ∈ run, p c = true) (halt : p c = false)
    (enough : run.length < fuel) :
    Peek.Reads m (fun i => s ≤ i ∧ i ≤ s + run.length) (.walk p (-1) Fault.outOfFuel fuel (s + run.length)) s := by
  have back : s + run.length + -1 * (run.length : Int) = s := by omega
  have walked : Peek.Reads m (fun i => s ≤ i ∧ i ≤ s + run.length) (.walk p (-1) Fault.outOfFuel fuel (s + run.length))
      (s + run.length + -1 * (run.length : Int)) := by
    refine Peek.walk_reads ?_ ?_ enough (by omega)
    · intro j inside
      have cell := holds.tail.mem (show run.length - 1 - j < run.length by omega)
      rw [show s + 1 + (run.length - 1 - j : Nat) = s + run.length + -1 * (j : Int) by omega] at cell
      exact every _ cell
    · rw [back, holds.head]
      exact halt
  rwa [back] at walked

theorem strlen_reads (holds : HoldsString m s text) (nul : '\x00' ∉ text) (enough : text.length < fuel) :
    Peek.Reads m (fun i => s ≤ i ∧ i ≤ s + text.length) (strlen fuel s) text.length := by
  have whole : HoldsString m s (text ++ []) := by rwa [List.append_nil]
  have every : ∀ c ∈ text, decide (c ≠ '\x00') = true := by
    intro c member
    exact decide_eq_true fun same => nul (same ▸ member)
  have halt : decide (m (s + text.length) ≠ '\x00') = false := by
    rw [whole.behind.terminator]
    rfl
  refine .bind (skip_forward whole every halt enough) ?_
  rw [show s + (text.length : Int) - s = text.length by omega]
  exact .pure _

def snippet (body : List Char) : List Char := '%' :: '{' :: (body ++ ['}', '%'])

/-- The copy begins behind the leading blanks; the trailing blanks are those behind the last other character, the brace included. -/
theorem code_reads {body lead tail front trail : List Char} {first last : Char}
    (forward : body ++ ['}', '%'] = lead ++ first :: tail) (backward : '{' :: body = front ++ last :: trail)
    (blankLead : ∀ c ∈ lead, isBlank c = true) (blankTrail : ∀ c ∈ trail, isBlank c = true)
    (firstSolid : isBlank first = false) (lastSolid : isBlank last = false)
    (holds : HoldsString m s (snippet body)) (nul : '\x00' ∉ snippet body) (enough : (snippet body).length < fuel) :
    Peek.Reads m (fun i => s ≤ i ∧ i ≤ s + (snippet body).length) (code fuel s)
      ((first :: tail).take (BitVec.ofInt 64 (toInt32 (front.length - lead.length))).toNat) := by
  have length : (snippet body).length = body.length + 4 := by simp [snippet]
  have lengthForward := congrArg List.length forward
  have lengthBackward := congrArg List.length backward
  simp only [List.length_append, List.length_cons, List.length_nil] at lengthForward lengthBackward
  have holdsForward : HoldsString m (s + 2) (lead ++ first :: tail) := by
    rw [← forward]
    simpa [add_assoc] using holds.tail.tail
  have holdsBackward : HoldsString m (s + 1 + front.length) (last :: (trail ++ ['}', '%'])) := by
    have braced : HoldsString m (s + 1) (front ++ last :: trail ++ ['}', '%']) := backward ▸ holds.tail
    rw [List.append_assoc] at braced
    exact braced.behind
  have halt : isBlank (m (s + 2 + lead.length)) = false := by
    rw [holdsForward.behind.head]
    exact firstSolid
  have copied : '\x00' ∉ first :: tail := by
    intro member
    have : '\x00' ∈ body ++ ['}', '%'] := forward ▸ List.mem_append_right lead member
    exact nul (List.mem_cons_of_mem _ (List.mem_cons_of_mem _ this))
  refine .bind ((skip_forward holdsForward blankLead halt (by omega)).mono (by omega)) ?_
  refine .bind (strlen_reads holds nul enough) ?_
  rw [show s + (((snippet body).length : Int) - 1) - 2 = s + 1 + front.length + trail.length by omega]
  refine .bind ((skip_backward holdsBackward blankTrail lastSolid (by omega)).mono (by omega)) ?_
  rw [show s + 1 + (front.length : Int) - (s + 2 + lead.length) + 1 = front.length - lead.length by omega]
  refine (strndup_reads _ holdsForward.behind copied ?_).mono ?_
  · rw [List.length_cons]
    omega
  · rw [List.length_cons]
    omega

theorem codeText_snippet (body : List Char) :
    codeText (snippet body) = if body ≠ [] ∧ body.all isBlank then ['}', '%'] else trimBlanks body := by
  have inner : ((snippet body).drop 2).take ((snippet body).length - 4) = body := by simp [snippet]
  rw [codeText, inner]

theorem dropWhile_blanks {l : List Char} (member : c ∈ l) (solid : isBlank c = false) :
    ∃ lead first tail, l = lead ++ first :: tail ∧ l.dropWhile isBlank = first :: tail ∧ (∀ c ∈ lead, isBlank c = true) ∧
      isBlank first = false ∧ c ∈ first :: tail := by
  induction l with
  | nil => cases member
  | cons d l ih =>
    cases blank : isBlank d with
    | false => exact ⟨[], d, l, rfl, List.dropWhile_cons_of_neg (by simp [blank]), nofun, blank, member⟩
    | true =>
      have member : c ∈ l := (List.mem_cons.mp member).resolve_left fun same => by simp [← same, solid] at blank
      obtain ⟨lead, first, tail, shape, dropped, blanks, firstSolid, kept⟩ := ih member
      refine ⟨d :: lead, first, tail, congrArg (d :: ·) shape, ?_, ?_, firstSolid, kept⟩
      · rw [List.dropWhile_cons_of_pos blank, dropped]
      · rw [List.forall_mem_cons]
        exact ⟨blank, blanks⟩

theorem trimBlanks_cut {body : List Char} (member : c ∈ body) (solid : isBlank c = false) :
    ∃ lead first tail front last trail, body = lead ++ first :: tail ∧ first :: tail = front ++ last :: trail ∧
      trimBlanks body = front ++ [last] ∧ (∀ c ∈ lead, isBlank c = true) ∧ (∀ c ∈ trail, isBlank c = true) ∧
      isBlank first = false ∧ isBlank last = false ∧ c ∈ trimBlanks body := by
  obtain ⟨lead, first, tail, shape, dropped, blankLead, firstSolid, kept⟩ := dropWhile_blanks member solid
  obtain ⟨trail, last, front, back, dropped', blankTrail, lastSolid, kept'⟩ :=
    dropWhile_blanks (List.mem_reverse.mpr kept) solid
  have trimmed : trimBlanks body = front.reverse ++ [last] := by
    rw [trimBlanks, dropped, List.rdropWhile, dropped', List.reverse_cons]
  refine ⟨lead, first, tail, front.reverse, last, trail.reverse, shape, ?_, trimmed, blankLead, ?_, firstSolid, lastSolid, ?_⟩
  · rw [← List.reverse_reverse (first :: tail), back]
    simp
  · simpa using blankTrail
  · rw [trimmed]
    simpa [or_comm] using kept'

theorem code_trims {body : List Char} (member : c ∈ body) (solid : isBlank c = false) (holds : HoldsString m s (snippet body))
    (nul : '\x00' ∉ snippet body) (short : (snippet body).length < 2 ^ 31) (enough : (snippet body).length < fuel) :
    Peek.Reads m (fun i => s ≤ i ∧ i ≤ s + (snippet body).length) (code fuel s) (trimBlanks body) := by
  have length : (snippet body).length = body.length + 4 := by simp [snippet]
  obtain ⟨lead, first, tail, front, last, trail, shape, back, trimmed, blankLead, blankTrail, firstSolid, lastSolid, -⟩ :=
    trimBlanks_cut member solid
  have forward : body ++ ['}', '%'] = lead ++ first :: (tail ++ ['}', '%']) := by simp [shape]
  have backward : '{' :: body = ('{' :: (lead ++ front)) ++ last :: trail := by simp [shape, back]
  have reads := code_reads forward backward blankLead blankTrail firstSolid lastSolid holds nul enough
  have fits := congrArg List.length backward
  simp only [List.length_append, List.length_cons] at fits
  have copied : ((('{' :: (lead ++ front)).length : Nat) : Int) - lead.length = (front.length + 1 : Nat) := by
    simp only [List.length_append, List.length_cons]
    omega
  have size : (BitVec.ofInt 64 ((front.length + 1 : Nat) : Int)).toNat = (front ++ [last]).length := by
    rw [BitVec.toNat_ofInt, List.length_append, List.length_singleton]
    omega
  have rest : first :: (tail ++ ['}', '%']) = (front ++ [last]) ++ (trail ++ ['}', '%']) := by
    rw [← List.cons_append, back]
    simp
  rwa [copied, toInt32_small (by omega) (by omega), size, rest, List.take_left, ← trimmed] at reads

theorem code_blank {body : List Char} (blank : ∀ c ∈ body, isBlank c = true) (holds : HoldsString m s (snippet body))
    (nul : '\x00' ∉ snippet body) (short : (snippet body).length < 2 ^ 31) (enough : (snippet body).length < fuel) :
    Peek.Reads m (fun i => s ≤ i ∧ i ≤ s + (snippet body).length) (code fuel s) (if body = [] then [] else ['}', '%']) := by
  have length : (snippet body).length = body.length + 4 := by simp [snippet]
  have reads := code_reads (show body ++ ['}', '%'] = body ++ '}' :: ['%'] from rfl)
    (show '{' :: body = [] ++ '{' :: body from rfl) blank blank rfl rfl holds nul enough
  rw [toInt32_small (by simp; omega) (by simp; omega), BitVec.toNat_ofInt] at reads
  by_cases empty : body = []
  · subst empty
    exact reads
  · have positive := List.length_pos_of_ne_nil empty
    rw [if_neg empty]
    rwa [List.take_of_length_le (by simp; omega)] at reads

theorem code_no_nul {result : List Char} (returned : (code fuel s).eval m = .ok result) : '\x00' ∉ result := by
  unfold code at returned
  rw [Peek.eval_bind] at returned
  obtain ⟨start, _, returned⟩ := run_bind_ok returned
  rw [Peek.eval_bind] at returned
  obtain ⟨length, _, returned⟩ := run_bind_ok returned
  rw [Peek.eval_bind] at returned
  obtain ⟨stop, _, returned⟩ := run_bind_ok returned
  exact strndup_no_nul returned

theorem mem_code (matched : text ∈ Pattern.code.language) : ∃ body, text = snippet body := by
  obtain ⟨opening, isOpening, rest, ⟨body, _, closing, isClosing, rfl⟩, rfl⟩ := Regex.mem_seq.mp matched
  rw [Regex.mem_literal.mp isOpening, Regex.mem_literal.mp isClosing]
  exact ⟨body, rfl⟩

theorem code_codeText {body : List Char} (holds : HoldsString m s (snippet body)) (nul : '\x00' ∉ body)
    (short : (snippet body).length < 2 ^ 31) (enough : (snippet body).length < fuel) :
    Peek.Reads m (fun i => s ≤ i ∧ i ≤ s + (snippet body).length) (code fuel s) (codeText (snippet body)) := by
  have nul : '\x00' ∉ snippet body := by simpa [snippet] using nul
  rw [codeText_snippet]
  by_cases solid : ∃ c ∈ body, isBlank c = false
  · obtain ⟨c, member, solid⟩ := solid
    rw [if_neg]
    · exact code_trims member solid holds nul short enough
    · intro ⟨_, blank⟩
      rw [List.all_eq_true.mp blank c member] at solid
      cases solid
  · have blank : ∀ c ∈ body, isBlank c = true := by simpa using solid
    have reads := code_blank blank holds nul short enough
    by_cases empty : body = []
    · subst empty
      exact reads
    · rw [if_neg empty] at reads
      rwa [if_pos ⟨empty, List.all_eq_true.mpr blank⟩]

/-- For a snippet of a script, whose length is an `int`: the function returns the body without the blanks at its ends and
looks at nothing but the text and its terminator exactly when the body has no NUL and is empty or not only blanks. -/
theorem code_correct_iff (matched : text ∈ Pattern.code.language) (short : text.length < 2 ^ 31) (holds : HoldsString m s text) :
    ∃ body, text = '%' :: '{' :: (body ++ ['}', '%']) ∧
      ((∀ fuel > text.length, Peek.Reads m (fun i => s ≤ i ∧ i ≤ s + text.length) (code fuel s) (trimBlanks body)) ↔
        '\x00' ∉ body ∧ (body = [] ∨ ∃ c ∈ body, isBlank c = false)) := by
  obtain ⟨body, rfl⟩ := mem_code matched
  have onlyBlanks : (body ≠ [] ∧ body.all isBlank = true) ↔ ¬(body = [] ∨ ∃ c ∈ body, isBlank c = false) := by simp
  refine ⟨body, rfl, ?_, ?_⟩
  · intro correct
    have reads := correct _ (Nat.lt_succ_self _)
    have nul : '\x00' ∉ body := by
      intro member
      obtain ⟨_, _, _, _, _, _, _, _, _, _, _, _, _, kept⟩ := trimBlanks_cut member rfl
      exact code_no_nul reads.result kept
    refine ⟨nul, ?_⟩
    by_contra blank
    have blank := onlyBlanks.mpr blank
    have returned := (code_codeText holds nul short (Nat.lt_succ_self _)).result
    rw [codeText_snippet, if_pos blank, reads.result, trimBlanks,
      List.dropWhile_eq_nil_iff.mpr (List.all_eq_true.mp blank.2)] at returned
    cases returned
  · intro ⟨nul, solid⟩ fuel enough
    have reads := code_codeText holds nul short enough
    rwa [codeText_snippet, if_neg (mt onlyBlanks.mp (not_not.mpr solid))] at reads

theorem code_correct_word :
    Peek.Reads (stringCells (snippet [' ', 'x', ' '])) (fun i => 0 ≤ i ∧ i ≤ 0 + 7) (code 8 0) ['x'] := by
  obtain ⟨body, shape, correct⟩ := code_correct_iff ((Regex.accepts_iff _ (snippet [' ', 'x', ' '])).mp (by decide)) (by decide)
    (stringCells_holds _)
  obtain rfl : [' ', 'x', ' '] = body := List.append_cancel_right (by simpa [snippet] using shape : _ ++ ['}', '%'] = body ++ ['}', '%'])
  exact correct.mpr ⟨by simp, .inr ⟨'x', by simp, rfl⟩⟩ 8 (by decide)

theorem code_only_blanks :
    snippet [' '] ∈ Pattern.code.language ∧ trimBlanks [' '] = [] ∧
      ∀ fuel > 5, (code fuel 0).eval (stringCells (snippet [' '])) = .ok ['}', '%'] := by
  refine ⟨(Regex.accepts_iff _ _).mp (by decide), by decide, fun fuel enough => ?_⟩
  exact (code_codeText (stringCells_holds _) (by decide) (by decide) enough).result

end TcpFuzz
