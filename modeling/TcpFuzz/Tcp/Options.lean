import TcpFuzz.Packet.Fields

/-! The iterator of `tcp_options_iterator.c` and the two loops of `run_packet.c` that use it. The iterator reports
malformed options but follows their length bytes all the same. -/

namespace TcpFuzz
open Bytes Mem

abbrev tcpoptEol : Nat := 0
abbrev tcpoptNop : Nat := 1
abbrev tcpoptMaxseg : Nat := 2
abbrev tcpoptWindow : Nat := 3
abbrev tcpoptSackPermitted : Nat := 4
abbrev tcpoptSack : Nat := 5
abbrev tcpoptTimestamp : Nat := 8
abbrev tcpoptMd5sig : Nat := 19
abbrev tcpoptFastopen : Nat := 34
abbrev tcpoptExp : Nat := 254

/-- The length of the options of a kind, zero if it varies, and the error for an unknown kind. -/
def getExpectedTcpOptionLength (kind : Nat) : Nat × Option String :=
  if kind = tcpoptEol ∨ kind = tcpoptNop then (1, none)
  else if kind = tcpoptMaxseg then (4, none)
  else if kind = tcpoptWindow then (3, none)
  else if kind = tcpoptSackPermitted then (2, none)
  else if kind = tcpoptTimestamp then (10, none)
  else if kind = tcpoptSack ∨ kind = tcpoptMd5sig ∨ kind = tcpoptFastopen ∨ kind = tcpoptExp then (0, none)
  else (0, some ("unexpected TCP option kind: " ++ toString kind))

/-- The length byte of an option, with the last of the errors about it. -/
def getTcpOptionLength (m : Mem) (option stop expectedLength : Nat) : Option Nat × Option String :=
  if stop ≤ option + 1 then (none, some "TCP option length byte extends too far")
  else
    let length := m.get8 (option + 1)
    let error := if length < 2 then some "TCP option with length byte is too short" else none
    let error := if stop < option + length then some "TCP option data extends too far" else error
    let error := if expectedLength ≠ 0 ∧ length ≠ expectedLength then
        some ("bad TCP option length: was " ++ toString length ++ " but expected " ++ toString expectedLength)
      else error
    (some length, error)

def getCurrentOption (stop current : Nat) : Option Nat := if stop ≤ current then none else some current

def tcpOptionsNext (m : Mem) (stop option : Nat) : Option Nat × Option String :=
  let (expectedLength, unexpected) := getExpectedTcpOptionLength (m.get8 option)
  if expectedLength = 1 then (getCurrentOption stop (option + 1), unexpected)
  else
    let (length, bad) := getTcpOptionLength m option stop expectedLength
    match length with
    | none | some 0 => (none, bad <|> unexpected)
    | some (n + 1) => (getCurrentOption stop (option + (n + 1)), bad <|> unexpected)

theorem tcpOptionsNext_eq (m : Mem) (stop option : Nat) :
    (tcpOptionsNext m stop option).1 =
      if m.get8 option ≤ 1 then getCurrentOption stop (option + 1)
      else if stop ≤ option + 1 ∨ m.get8 (option + 1) = 0 then none
      else getCurrentOption stop (option + m.get8 (option + 1)) := by
  by_cases single : m.get8 option ≤ 1
  · have expected : getExpectedTcpOptionLength (m.get8 option) = (1, none) :=
      if_pos (by simp only [tcpoptEol, tcpoptNop]; omega)
    rw [if_pos single, tcpOptionsNext, expected]
    simp
  · have expected : (getExpectedTcpOptionLength (m.get8 option)).1 ≠ 1 := by
      unfold getExpectedTcpOptionLength
      rw [if_neg (by simp only [tcpoptEol, tcpoptNop]; omega)]
      repeat' split
      all_goals simp
    rw [if_neg single, tcpOptionsNext]
    simp only [if_neg expected]
    by_cases far : stop ≤ option + 1
    · rw [getTcpOptionLength, if_pos far, if_pos (.inl far)]
    · rw [getTcpOptionLength, if_neg far]
      cases length : m.get8 (option + 1) with
      | zero => simp
      | succ n => simp [far]

theorem tcpOptionsNext_bounds {m : Mem} {stop option next : Nat}
    (found : (tcpOptionsNext m stop option).1 = some next) : option < next ∧ next < stop := by
  have current {k : Nat} (some : getCurrentOption stop k = some next) : k = next ∧ k < stop := by
    unfold getCurrentOption at some
    split at some
    · cases some
    · cases some
      omega
  rw [tcpOptionsNext_eq] at found
  split at found
  · have := current found
    omega
  · split at found
    · cases found
    · have := current found
      omega

/-- A loop over the options. What `tcp_options_next` may leave in `*error` on the way is printed by `find_tcp_timestamp`;
no caller looks at it behind a status of success. -/
def forOptions {σ : Type} (mem : σ → Mem) (stop : Nat) (body : σ → Nat → Except String σ) (s : σ) (option : Nat) :
    Except String σ :=
  if option < stop then
    match body s option with
    | .error e => .error e
    | .ok s =>
      match _found : (tcpOptionsNext (mem s) stop option).1 with
      | none => .ok s
      | some next => forOptions mem stop body s next
  else .ok s
termination_by stop - option
decreasing_by
  have := tcpOptionsNext_bounds _found
  omega

def numSackBlocks (optLen : Nat) : Except String Nat :=
  if optLen ≤ 2 then .error "TCP SACK option too short" else .ok ((optLen - 2) / 8)

def addSeq (m : Mem) (p : Nat) (offset : UInt32) : Mem := m.putBe32 p ((m.be32 p + offset.toNat) % 2 ^ 32)

def offsetBlocks (m : Mem) (p : Nat) (offset : UInt32) : Nat → Mem
  | 0 => m
  | n + 1 => offsetBlocks (addSeq (addSeq m p offset) (p + 4) offset) (p + 8) offset n

def offsetSackOption (offset : UInt32) (m : Mem) (option : Nat) : Except String Mem :=
  if m.get8 option = tcpoptSack then
    match numSackBlocks (m.get8 (option + 1)) with
    | .error e => .error e
    | .ok n => .ok (offsetBlocks m (option + 2) offset n)
  else .ok m

def tcpOptionsBegin (p : Packet) : Run (Nat × Nat) := do
  let tcp ← requirePtr p.tcp
  let stop ← packetPayload p
  return (tcp + 20, stop)

def offsetSackBlocks (p : Packet) (ackOffset : UInt32) : Run (Except String Packet) := do
  let (option, stop) ← tcpOptionsBegin p
  match forOptions id stop (offsetSackOption ackOffset) p.buffer option with
  | .error e => return .error e
  | .ok buffer => return .ok { p with buffer }

def findTimestampOption (m : Mem) (stop option : Nat) : Except String (Option Nat) :=
  forOptions (fun _ => m) stop (fun found option =>
    .ok (if m.get8 option = tcpoptTimestamp then some option else found)) none option

def findTcpTimestamp (p : Packet) : Run (Except String Packet) := do
  let (option, stop) ← tcpOptionsBegin p
  match findTimestampOption p.buffer stop option with
  | .error e => return .error e
  | .ok found => return .ok { p with tcpTsVal := found.map (· + 2), tcpTsEcr := found.map (· + 6) }

end TcpFuzz
