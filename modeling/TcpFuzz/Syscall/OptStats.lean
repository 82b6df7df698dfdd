import TcpFuzz.Syscall.Args

/-! `nla_expr_list_to_nla` stores the expected statistics as netlink attributes, an ellipsis as a number with all bits
set, and `scm_opt_stats_expect_eq` compares them with those of the live call. -/

namespace TcpFuzz.Syscall
open Bytes Mem

variable {s s' : Session} {e : Expression} {num : Int} {actual : Mem} {toleranceUs : Int32}

theorem Routine.bind_ok {α β : Type} {m : Routine α} {f : α → Routine β} {b : β}
    (returned : (m >>= f).run.run s = .ok (.ok b, s')) :
    ∃ a next, m.run.run s = .ok (.ok a, next) ∧ (f a).run.run next = .ok (.ok b, s') := by
  have unfolded : (m.run.run s >>= fun r => (ExceptT.bindCont f r.1).run r.2) = .ok (.ok b, s') := returned
  cases ran : m.run.run s with
  | error reason => rw [ran] at unfolded; cases unfolded
  | ok r =>
    obtain ⟨outcome, next⟩ := r
    rw [ran] at unfolded
    cases outcome with
    | error error => cases unfolded
    | ok a => exact ⟨a, next, rfl, unfolded⟩

theorem checkType_ok {type : ExpressionType}
    (returned : (checkType e type).run.run s = .ok (.ok (), s')) : e.type = type := by
  unfold checkType at returned
  split at returned
  next same => exact same
  next => cases returned

theorem type_integer (type : e.type = .integer) : ∃ num, e = .integer num := by
  cases e <;> first | exact ⟨_, rfl⟩ | cases type

theorem type_ellipsis (type : e.type = .ellipsis) : e = .ellipsis := by
  cases e <;> first | rfl | cases type

theorem type_binary (type : e.type = .binary) : ∃ op lhs rhs, e = .binary op lhs rhs := by
  cases e <;> first | exact ⟨_, _, _, rfl⟩ | cases type

theorem getNum_ok (returned : (getNum e).run.run s = .ok (.ok num, s')) :
    e = .integer num := by
  obtain ⟨_, next, checked, read⟩ := Routine.bind_ok returned
  obtain ⟨n, rfl⟩ := type_integer (checkType_ok checked)
  cases read
  rfl

theorem nlaExprToNla_ok {n : Nat} (returned : (nlaExprToNla e).run.run s = .ok (.ok n, s')) :
    ∃ key value width, e = .binary "=" (.integer key) value ∧ 0 ≤ key ∧ tcpNla[key.toNat]? = some width ∧
      n = (4 + width + 3) / 4 * 4 ∧ (value = .ellipsis ∨ ∃ num, value = .integer num ∧
        (width = 1 → 0 ≤ num ∧ num < 2 ^ 8) ∧ (width = 4 → 0 ≤ num ∧ num < 2 ^ 32)) := by
  obtain ⟨_, next, checked, rest⟩ := Routine.bind_ok returned
  obtain ⟨op, key, value, rfl⟩ := type_binary (checkType_ok checked)
  simp only at rest
  by_cases equals : op ≠ "="
  · rw [if_pos equals] at rest
    cases rest
  rw [if_neg equals] at rest
  obtain ⟨keyNum, _, number, keyed⟩ := Routine.bind_ok rest
  obtain rfl := getNum_ok number
  by_cases invalid : value.type ≠ .integer ∧ value.type ≠ .ellipsis
  · rw [if_pos invalid] at keyed
    cases keyed
  rw [if_neg invalid] at keyed
  by_cases negative : keyNum < 0
  · rw [if_pos negative] at keyed
    cases keyed
  rw [if_neg negative] at keyed
  cases found : tcpNla[keyNum.toNat]? with
  | none => rw [found] at keyed; cases keyed
  | some width =>
    rw [found] at keyed
    simp only at keyed
    refine ⟨keyNum, value, width, by rw [not_not.mp equals], by omega, found, ?_⟩
    by_cases ellipsis : value.type = .ellipsis
    · obtain rfl := type_ellipsis ellipsis
      cases keyed
      exact ⟨rfl, .inl rfl⟩
    obtain ⟨num, rfl⟩ : ∃ num, value = .integer num := type_integer (by
      by_contra other
      exact invalid ⟨other, ellipsis⟩)
    simp only at keyed
    by_cases u8 : width = 1 ∧ ¬(0 ≤ num ∧ num < 2 ^ 8)
    · rw [if_pos u8] at keyed
      cases keyed
    rw [if_neg u8] at keyed
    by_cases u32 : width = 4 ∧ ¬(0 ≤ num ∧ num < 2 ^ 32)
    · rw [if_pos u32] at keyed
      cases keyed
    rw [if_neg u32] at keyed
    cases keyed
    exact ⟨rfl, .inr ⟨num, rfl, by simpa using u8, by simpa using u32⟩⟩

def nlaHdrlen : Nat := 4

def nlaAlign (len : Nat) : Nat := (len + 3) / 4 * 4

def optNlaIgnoreVal : Nat := 2 ^ 32 - 1

def addNla (type len : Nat) (data : List UInt8) : List UInt8 :=
  leBytes 2 (nlaHdrlen + len) ++ (leBytes 2 type ++ (data ++ List.replicate (nlaAlign (nlaHdrlen + len) - (nlaHdrlen + len)) 0))

def getNlaValue (value : Expression) (numBytes : Nat) : List UInt8 :=
  match value with
  | .integer num => leBytes numBytes (sizeT num)
  | _ => leBytes numBytes optNlaIgnoreVal

def expectedNla (element : Expression) : Routine (List UInt8) := do
  discard (nlaExprToNla element)
  match element with
  | .binary _ (.integer key) value =>
    let length := tcpNla.getD key.toNat 0
    return addNla key.toNat length (getNlaValue value length)
  | _ => stop (.fault .invalidAccess)

def expectedStats : List Expression → Routine (List UInt8)
  | [] => return []
  | element :: list => do
    let nla ← expectedNla element
    return nla ++ (← expectedStats list)

structure Stat where
  key : Nat
  value : Option Int
deriving DecidableEq, Repr

namespace Stat

def ofExpression? : Expression → Option Stat
  | .binary _ (.integer key) (.integer num) => some ⟨key.toNat, some num⟩
  | .binary _ (.integer key) .ellipsis => some ⟨key.toNat, none⟩
  | _ => none

def ofList (list : List Expression) : List Stat := list.filterMap ofExpression?

def width (stat : Stat) : Nat := tcpNla.getD stat.key 0

/-- The value that is stored, as 64 bits and in the bytes of the attribute. -/
def val (stat : Stat) : Nat :=
  match stat.value with
  | some num => sizeT num
  | none => optNlaIgnoreVal

def stored (stat : Stat) : Nat := stat.val % 256 ^ stat.width

def bytes (stat : Stat) : List UInt8 := addNla stat.key stat.width (leBytes stat.width stat.val)

structure Valid (stat : Stat) : Prop where
  key : stat.key < tcpNla.length
  range : ∀ num, stat.value = some num → stat.width < 8 → 0 ≤ num ∧ num < 256 ^ stat.width

end Stat

theorem Stat.bytes_length (stat : Stat) : stat.bytes.length = nlaAlign (nlaHdrlen + stat.width) := by
  have rounds : nlaHdrlen + stat.width ≤ nlaAlign (nlaHdrlen + stat.width) := by unfold nlaAlign; omega
  simp only [bytes, addNla, List.length_append, leBytes_length, List.length_replicate]
  unfold nlaHdrlen at *
  omega

theorem nlaExprToNla_stat {element : Expression} {n : Nat}
    (returned : (nlaExprToNla element).run.run s = .ok (.ok n, s')) :
    ∃ key value stat, element = .binary "=" (.integer key) value ∧ Stat.ofExpression? element = some stat ∧ stat.Valid ∧
      n = stat.bytes.length ∧
      stat.bytes = addNla key.toNat (tcpNla.getD key.toNat 0) (getNlaValue value (tcpNla.getD key.toNat 0)) := by
  obtain ⟨key, value, width, rfl, -, found, size, value⟩ := nlaExprToNla_ok returned
  have inside := (List.getElem?_eq_some_iff.mp found).1
  have widthEq : tcpNla.getD key.toNat 0 = width := by rw [List.getD_eq_getElem?_getD, found, Option.getD_some]
  have length (value : Option Int) : (Stat.bytes ⟨key.toNat, value⟩).length = (4 + width + 3) / 4 * 4 := by
    rw [Stat.bytes_length, Stat.width, widthEq]
    rfl
  rcases value with rfl | ⟨num, rfl, u8, u32⟩
  · exact ⟨key, _, ⟨key.toNat, none⟩, rfl, rfl, ⟨inside, nofun⟩, size.trans (length _).symm, rfl⟩
  · refine ⟨key, _, ⟨key.toNat, some num⟩, rfl, rfl, ⟨inside, fun n same small => ?_⟩, size.trans (length _).symm, rfl⟩
    cases same
    have widths : ∀ w ∈ tcpNla, w = 1 ∨ w = 4 ∨ w = 8 := by decide
    rw [Stat.width, widthEq] at small ⊢
    rcases widths width (List.mem_of_getElem? found) with rfl | rfl | rfl
    · exact u8 rfl
    · exact u32 rfl
    · omega

theorem expectedStats_ok {list : List Expression} {bytes : List UInt8}
    (returned : (expectedStats list).run.run s = .ok (.ok bytes, s')) :
    (∀ stat ∈ Stat.ofList list, stat.Valid) ∧ bytes = (Stat.ofList list).flatMap Stat.bytes := by
  induction list generalizing bytes s with
  | nil =>
    cases returned
    exact ⟨nofun, rfl⟩
  | cons element list ih =>
    obtain ⟨nla, _, first, next⟩ := Routine.bind_ok returned
    obtain ⟨others, _, rest, joined⟩ := Routine.bind_ok next
    obtain ⟨_, _, checked, stored⟩ := Routine.bind_ok first
    obtain ⟨_, _, sized, -⟩ := Routine.bind_ok checked
    obtain ⟨key, value, stat, rfl, read, valid, -, encoded⟩ := nlaExprToNla_stat sized
    cases joined
    cases stored
    obtain ⟨allValid, rfl⟩ := ih rest
    rw [Stat.ofList, List.filterMap_cons_some read]
    exact ⟨List.forall_mem_cons.mpr ⟨valid, allValid⟩, by rw [List.flatMap_cons, encoded]; rfl⟩

/-- What `llabs` of the C library returns; nothing is said of the least number. -/
structure LongAbs where
  llabs : Int → Int
  abs : ∀ n, -2 ^ 63 < n → n < 2 ^ 63 → llabs n = n.natAbs

inductive StatKind where
  | time | u64 | u32 | u8
deriving DecidableEq, Repr

def StatKind.width : StatKind → Nat
  | time | u64 => 8
  | u32 => 4
  | u8 => 1

/-- The cases of `scm_opt_stats_expect_eq`: `_TCP_NLA_BUSY` is 1, `_TCP_NLA_CA_STATE` is 14, and
`_TCP_NLA_PAD`, which is 0, has no case. -/
def statKind : Nat → Option StatKind
  | 1 | 2 | 3 => some .time
  | 4 | 5 | 6 | 7 => some .u64
  | 8 | 9 | 10 | 13 => some .u32
  | 11 | 12 | 14 => some .u8
  | _ => none

def tcpNlaNames : List String :=
  ["TCP_NLA_PAD", "TCP_NLA_BUSY", "TCP_NLA_RWND_LIMITED", "TCP_NLA_SNDBUF_LIMITED", "TCP_NLA_DATA_SEGS_OUT",
    "TCP_NLA_TOTAL_RETRANS", "TCP_NLA_PACING_RATE", "TCP_NLA_DELIVERY_RATE", "TCP_NLA_SND_CWND", "TCP_NLA_REORDERING",
    "TCP_NLA_MIN_RTT", "TCP_NLA_RECUR_RETRANS", "TCP_NLA_DELIVERY_RATE_APP_LMT", "TCP_NLA_SNDQ_SIZE", "TCP_NLA_CA_STATE"]

def statEq (libc : LongAbs) (toleranceUs : Int32) (ev av : Nat) : StatKind → Bool
  | .time =>
    if ev = optNlaIgnoreVal then true
    else if ev ≠ 0 then libc.llabs (((ev : Int) - av).bmod (2 ^ 64)) ≤ toleranceUs.toInt
    else av = 0
  | .u64 => ev = av ∨ ev = optNlaIgnoreVal
  | .u32 => ev = av ∨ ev = optNlaIgnoreVal % 2 ^ 32
  | .u8 => ev = av ∨ ev = optNlaIgnoreVal % 2 ^ 8

def nlaLen (m : Mem) (nla : Nat) : Nat := le m nla 2

def nlaType (m : Mem) (nla : Nat) : Nat := le m (nla + 2) 2

/-- The loop of `scm_opt_stats_expect_eq` from an offset on; `true` is `ok`, `false` comes with a text or without. -/
def optStatsLoop (libc : LongAbs) (toleranceUs : Int32) (expected actual : Mem) (len : Nat) (index : Int) :
    Nat → Nat → Run (Except (Option String) Unit)
  | 0, _ => .error .outOfFuel
  | fuel + 1, offset =>
    if offset < len then
      if nlaType expected offset ≠ nlaType actual offset then
        .ok (.error (some s!"Bad nla_type {index}: expected={nlaType expected offset} actual={nlaType actual offset}"))
      else if nlaLen expected offset ≠ nlaLen actual offset then
        .ok (.error (some s!"Bad nla_len {index}: expected={nlaLen expected offset} actual={nlaLen actual offset}"))
      else match statKind (nlaType expected offset) with
        | none => .ok (.error none)
        | some kind =>
          let ev := le expected (offset + nlaHdrlen) kind.width
          let av := le actual (offset + nlaHdrlen) kind.width
          if statEq libc toleranceUs ev av kind then
            optStatsLoop libc toleranceUs expected actual len index fuel (offset + nlaAlign (nlaLen expected offset))
          else .ok (.error (some ("Bad " ++ tcpNlaNames.getD (nlaType expected offset) "" ++ s!": expected={ev} actual={av}")))
    else .ok (.ok ())

def scmOptStatsExpectEq (libc : LongAbs) (toleranceUs : Int32) (expected actual : Mem) (len : Nat) (index : Int) :
    Run (Except (Option String) Unit) :=
  optStatsLoop libc toleranceUs expected actual len index (len + 1) 0

theorem statKind_width {key : Nat} {kind : StatKind} (known : statKind key = some kind) : kind.width = tcpNla.getD key 0 := by
  unfold statKind at known
  split at known <;> cases known <;> rfl

theorem statKind_eq_none {key : Nat} (inside : key < tcpNla.length) : statKind key = none ↔ key = 0 := by
  have all : ∀ key < tcpNla.length, statKind key = none ↔ key = 0 := by decide
  exact all key inside

theorem Stat.Valid.read {stat : Stat} (valid : stat.Valid) (front rest : List UInt8) :
    nlaLen (Mem.ofList (front ++ (stat.bytes ++ rest))) front.length = nlaHdrlen + stat.width ∧
    nlaType (Mem.ofList (front ++ (stat.bytes ++ rest))) front.length = stat.key ∧
    le (Mem.ofList (front ++ (stat.bytes ++ rest))) (front.length + nlaHdrlen) stat.width = stat.stored := by
  have narrow : nlaHdrlen + stat.width < 256 ^ 2 := by
    have all : ∀ key < tcpNla.length, nlaHdrlen + tcpNla.getD key 0 < 256 ^ 2 := by decide
    exact all _ valid.key
  have small : stat.key < 256 ^ 2 := Nat.lt_trans valid.key (by decide)
  have len := le_leBytes front 2 (nlaHdrlen + stat.width) (leBytes 2 stat.key ++ (leBytes stat.width stat.val ++
    (List.replicate (nlaAlign (nlaHdrlen + stat.width) - (nlaHdrlen + stat.width)) 0 ++ rest)))
  have type := le_leBytes (front ++ leBytes 2 (nlaHdrlen + stat.width)) 2 stat.key (leBytes stat.width stat.val ++
    (List.replicate (nlaAlign (nlaHdrlen + stat.width) - (nlaHdrlen + stat.width)) 0 ++ rest))
  have value := le_leBytes (front ++ leBytes 2 (nlaHdrlen + stat.width) ++ leBytes 2 stat.key) stat.width stat.val
    (List.replicate (nlaAlign (nlaHdrlen + stat.width) - (nlaHdrlen + stat.width)) 0 ++ rest)
  rw [Nat.mod_eq_of_lt narrow] at len
  rw [Nat.mod_eq_of_lt small] at type
  simp only [List.length_append, leBytes_length, List.append_assoc] at len type value
  simp only [bytes, addNla, List.append_assoc]
  exact ⟨len, type, value⟩

structure Reading extends Stat where
  actual : Nat

def readings (actual : Mem) (offset : Nat) : List Stat → List Reading
  | [] => []
  | stat :: stats => ⟨stat, le actual (offset + nlaHdrlen) stat.width⟩ :: readings actual (offset + stat.bytes.length) stats

def Attributed (actual : Mem) (offset : Nat) : List Stat → Prop
  | [] => True
  | stat :: stats => nlaType actual offset = stat.key ∧ nlaLen actual offset = nlaHdrlen + stat.width ∧
      Attributed actual (offset + stat.bytes.length) stats

def Reading.Passes (libc : LongAbs) (toleranceUs : Int32) (r : Reading) : Prop :=
  ∃ kind, statKind r.key = some kind ∧ statEq libc toleranceUs r.stored r.actual kind = true

theorem optStatsLoop_step (libc : LongAbs) (toleranceUs : Int32) {stat : Stat} (valid : stat.Valid)
    {front : List UInt8} (rest : List UInt8) {len : Nat} (fuel : Nat) (index : Int) (inside : front.length < len)
    (type : nlaType actual front.length = stat.key) (length : nlaLen actual front.length = nlaHdrlen + stat.width) :
    (Reading.Passes libc toleranceUs ⟨stat, le actual (front.length + nlaHdrlen) stat.width⟩ ∧
      optStatsLoop libc toleranceUs (Mem.ofList (front ++ (stat.bytes ++ rest))) actual len index (fuel + 1) front.length =
        optStatsLoop libc toleranceUs (Mem.ofList (front ++ (stat.bytes ++ rest))) actual len index fuel
          (front ++ stat.bytes).length) ∨
    ¬Reading.Passes libc toleranceUs ⟨stat, le actual (front.length + nlaHdrlen) stat.width⟩ ∧
      ∃ e, optStatsLoop libc toleranceUs (Mem.ofList (front ++ (stat.bytes ++ rest))) actual len index (fuel + 1)
        front.length = .ok (.error e) := by
  obtain ⟨lenRead, typeRead, valueRead⟩ := valid.read front rest
  rw [optStatsLoop, if_pos inside, typeRead, type, lenRead, length, if_neg (not_not.mpr rfl), if_neg (not_not.mpr rfl)]
  cases known : statKind stat.key with
  | none =>
    refine .inr ⟨fun ⟨kind, found, _⟩ => ?_, none, rfl⟩
    cases known.symm.trans found
  | some kind =>
    have width : kind.width = stat.width := statKind_width known
    simp only [width, valueRead]
    by_cases passes : statEq libc toleranceUs stat.stored (le actual (front.length + nlaHdrlen) stat.width) kind = true
    · rw [if_pos passes, List.length_append, Stat.bytes_length]
      exact .inl ⟨⟨kind, known, passes⟩, rfl⟩
    · rw [if_neg passes]
      refine .inr ⟨fun ⟨kind', found, passed⟩ => ?_, _, rfl⟩
      cases known.symm.trans found
      exact passes passed

theorem optStatsLoop_run {libc : LongAbs} {index : Int} {stats : List Stat}
    (valid : ∀ stat ∈ stats, stat.Valid) (front : List UInt8) {fuel : Nat} (enough : stats.length < fuel)
    (same : Attributed actual front.length stats) :
    optStatsLoop libc toleranceUs (Mem.ofList (front ++ stats.flatMap Stat.bytes)) actual
        (front ++ stats.flatMap Stat.bytes).length index fuel front.length = .ok (.ok ()) ↔
      ∀ r ∈ readings actual front.length stats, r.Passes libc toleranceUs := by
  induction stats generalizing front fuel with
  | nil =>
    cases fuel with
    | zero => omega
    | succ fuel => simp [optStatsLoop, readings]
  | cons stat stats ih =>
    cases fuel with
    | zero => omega
    | succ fuel =>
      obtain ⟨type, length, later⟩ := same
      have long := stat.bytes_length
      have inside : front.length < (front ++ (stat :: stats).flatMap Stat.bytes).length := by
        rw [List.flatMap_cons, List.length_append, List.length_append, long, nlaAlign, nlaHdrlen]
        omega
      rw [readings, List.forall_mem_cons]
      rw [← List.length_append] at later ⊢
      have fewer : stats.length < fuel := by simpa using enough
      have rest := ih (fun s member => valid s (.tail _ member)) (front ++ stat.bytes) fewer later
      rw [List.append_assoc] at rest
      rcases optStatsLoop_step libc toleranceUs (valid stat (.head _)) (stats.flatMap Stat.bytes) fuel index inside type
        length with ⟨passes, continues⟩ | ⟨fails, e, stops⟩
      · rw [List.flatMap_cons] at continues ⊢
        rw [continues, rest]
        exact ⟨fun all => ⟨passes, all⟩, fun all => all.2⟩
      · rw [List.flatMap_cons] at stops ⊢
        rw [stops]
        exact iff_of_false (by simp) fun all => fails all.1

namespace Reading

def distance (r : Reading) (num : Int) : Nat := ((sizeT num : Int) - r.actual).natAbs

/-- A value that was written as a number is met: exactly, or for a time other than zero within the tolerance. -/
def Matches (toleranceUs : Int32) (r : Reading) : Prop :=
  ∀ num, r.value = some num →
    if statKind r.key = some .time ∧ sizeT num ≠ 0 then (r.distance num : Int) ≤ toleranceUs.toInt
    else r.actual = sizeT num

/-- A number that is not compared: it has all bits set like an ellipsis, or the difference to the
actual value leaves the range of 64-bit numbers. -/
def Unseen (libc : LongAbs) (toleranceUs : Int32) (r : Reading) (num : Int) : Prop :=
  match statKind r.key with
  | none => False
  | some .u8 => sizeT num = 2 ^ 8 - 1
  | some .u32 | some .u64 => sizeT num = 2 ^ 32 - 1
  | some .time => sizeT num = 2 ^ 32 - 1 ∨ sizeT num ≠ 0 ∧
      (2 ^ 64 ≤ r.distance num + toleranceUs.toInt ∨ r.distance num = 2 ^ 63 ∧ libc.llabs (-2 ^ 63) ≤ toleranceUs.toInt)

def Overlooked (libc : LongAbs) (toleranceUs : Int32) (r : Reading) : Prop :=
  ¬r.Matches toleranceUs ∧ ∃ num, r.value = some num ∧ r.Unseen libc toleranceUs num

end Reading

theorem llabs_le_iff (libc : LongAbs) (toleranceUs : Int32) {ev av : Nat} (expected : ev < 2 ^ 64) (actual : av < 2 ^ 64) :
    libc.llabs (((ev : Int) - av).bmod (2 ^ 64)) ≤ toleranceUs.toInt ↔
      (((ev : Int) - av).natAbs : Int) ≤ toleranceUs.toInt ∨
      2 ^ 64 ≤ (((ev : Int) - av).natAbs : Int) + toleranceUs.toInt ∨
      ((ev : Int) - av).natAbs = 2 ^ 63 ∧ libc.llabs (-2 ^ 63) ≤ toleranceUs.toInt := by
  have upper := toleranceUs.toInt_lt
  have lower := toleranceUs.le_toInt
  have difference : -2 ^ 64 < (ev : Int) - av ∧ (ev : Int) - av < 2 ^ 64 := by omega
  generalize (ev : Int) - av = d at difference ⊢
  have wraps : -2 ^ 63 ≤ d.bmod (2 ^ 64) ∧ d.bmod (2 ^ 64) < 2 ^ 63 ∧
      (d.bmod (2 ^ 64) = d ∨ d.bmod (2 ^ 64) = d - 2 ^ 64 ∨ d.bmod (2 ^ 64) = d + 2 ^ 64) := by
    rw [Int.bmod_def]
    split <;> omega
  generalize d.bmod (2 ^ 64) = w at wraps ⊢
  obtain ⟨least, below, from_d⟩ := wraps
  -- the least number has no absolute value of 64 bits
  by_cases minimal : w = -2 ^ 63
  · subst minimal
    have far : d.natAbs = 2 ^ 63 := by omega
    rw [far]
    constructor
    · exact fun passes => .inr (.inr ⟨rfl, passes⟩)
    · rintro (near | wrapped | ⟨-, passes⟩)
      · omega
      · omega
      · exact passes
  · rw [libc.abs w (by omega) below]
    omega

theorem Stat.Valid.stored_number {stat : Stat} (valid : stat.Valid) (number : stat.value = some num) :
    stat.stored = sizeT num := by
  have below : sizeT num < 2 ^ 64 := by unfold sizeT; omega
  rw [Stat.stored, Stat.val, number]
  change sizeT num % 256 ^ stat.width = sizeT num
  apply Nat.mod_eq_of_lt
  by_cases narrow : stat.width < 8
  · obtain ⟨positive, small⟩ := valid.range num number narrow
    have most : (256 : Nat) ^ stat.width ≤ 256 ^ 8 := Nat.pow_le_pow_right (by decide) (by omega)
    have cast : ((256 ^ stat.width : Nat) : Int) = 256 ^ stat.width := by push_cast; rfl
    unfold sizeT
    omega
  · exact Nat.lt_of_lt_of_le below (Nat.pow_le_pow_right (by decide) (by omega) : (256 : Nat) ^ 8 ≤ 256 ^ stat.width)

theorem Reading.ellipsis_passes {libc : LongAbs} {r : Reading} {kind : StatKind}
    (known : statKind r.key = some kind) (any : r.value = none) : statEq libc toleranceUs r.stored r.actual kind = true := by
  have width : r.width = kind.width := (statKind_width known).symm
  rw [Stat.stored, Stat.val, any, width]
  cases kind <;> simp [statEq, StatKind.width, optNlaIgnoreVal]

theorem Reading.number_passes {libc : LongAbs} {r : Reading} {kind : StatKind}
    (known : statKind r.key = some kind) (number : r.value = some num) (actual : r.actual < 256 ^ r.width) :
    statEq libc toleranceUs (sizeT num) r.actual kind = true ↔
      r.Matches toleranceUs ∨ r.Unseen libc toleranceUs num := by
  have width : r.width = kind.width := (statKind_width known).symm
  have matching : r.Matches toleranceUs ↔ if statKind r.key = some .time ∧ sizeT num ≠ 0 then
      (r.distance num : Int) ≤ toleranceUs.toInt else r.actual = sizeT num := by
    unfold Matches
    rw [number]
    simp
  rw [matching, Unseen, known]
  rw [width] at actual
  cases kind with
  | time =>
    have below : sizeT num < 2 ^ 64 := by unfold sizeT; omega
    have wraps := llabs_le_iff libc toleranceUs below actual
    by_cases ignored : sizeT num = optNlaIgnoreVal
    · simp [statEq, ignored, optNlaIgnoreVal]
    by_cases zero : sizeT num = 0
    · simp [statEq, zero, optNlaIgnoreVal]
    · have all : ¬sizeT num = 2 ^ 32 - 1 := ignored
      simp only [statEq, if_neg ignored, ne_eq, zero, not_false_eq_true, if_true, decide_eq_true_eq, and_self, all, true_and,
        false_or, wraps, distance]
  | u64 =>
    rw [if_neg (by simp), eq_comm (a := r.actual)]
    exact decide_eq_true_iff
  | u32 =>
    rw [if_neg (by simp), eq_comm (a := r.actual)]
    exact decide_eq_true_iff
  | u8 =>
    rw [if_neg (by simp), eq_comm (a := r.actual)]
    exact decide_eq_true_iff

theorem Reading.passes_iff {libc : LongAbs} {r : Reading} (valid : r.Valid)
    (actual : r.actual < 256 ^ r.width) :
    r.Passes libc toleranceUs ↔ r.key ≠ 0 ∧ (r.Matches toleranceUs ∨ r.Overlooked libc toleranceUs) := by
  have unknown := statKind_eq_none valid.key
  cases known : statKind r.key with
  | none =>
    rw [known] at unknown
    refine iff_of_false (fun ⟨kind, found, _⟩ => ?_) fun passes => passes.1 (unknown.mp rfl)
    cases known.symm.trans found
  | some kind =>
    have named : r.key ≠ 0 := fun zero => by
      cases known.symm.trans (unknown.mpr zero)
    have compared : r.Passes libc toleranceUs ↔ statEq libc toleranceUs r.stored r.actual kind = true := by
      unfold Passes
      rw [known]
      simp
    rw [compared]
    cases value : r.value with
    | none =>
      refine iff_of_true (ellipsis_passes known value) ⟨named, .inl fun num number => ?_⟩
      cases value.symm.trans number
    | some num =>
      rw [valid.stored_number value, number_passes known value actual]
      constructor
      · rintro (met | unseen)
        · exact ⟨named, .inl met⟩
        · by_cases met : r.Matches toleranceUs
          · exact ⟨named, .inl met⟩
          · exact ⟨named, .inr ⟨met, num, value, unseen⟩⟩
      · rintro ⟨-, met | ⟨-, other, same, unseen⟩⟩
        · exact .inl met
        · cases value.symm.trans same
          exact .inr unseen

theorem readings_mem {stats : List Stat} {offset : Nat} :
    ∀ r ∈ readings actual offset stats, r.toStat ∈ stats ∧ r.actual < 256 ^ r.width := by
  induction stats generalizing offset with
  | nil => nofun
  | cons stat stats ih =>
    rw [readings, List.forall_mem_cons]
    exact ⟨⟨.head _, le_lt _ _ _⟩, fun r member => ⟨.tail _ (ih r member).1, (ih r member).2⟩⟩

theorem length_le_bytes (stats : List Stat) : stats.length ≤ (stats.flatMap Stat.bytes).length := by
  induction stats with
  | nil => exact Nat.le_refl 0
  | cons stat stats ih =>
    have long := stat.bytes_length
    rw [List.flatMap_cons, List.length_append, List.length_cons, long, nlaAlign, nlaHdrlen]
    omega

/-- The readings for which the verdict is right: `TCP_NLA_PAD`, which never passes, is not among
readings that all match, and no mismatch is overlooked where everything else passes. -/
structure Comparable (libc : LongAbs) (toleranceUs : Int32) (rs : List Reading) : Prop where
  padding : (∀ r ∈ rs, r.Matches toleranceUs) → ∀ r ∈ rs, r.key ≠ 0
  seen : (∀ r ∈ rs, r.key ≠ 0 ∧ (r.Matches toleranceUs ∨ r.Overlooked libc toleranceUs)) →
    ∀ r ∈ rs, ¬r.Overlooked libc toleranceUs

/-- The verdict on the statistics of a control message is exact when they are comparable, and only then. -/
theorem opt_stats_exact_iff (libc : LongAbs) (toleranceUs : Int32) (index : Int) {list : List Expression} {bytes : List UInt8}
    {s s' : Session} (accepted : (expectedStats list).run.run s = .ok (.ok bytes, s')) {actual : Mem}
    (same : Attributed actual 0 (Stat.ofList list)) :
    (scmOptStatsExpectEq libc toleranceUs (Mem.ofList bytes) actual bytes.length index = .ok (.ok ()) ↔
      ∀ r ∈ readings actual 0 (Stat.ofList list), r.Matches toleranceUs) ↔
    Comparable libc toleranceUs (readings actual 0 (Stat.ofList list)) := by
  obtain ⟨valid, rfl⟩ := expectedStats_ok accepted
  have enough : (Stat.ofList list).length < ((Stat.ofList list).flatMap Stat.bytes).length + 1 :=
    Nat.lt_succ_of_le (length_le_bytes _)
  have verdict : scmOptStatsExpectEq libc toleranceUs (Mem.ofList ((Stat.ofList list).flatMap Stat.bytes)) actual
      ((Stat.ofList list).flatMap Stat.bytes).length index = .ok (.ok ()) ↔
      ∀ r ∈ readings actual 0 (Stat.ofList list), r.Passes libc toleranceUs :=
    optStatsLoop_run valid [] enough same
  have passes : ∀ r ∈ readings actual 0 (Stat.ofList list), r.Passes libc toleranceUs ↔
      r.key ≠ 0 ∧ (r.Matches toleranceUs ∨ r.Overlooked libc toleranceUs) := fun r member =>
    Reading.passes_iff (valid _ (readings_mem r member).1) (readings_mem r member).2
  rw [verdict, forall₂_congr passes]
  constructor
  · intro exact
    refine ⟨fun all r member => (exact.mpr all r member).1, fun all r member overlooked => ?_⟩
    exact overlooked.1 (exact.mp all r member)
  · intro comparable
    refine ⟨fun all r member => ?_, fun all r member => ⟨comparable.padding all r member, .inl (all r member)⟩⟩
    exact (all r member).2.resolve_right (comparable.seen all r member)

def LongAbs.int : LongAbs := ⟨fun n => n.natAbs, fun _ _ _ => rfl⟩

def idle : Session := ⟨[], 0, []⟩

theorem opt_stats_exact_cwnd :
    (expectedStats [.binary "=" (.integer 8) (.integer 10)]).run.run idle = .ok (.ok [8, 0, 8, 0, 10, 0, 0, 0], idle) ∧
    Attributed (Mem.ofList [8, 0, 8, 0, 9, 0, 0, 0]) 0 [⟨8, some 10⟩] ∧
    (scmOptStatsExpectEq .int 4000 (Mem.ofList [8, 0, 8, 0, 10, 0, 0, 0]) (Mem.ofList [8, 0, 8, 0, 9, 0, 0, 0]) 8 0 =
        .ok (.ok ()) ↔
      ∀ r ∈ readings (Mem.ofList [8, 0, 8, 0, 9, 0, 0, 0]) 0 [⟨8, some 10⟩], r.Matches 4000) := by
  refine ⟨rfl, ⟨rfl, rfl, trivial⟩, ?_⟩
  refine (opt_stats_exact_iff .int 4000 0 (s := idle) (show (expectedStats [.binary "=" (.integer 8)
    (.integer 10)]).run.run idle = .ok (.ok [8, 0, 8, 0, 10, 0, 0, 0], idle) from rfl) ⟨rfl, rfl, trivial⟩).mpr ⟨fun _ r member => ?_, fun _ r member overlooked => ?_⟩
  · cases List.mem_singleton.mp member
    exact Nat.succ_ne_zero 7
  · cases List.mem_singleton.mp member
    obtain ⟨-, num, number, unseen⟩ := overlooked
    cases number
    exact absurd unseen (by decide : ¬sizeT 10 = 2 ^ 32 - 1)

/-- The expectation `TCP_NLA_CA_STATE = 255` is met by any state, `TCP_NLA_PACING_RATE = 4294967295`
by any rate, and `TCP_NLA_PAD = 5` not even by 5. -/
theorem opt_stats_inexact :
    (expectedStats [.binary "=" (.integer 14) (.integer 255)]).run.run idle = .ok (.ok [5, 0, 14, 0, 255, 0, 0, 0], idle) ∧
    scmOptStatsExpectEq .int 4000 (Mem.ofList [5, 0, 14, 0, 255, 0, 0, 0]) (Mem.ofList [5, 0, 14, 0, 3, 0, 0, 0]) 8 0 =
      .ok (.ok ()) ∧
    (expectedStats [.binary "=" (.integer 6) (.integer 4294967295)]).run.run idle =
      .ok (.ok [12, 0, 6, 0, 255, 255, 255, 255, 0, 0, 0, 0], idle) ∧
    scmOptStatsExpectEq .int 4000 (Mem.ofList [12, 0, 6, 0, 255, 255, 255, 255, 0, 0, 0, 0])
      (Mem.ofList [12, 0, 6, 0, 1, 0, 0, 0, 0, 0, 0, 0]) 12 0 = .ok (.ok ()) ∧
    (expectedStats [.binary "=" (.integer 0) (.integer 5)]).run.run idle = .ok (.ok [8, 0, 0, 0, 5, 0, 0, 0], idle) ∧
    scmOptStatsExpectEq .int 4000 (Mem.ofList [8, 0, 0, 0, 5, 0, 0, 0]) (Mem.ofList [8, 0, 0, 0, 5, 0, 0, 0]) 8 0 =
      .ok (.error none) :=
  ⟨rfl, rfl, rfl, rfl, rfl, rfl⟩

end TcpFuzz.Syscall
