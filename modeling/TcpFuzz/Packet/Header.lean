import Mathlib.Data.List.GetD
import TcpFuzz.Lib.Bytes

/-! The packet record of `packet.h` and its header table. Pointers into the buffer are offsets; a null pointer is
`none`. -/

namespace TcpFuzz
open Bytes

/-- How a modelled function can fail to return. -/
inductive Fault where
  | assertion
  | invalidAccess
  | outOfFuel
deriving DecidableEq, Repr

/-- A computation that may stop the process. -/
abbrev Run := Except Fault

def assertThat (condition : Prop) [Decidable condition] : Run Unit :=
  if condition then .ok () else .error .assertion

@[simp] theorem ok_bind {α β : Type} (a : α) (f : α → Run β) : (Except.ok a >>= f) = f a := rfl

@[simp] theorem error_bind {α β : Type} (e : Fault) (f : α → Run β) :
    ((Except.error e : Run α) >>= f) = .error e := rfl

@[simp] theorem run_pure {α : Type} (a : α) : (pure a : Run α) = .ok a := rfl

@[simp] theorem bind_ok_pair {α β : Type} (run : Run (α × β)) :
    (run >>= fun r => .ok (r.1, r.2)) = run := by
  cases run <;> rfl

theorem run_bind_ok {α β : Type} {run : Run α} {f : α → Run β} {b : β} (returned : (run >>= f) = .ok b) :
    ∃ a, run = .ok a ∧ f a = .ok b := by
  cases run with
  | error fault => cases returned
  | ok a => exact ⟨a, rfl, returned⟩

theorem assertThat_ok {condition : Prop} [Decidable condition] (holds : condition) :
    assertThat condition = .ok () := if_pos holds

theorem eq_ok_of_toOption {ε α : Type} {x : Except ε α} {a : α} (some : x.toOption = some a) : x = .ok a := by
  cases x <;> cases some
  rfl

theorem ok_of_toOption {α β : Type} {run : Run α} {f : α → β} {b : β}
    (evaluated : run.toOption.map f = some b) : ∃ a, run = .ok a ∧ f a = b := by
  cases run with
  | error => cases evaluated
  | ok a => exact ⟨a, rfl, Option.some.inj evaluated⟩

/-- A check that may report an error, or stop the process. -/
abbrev Check := ExceptT String Run

theorem Check.bind_passed {α β : Type} {check : Check α} {f : α → Check β} {b : β}
    (passed : (check >>= f) = (pure b : Check β)) : ∃ a, check = (pure a : Check α) ∧ f a = (pure b : Check β) := by
  have unfolded : (check.run >>= ExceptT.bindCont f) = (.ok (.ok b) : Run (Except String β)) := passed
  cases run : check.run with
  | error fault => rw [run] at unfolded; cases unfolded
  | ok result =>
    rw [run, ok_bind] at unfolded
    cases result with
    | error e => cases unfolded
    | ok a => exact ⟨a, run, unfolded⟩

theorem Check.passed_of_eval {check : Check Unit} (evaluated : check.run.toOption.bind Except.toOption = some ()) :
    check = pure () := by
  obtain ⟨result, returned, passed⟩ := Option.bind_eq_some_iff.mp evaluated
  have found := eq_ok_of_toOption returned
  rw [eq_ok_of_toOption passed] at found
  exact found

def u32 (n : Int) : Nat := (n % 2 ^ 32).toNat

inductive HeaderType where
  | none | ipv4 | ipv6 | gre | mpls | tcp | udp | icmpv4 | icmpv6
deriving DecidableEq, Repr

namespace HeaderType

def ipProto : HeaderType → Nat
  | .none => 0
  | .ipv4 => 4
  | .ipv6 => 41
  | .gre => 47
  | .mpls => 0
  | .tcp => 6
  | .udp => 17
  | .icmpv4 => 1
  | .icmpv6 => 58

def ethProto : HeaderType → Nat
  | .ipv4 => 0x0800
  | .ipv6 => 0x86dd
  | .mpls => 0x8847
  | _ => 0

def IsIp (t : HeaderType) : Prop := t = .ipv4 ∨ t = .ipv6

instance (t : HeaderType) : Decidable t.IsIp := inferInstanceAs (Decidable (_ ∨ _))

def IsTransport (t : HeaderType) : Prop := t = .tcp ∨ t = .udp ∨ t = .icmpv4 ∨ t = .icmpv6

instance (t : HeaderType) : Decidable t.IsTransport := inferInstanceAs (Decidable (_ ∨ _))

end HeaderType

structure Header where
  type : HeaderType
  headerBytes : Nat
  totalBytes : Nat
  ptr : Option Nat
deriving DecidableEq, Repr

/-- A zeroed entry, as `calloc` leaves it. -/
def Header.unused : Header := ⟨.none, 0, 0, none⟩

@[simp] theorem Header.unused_type : Header.unused.type = .none := rfl

inductive Direction where
  | invalid | inbound | outbound
deriving DecidableEq, Repr

inductive TosChk where
  | none | ecn | tos
deriving DecidableEq, Repr

structure PacketFlags where
  winNocheck : Bool := false
  optionsNocheck : Bool := false
deriving DecidableEq, Repr

def packetMaxHeaders : Nat := 6

structure Packet where
  buffer : Mem
  bufferBytes : Nat
  l2HeaderBytes : Nat := 0
  ipBytes : Nat := 0
  direction : Direction := .invalid
  headers : Vector Header packetMaxHeaders := Vector.replicate packetMaxHeaders Header.unused
  ipv4 : Option Nat := none
  ipv6 : Option Nat := none
  tcp : Option Nat := none
  udp : Option Nat := none
  icmpv4 : Option Nat := none
  icmpv6 : Option Nat := none
  echoedHeader : Bool := false
  timeUsecs : Int := 0
  flags : PacketFlags := {}
  tosChk : TosChk := .none
  tcpTsVal : Option Nat := none
  tcpTsEcr : Option Nat := none

/-- The record is zeroed; the buffer keeps whatever bytes the allocator returns. -/
def packetNew (allocated : Mem) (bufferBytes : Nat) : Packet :=
  { buffer := allocated, bufferBytes }

def packetHeaderCount (p : Packet) : Nat :=
  p.headers.toList.findIdx fun h => h.type = .none

def updateHeader (p : Packet) (i : Nat) (f : Header → Header) : Packet :=
  { p with headers := p.headers.mapIdx fun j h => if j = i then f h else h }

def packetAppendHeader (p : Packet) (type : HeaderType) (headerBytes : Nat) :
    Run (Option (Packet × Nat)) := do
  let numHeaders := packetHeaderCount p
  assertThat (numHeaders ≤ packetMaxHeaders)
  if numHeaders = packetMaxHeaders then
    return none
  if p.bufferBytes < p.ipBytes + headerBytes then
    return none
  let packetBytes := p.l2HeaderBytes + p.ipBytes
  let p := updateHeader p numHeaders fun _ => ⟨type, headerBytes, 0, some packetBytes⟩
  return some ({ p with ipBytes := p.ipBytes + headerBytes }, numHeaders)

def setTotalBytes (p : Packet) (i total : Nat) : Packet :=
  updateHeader p i fun h => { h with totalBytes := total }

/-- The table holds the headers `hs` in order and nothing after them. -/
structure Layout (p : Packet) (hs : List Header) : Prop where
  table : p.headers.toList = hs ++ List.replicate (packetMaxHeaders - hs.length) Header.unused
  used : ∀ h ∈ hs, h.type ≠ .none

theorem Layout.length_le {p : Packet} {hs : List Header} (layout : Layout p hs) :
    hs.length ≤ packetMaxHeaders := by
  have size := congrArg List.length layout.table
  simp only [Vector.length_toList, List.length_append, List.length_replicate] at size
  omega

theorem getD_append_replicate {α : Type} (xs : List α) (n i : Nat) (a : α) :
    (xs ++ List.replicate n a).getD i a = xs.getD i a := by
  by_cases inside : i < xs.length
  · rw [List.getD_append _ _ _ _ inside]
  · rw [List.getD_append_right _ _ _ _ (by omega), List.getD_eq_default xs a (by omega)]
    by_cases filled : i - xs.length < n
    · rw [List.getD_eq_getElem _ _ (by simpa using filled), List.getElem_replicate]
    · rw [List.getD_eq_default _ _ (by simpa using filled)]

theorem Layout.get {p : Packet} {hs : List Header} (layout : Layout p hs) (i : Fin packetMaxHeaders) :
    p.headers.get i = hs.getD i .unused := by
  rw [← getD_append_replicate hs (packetMaxHeaders - hs.length), ← layout.table,
    List.getD_eq_getElem _ _ (by simp)]
  rfl

theorem Layout.of_get {p : Packet} {hs : List Header} (length : hs.length ≤ packetMaxHeaders)
    (used : ∀ h ∈ hs, h.type ≠ .none) (get : ∀ i : Fin packetMaxHeaders, p.headers.get i = hs.getD i .unused) :
    Layout p hs where
  table := by
    apply List.ext_getElem
    · simp only [Vector.length_toList, List.length_append, List.length_replicate]
      omega
    · intro i inside inside'
      have entry := get ⟨i, by simpa using inside⟩
      rw [← getD_append_replicate hs (packetMaxHeaders - hs.length), List.getD_eq_getElem _ _ inside'] at entry
      exact entry
  used := used

theorem packetNew_layout (allocated : Mem) (n : Nat) : Layout (packetNew allocated n) [] where
  table := by simp [packetNew]
  used := by simp

theorem findIdx_append_replicate {hs : List Header} (n : Nat) (used : ∀ h ∈ hs, h.type ≠ .none) :
    (hs ++ List.replicate n Header.unused).findIdx (fun h => h.type = .none) = hs.length := by
  induction hs with
  | nil => cases n <;> simp [List.replicate_succ, List.findIdx_cons]
  | cons h hs ih =>
    have here : h.type ≠ .none := used h List.mem_cons_self
    have rest := ih fun x member => used x (List.mem_cons_of_mem h member)
    simp [List.findIdx_cons, here, rest]

theorem Layout.count {p : Packet} {hs : List Header} (layout : Layout p hs) :
    packetHeaderCount p = hs.length := by
  unfold packetHeaderCount
  rw [layout.table, findIdx_append_replicate _ layout.used]

theorem mapIdx_at_length {α : Type} (xs : List α) (y : α) (ys : List α) (f : α → α) :
    (xs ++ y :: ys).mapIdx (fun j h => if j = xs.length then f h else h) = xs ++ f y :: ys := by
  induction xs with
  | nil =>
    have rest : ys.mapIdx (fun _ h => h) = ys := List.ext_getElem (by simp) (by simp)
    rw [List.nil_append, List.mapIdx_cons]
    simpa using rest
  | cons x xs ih =>
    rw [List.cons_append, List.mapIdx_cons]
    simpa using ih

def appended (p : Packet) (type : HeaderType) (headerBytes total : Nat) : Packet :=
  { updateHeader p (packetHeaderCount p) fun _ =>
      ⟨type, headerBytes, total, some (p.l2HeaderBytes + p.ipBytes)⟩ with
    ipBytes := p.ipBytes + headerBytes }

theorem Layout.append {p : Packet} {hs : List Header} (layout : Layout p hs)
    (room : hs.length < packetMaxHeaders) {type : HeaderType} (used : type ≠ .none)
    (headerBytes total : Nat) :
    Layout (appended p type headerBytes total)
      (hs ++ [⟨type, headerBytes, total, some (p.l2HeaderBytes + p.ipBytes)⟩]) where
  table := by
    obtain ⟨free, count⟩ : ∃ k, packetMaxHeaders - hs.length = k + 1 :=
      ⟨packetMaxHeaders - hs.length - 1, by omega⟩
    simp only [appended, updateHeader, Vector.toList_mapIdx, layout.table, layout.count, count,
      List.replicate_succ, mapIdx_at_length]
    rw [List.length_append, List.length_singleton,
      show packetMaxHeaders - (hs.length + 1) = free by omega, List.append_assoc, List.singleton_append]
  used := by
    intro h member
    rcases List.mem_append.mp member with old | new
    · exact layout.used h old
    · rw [List.mem_singleton.mp new]
      exact used

theorem packetAppendHeader_eq {p : Packet} {hs : List Header} (layout : Layout p hs)
    (type : HeaderType) (headerBytes : Nat) :
    packetAppendHeader p type headerBytes =
      .ok (if hs.length = packetMaxHeaders ∨ p.bufferBytes < p.ipBytes + headerBytes then none
        else some (appended p type headerBytes 0, hs.length)) := by
  simp only [packetAppendHeader, layout.count, assertThat_ok layout.length_le, ok_bind, run_pure]
  by_cases full : hs.length = packetMaxHeaders
  · simp [full]
  · by_cases big : p.bufferBytes < p.ipBytes + headerBytes
    · simp [full, big]
    · simp [full, big, appended, layout.count, updateHeader]

theorem setTotalBytes_appended (p : Packet) (type : HeaderType) (headerBytes total : Nat) :
    setTotalBytes (appended p type headerBytes 0) (packetHeaderCount p) total =
      appended p type headerBytes total := by
  simp only [setTotalBytes, appended, updateHeader, Vector.mapIdx_mapIdx]
  congr 2
  funext j h
  by_cases here : j = packetHeaderCount p <;> simp [here]

end TcpFuzz
