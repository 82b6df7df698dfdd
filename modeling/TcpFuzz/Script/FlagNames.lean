import Mathlib.Data.List.Basic
import TcpFuzz.Packet.Header

/-! `flags_to_string` of `script.c`. The search in a table runs until it meets an entry without a name; the table of
the `poll()` flags ends with an entry whose name is empty. -/

namespace TcpFuzz

structure FlagName where
  flag : BitVec 64
  name : Option String
deriving DecidableEq, Repr

def flagName : List FlagName → BitVec 64 → Run String
  | [], _ => .error .invalidAccess
  | entry :: entries, flag =>
    match entry.name with
    | some name => if entry.flag ≠ flag then flagName entries flag else .ok name
    | none => if entry.flag = flag then .error .invalidAccess else .ok "???"

def appendFlag (out name : String) : String := out ++ (if out ≠ "" then "|" else "") ++ name

def flagsLoop (flagsArray : List FlagName) (flags : BitVec 64) : Nat → BitVec 64 → String → Run String
  | 0, _, out => .ok out
  | n + 1, bitMask, out =>
    if flags &&& bitMask ≠ 0 then
      flagName flagsArray bitMask >>= fun name => flagsLoop flagsArray flags n (bitMask <<< 1) (appendFlag out name)
    else flagsLoop flagsArray flags n (bitMask <<< 1) out

def flagsToString (flagsArray : List FlagName) (flags : BitVec 64) : Run String := flagsLoop flagsArray flags 64 1 ""

/-- The macros of `poll.h`, some of which a platform may not have. -/
structure PollMacros where
  pollin : BitVec 64
  pollpri : BitVec 64
  pollout : BitVec 64
  pollrdnorm : Option (BitVec 64)
  pollrdband : Option (BitVec 64)
  pollwrnorm : Option (BitVec 64)
  pollwrband : Option (BitVec 64)
  pollmsg : Option (BitVec 64)
  pollremove : Option (BitVec 64)
  pollrdhup : Option (BitVec 64)
  pollinigneof : Option (BitVec 64)
  pollerr : BitVec 64
  pollhup : BitVec 64
  pollnval : BitVec 64

def namedFlag (name : String) (flag : BitVec 64) : FlagName := ⟨flag, some name⟩

def optionalFlag (name : String) (flag : Option (BitVec 64)) : List FlagName := (flag.map (namedFlag name)).toList

def pollNames (m : PollMacros) : List FlagName :=
  [namedFlag "POLLIN" m.pollin, namedFlag "POLLPRI" m.pollpri, namedFlag "POLLOUT" m.pollout] ++
    optionalFlag "POLLRDNORM" m.pollrdnorm ++ optionalFlag "POLLRDBAND" m.pollrdband ++
    optionalFlag "POLLWRNORM" m.pollwrnorm ++ optionalFlag "POLLWRBAND" m.pollwrband ++
    optionalFlag "POLLMSG" m.pollmsg ++ optionalFlag "POLLREMOVE" m.pollremove ++
    optionalFlag "POLLRDHUP" m.pollrdhup ++ optionalFlag "POLLINIGNEOF" m.pollinigneof ++
    [namedFlag "POLLERR" m.pollerr, namedFlag "POLLHUP" m.pollhup, namedFlag "POLLNVAL" m.pollnval]

def pollFlags (m : PollMacros) : List FlagName := pollNames m ++ [⟨0, some ""⟩]

def nameOf (flagsArray : List FlagName) (flag : BitVec 64) : Option String :=
  (flagsArray.find? (·.flag = flag)).bind (·.name)

theorem flagName_eq {flagsArray : List FlagName} (named : ∀ entry ∈ flagsArray, entry.name.isSome) (flag : BitVec 64) :
    flagName flagsArray flag = (nameOf flagsArray flag).elim (.error .invalidAccess) .ok := by
  induction flagsArray with
  | nil => rfl
  | cons entry entries ih =>
    obtain ⟨name, at_name⟩ := Option.isSome_iff_exists.mp (named entry (.head _))
    rw [flagName, at_name, nameOf]
    by_cases this : entry.flag = flag
    · rw [List.find?_cons_of_pos (by simpa using this)]
      simp [this, at_name]
    · rw [List.find?_cons_of_neg (by simpa using this)]
      simp only [ne_eq, this, not_false_eq_true, if_true]
      exact ih fun e at_e => named e (.tail _ at_e)

theorem nameOf_isSome {flagsArray : List FlagName} (named : ∀ entry ∈ flagsArray, entry.name.isSome)
    (flag : BitVec 64) : (nameOf flagsArray flag).isSome ↔ ∃ entry ∈ flagsArray, entry.flag = flag := by
  constructor
  · intro found
    obtain ⟨name, at_name⟩ := Option.isSome_iff_exists.mp found
    obtain ⟨entry, at_entry, -⟩ := Option.bind_eq_some_iff.mp at_name
    exact ⟨entry, List.mem_of_find?_eq_some at_entry, by simpa using List.find?_some at_entry⟩
  · rintro ⟨entry, at_entry, same⟩
    have found : (flagsArray.find? (·.flag = flag)).isSome := List.find?_isSome.mpr ⟨entry, at_entry, by simpa using same⟩
    obtain ⟨e, at_e⟩ := Option.isSome_iff_exists.mp found
    rw [nameOf, at_e]
    exact named e (List.mem_of_find?_eq_some at_e)

def setBits (flags : BitVec 64) (k n : Nat) : List Nat := (List.range' k n).filter (flags.getLsbD ·)

def nameOrUnknown (flagsArray : List FlagName) (bit : Nat) : String :=
  (nameOf flagsArray (BitVec.twoPow 64 bit)).getD "???"

theorem twoPow_shift (k : Nat) : BitVec.twoPow 64 k <<< 1 = BitVec.twoPow 64 (k + 1) := by
  rw [BitVec.twoPow, BitVec.twoPow, ← BitVec.shiftLeft_add]

theorem twoPow_ne_zero {k : Nat} (inside : k < 64) : BitVec.twoPow 64 k ≠ 0#64 := by
  intro zero
  have bit := congrArg (·.getLsbD k) zero
  simp [inside] at bit

theorem and_twoPow_ne_zero (flags : BitVec 64) {k : Nat} (inside : k < 64) :
    flags &&& BitVec.twoPow 64 k ≠ 0 ↔ flags.getLsbD k := by
  rw [BitVec.and_twoPow]
  cases flags.getLsbD k <;> simp [twoPow_ne_zero inside]

theorem setBits_succ (flags : BitVec 64) (k n : Nat) :
    setBits flags k (n + 1) = if flags.getLsbD k then k :: setBits flags (k + 1) n else setBits flags (k + 1) n := by
  rw [setBits, List.range'_succ, List.filter_cons, setBits]

theorem flagsLoop_eq {flagsArray : List FlagName} (named : ∀ entry ∈ flagsArray, entry.name.isSome) (flags : BitVec 64)
    (n k : Nat) (all : k + n ≤ 64) (out : String) :
    flagsLoop flagsArray flags n (BitVec.twoPow 64 k) out =
      if ∀ bit ∈ setBits flags k n, ∃ entry ∈ flagsArray, entry.flag = BitVec.twoPow 64 bit then
        .ok (((setBits flags k n).map (nameOrUnknown flagsArray)).foldl appendFlag out)
      else .error .invalidAccess := by
  induction n generalizing k out with
  | zero => simp [flagsLoop, setBits]
  | succ n ih =>
    rw [flagsLoop, twoPow_shift, setBits_succ]
    have rest := ih (k + 1) (by omega)
    by_cases set : flags.getLsbD k
    · rw [if_pos ((and_twoPow_ne_zero flags (by omega)).mpr set), if_pos set, flagName_eq named]
      by_cases known : ∃ entry ∈ flagsArray, entry.flag = BitVec.twoPow 64 k
      · obtain ⟨name, at_name⟩ := Option.isSome_iff_exists.mp ((nameOf_isSome named _).mpr known)
        have text : nameOrUnknown flagsArray k = name := by rw [nameOrUnknown, at_name, Option.getD_some]
        rw [at_name, Option.elim_some, ok_bind, rest, List.map_cons, List.foldl_cons, text]
        simp only [List.forall_mem_cons, known, true_and]
      · have missing : nameOf flagsArray (BitVec.twoPow 64 k) = none := by
          rw [← Option.not_isSome_iff_eq_none, nameOf_isSome named]
          exact known
        rw [missing, if_neg fun every => known (every k (.head _))]
        rfl
    · rw [if_neg fun masked => set ((and_twoPow_ne_zero flags (by omega)).mp masked), if_neg set, rest]

theorem append_ne_empty {s : String} (t : String) (nonempty : s ≠ "") : s ++ t ≠ "" := by
  intro empty
  exact nonempty (String.append_eq_empty_iff.mp empty).1

theorem foldl_appendFlag {out : String} (nonempty : out ≠ "") (names : List String) :
    names.foldl appendFlag out = String.intercalate "|" (out :: names) := by
  induction names generalizing out with
  | nil => rfl
  | cons name names ih =>
    have step : appendFlag out name = out ++ "|" ++ name := by rw [appendFlag, if_pos nonempty]
    rw [List.foldl_cons, step, ih (append_ne_empty _ (append_ne_empty _ nonempty))]
    rfl

theorem foldl_appendFlag_empty {names : List String} (nonempty : ∀ name ∈ names, name ≠ "") :
    names.foldl appendFlag "" = String.intercalate "|" names := by
  cases names with
  | nil => rfl
  | cons name names =>
    have first : appendFlag "" name = name := by simp [appendFlag]
    rw [List.foldl_cons, first, foldl_appendFlag (nonempty name (.head _))]

theorem pollNames_named (m : PollMacros) : ∀ entry ∈ pollNames m, entry.name.any (· ≠ "") := by
  have all : (pollNames m).all (fun entry => entry.name.any (· ≠ "")) := by
    simp [pollNames, optionalFlag, namedFlag]
  exact List.all_eq_true.mp all

theorem pollFlags_named (m : PollMacros) : ∀ entry ∈ pollFlags m, entry.name.isSome := by
  intro entry at_entry
  rcases List.mem_append.mp at_entry with at_entry | at_entry
  · exact Option.isSome_of_any (pollNames_named m entry at_entry)
  · rw [List.mem_singleton.mp at_entry]
    rfl

theorem nameOf_pollFlags (m : PollMacros) {bit : Nat} (inside : bit < 64) :
    nameOf (pollFlags m) (BitVec.twoPow 64 bit) = nameOf (pollNames m) (BitVec.twoPow 64 bit) := by
  have last : ([⟨0, some ""⟩] : List FlagName).find? (·.flag = BitVec.twoPow 64 bit) = none := by
    simp only [List.find?_singleton, decide_eq_true_eq, ite_eq_right_iff]
    intro zero
    exact absurd zero.symm (twoPow_ne_zero inside)
  rw [nameOf, pollFlags, List.find?_append, last, Option.or_none, nameOf]

theorem nameOrUnknown_ne_empty (m : PollMacros) (bit : Nat) : nameOrUnknown (pollNames m) bit ≠ "" := by
  rw [nameOrUnknown, nameOf]
  cases found : (pollNames m).find? (·.flag = BitVec.twoPow 64 bit) with
  | none => simp
  | some entry =>
    have named := pollNames_named m entry (List.mem_of_find?_eq_some found)
    cases at_name : entry.name with
    | none => simp [at_name]
    | some name => simpa [at_name] using named

/-- The names of the set bits in increasing order, with question marks for those without one. -/
def pollText (m : PollMacros) (flags : BitVec 64) : String :=
  String.intercalate "|" ((setBits flags 0 64).map (nameOrUnknown (pollNames m)))

theorem mem_setBits {flags : BitVec 64} {bit : Nat} : bit ∈ setBits flags 0 64 ↔ bit < 64 ∧ flags.getLsbD bit := by
  simp [setBits, List.mem_range'_1]

/-- The text is written exactly if every set bit has an entry: the search for another one runs past
the last entry of the table. -/
theorem pollFlags_toString (m : PollMacros) (flags : BitVec 64) :
    flagsToString (pollFlags m) flags = .ok (pollText m flags) ↔
      ∀ bit < 64, flags.getLsbD bit → ∃ entry ∈ pollNames m, entry.flag = BitVec.twoPow 64 bit := by
  have known (bit : Nat) (inside : bit < 64) : (∃ entry ∈ pollFlags m, entry.flag = BitVec.twoPow 64 bit) ↔
      ∃ entry ∈ pollNames m, entry.flag = BitVec.twoPow 64 bit := by
    rw [← nameOf_isSome (pollFlags_named m), nameOf_pollFlags m inside,
      nameOf_isSome fun entry at_entry => Option.isSome_of_any (pollNames_named m entry at_entry)]
  have text : (setBits flags 0 64).map (nameOrUnknown (pollFlags m)) =
      (setBits flags 0 64).map (nameOrUnknown (pollNames m)) := by
    apply List.map_congr_left
    intro bit at_bit
    rw [nameOrUnknown, nameOf_pollFlags m (mem_setBits.mp at_bit).1, nameOrUnknown]
  have loop := flagsLoop_eq (pollFlags_named m) flags 64 0 (by omega) ""
  rw [text, foldl_appendFlag_empty fun name at_name => ?_] at loop
  · rw [flagsToString]
    show flagsLoop (pollFlags m) flags 64 (BitVec.twoPow 64 0) "" = _ ↔ _
    rw [loop]
    constructor
    · intro written bit inside set
      by_contra missing
      rw [if_neg fun every => missing ((known bit inside).mp (every bit (mem_setBits.mpr ⟨inside, set⟩)))] at written
      cases written
    · intro every
      refine if_pos fun bit at_bit => ?_
      obtain ⟨inside, set⟩ := mem_setBits.mp at_bit
      exact (known bit inside).mpr (every bit inside set)
  · obtain ⟨bit, -, rfl⟩ := List.mem_map.mp at_name
    exact nameOrUnknown_ne_empty m bit

def linuxPoll : PollMacros where
  pollin := 1
  pollpri := 2
  pollout := 4
  pollrdnorm := some 0x40
  pollrdband := some 0x80
  pollwrnorm := some 0x100
  pollwrband := some 0x200
  pollmsg := some 0x400
  pollremove := some 0x1000
  pollrdhup := some 0x2000
  pollinigneof := none
  pollerr := 8
  pollhup := 0x10
  pollnval := 0x20

example : flagsToString (pollFlags linuxPoll) 0x19 = .ok "POLLIN|POLLERR|POLLHUP" := by decide +kernel

theorem pollFlags_overread :
    flagsToString (pollFlags linuxPoll) 0x4001 = .error .invalidAccess ∧ pollText linuxPoll 0x4001 = "POLLIN|???" := by
  decide +kernel

end TcpFuzz
