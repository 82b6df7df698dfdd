import Mathlib.Data.List.Chain
import TcpFuzz.Wire.LockStep

/-! The times of the events while `run.c` walks a script: `get_next_event` looks for times that go backward, and
`adjust_relative_event_times` changes a relative time in place before the event runs. -/

namespace TcpFuzz.Wire
open Syscall (EventType syscallNonBlocking)

def TimesOrdered (script : List Event) : Prop :=
  ((script.filter (isEventTimeAbsolute ·)).map (·.timeUsecs)).IsChain (· ≤ ·)

/-- An absolute event behind events of other kinds is no earlier than the absolute event before those. -/
def OrderedAcrossGaps (script : List Event) : Prop :=
  ∀ before a gap b after, script = before ++ a :: (gap ++ b :: after) → isEventTimeAbsolute a → isEventTimeAbsolute b →
    gap ≠ [] → (∀ e ∈ gap, ¬isEventTimeAbsolute e) → a.timeUsecs ≤ b.timeUsecs

theorem OrderedAcrossGaps.suffix (front : List Event) {script : List Event}
    (ordered : OrderedAcrossGaps (front ++ script)) : OrderedAcrossGaps script := by
  intro before a gap b after split
  refine ordered (front ++ before) a gap b after ?_
  rw [split, List.append_assoc]

def StepOrdered (a b : Event) : Prop :=
  isEventTimeAbsolute a → isEventTimeAbsolute b → a.timeUsecs ≤ b.timeUsecs

theorem getNextEvent_first {scriptPath : String} {script : List Event} {event : Option Event}
    (fine : getNextEvent scriptPath script 0 = .ok (.ok event)) : ∃ first ∈ script.head?, first.timeUsecs = 0 := by
  cases script with
  | nil => cases fine
  | cons first rest =>
    by_cases zero : first.timeUsecs = 0
    · exact ⟨first, rfl, zero⟩
    · simp only [getNextEvent, ne_eq, zero, not_false_eq_true, if_true] at fine
      cases fine

theorem getNextEvent_step {scriptPath : String} {script : List Event} {n : Nat} {last e : Event} {event : Option Event}
    (at_n : script[n]? = some last) (next : script[n + 1]? = some e)
    (fine : getNextEvent scriptPath script (n + 1) = .ok (.ok event)) : StepOrdered last e := by
  intro lastAbsolute absolute
  by_contra back
  simp only [getNextEvent, at_n, next, lastAbsolute, absolute, Int.not_le.mp back, and_self, if_true] at fine
  cases fine

theorem Accepted.steps {scriptPath : String} {script : List Event} (accepted : Accepted scriptPath script) :
    script.IsChain StepOrdered := by
  rw [List.isChain_iff_getElem]
  intro n inside
  have next : script[n + 1]? = some script[n + 1] := List.getElem?_eq_getElem inside
  exact getNextEvent_step (List.getElem?_eq_getElem (by omega)) next (accepted (n + 1) (by omega))

theorem ordered_from (rest : List Event) (a : Event) (gap : List Event) (absolute : isEventTimeAbsolute a)
    (others : ∀ e ∈ gap, ¬isEventTimeAbsolute e) (steps : (a :: (gap ++ rest)).IsChain StepOrdered)
    (gaps : OrderedAcrossGaps (a :: (gap ++ rest))) : TimesOrdered (a :: rest) := by
  induction rest generalizing a gap with
  | nil => simp [TimesOrdered, absolute]
  | cons b rest ih =>
    by_cases isAbsolute : isEventTimeAbsolute b
    · have first : a.timeUsecs ≤ b.timeUsecs := by
        cases gap with
        | nil => exact (List.isChain_cons_cons.mp steps).1 absolute isAbsolute
        | cons e gap => exact gaps [] a (e :: gap) b rest rfl absolute isAbsolute (by simp) others
      have suffixSteps : (b :: rest).IsChain StepOrdered := steps.suffix (List.suffix_append (a :: gap) _)
      have later := ih b [] isAbsolute (by simp) suffixSteps (OrderedAcrossGaps.suffix (a :: gap) gaps)
      rw [TimesOrdered, List.filter_cons_of_pos isAbsolute, List.map_cons] at later
      rw [TimesOrdered, List.filter_cons_of_pos absolute, List.filter_cons_of_pos isAbsolute, List.map_cons,
        List.map_cons]
      exact .cons_cons first later
    · have passed := ih a (gap ++ [b]) absolute ?_ ?_ ?_
      · rw [TimesOrdered, List.filter_cons_of_pos absolute] at passed ⊢
        rwa [List.filter_cons_of_neg isAbsolute]
      · intro e at_e
        rcases List.mem_append.mp at_e with at_e | at_e
        · exact others e at_e
        · rwa [List.mem_singleton.mp at_e]
      · rwa [List.append_assoc]
      · rwa [List.append_assoc]

theorem ordered_of_gaps (script : List Event) (steps : script.IsChain StepOrdered) (gaps : OrderedAcrossGaps script) :
    TimesOrdered script := by
  induction script with
  | nil => exact .nil
  | cons a rest ih =>
    by_cases absolute : isEventTimeAbsolute a
    · exact ordered_from rest a [] absolute (by simp) steps gaps
    · rw [TimesOrdered, List.filter_cons_of_neg absolute]
      exact ih steps.tail (OrderedAcrossGaps.suffix [a] gaps)

theorem TimesOrdered.gaps {script : List Event} (ordered : TimesOrdered script) : OrderedAcrossGaps script := by
  intro before a gap b after split aAbsolute bAbsolute _ others
  have none : gap.filter (isEventTimeAbsolute ·) = [] := List.filter_eq_nil_iff.mpr others
  rw [TimesOrdered, split, List.filter_append, List.filter_cons_of_pos aAbsolute, List.filter_append, none,
    List.nil_append, List.filter_cons_of_pos bAbsolute, List.map_append, List.map_cons, List.map_cons] at ordered
  exact (List.isChain_cons_cons.mp ordered.right_of_append).1

/-- In a script that is walked without an error, the times are in order exactly if they are across
the events that have no absolute time. -/
theorem walked_times_ordered (scriptPath : String) (script : List Event) (accepted : Accepted scriptPath script) :
    (TimesOrdered script ∧ ∃ first ∈ script.head?, first.timeUsecs = 0) ↔ OrderedAcrossGaps script := by
  constructor
  · rintro ⟨ordered, -⟩
    exact ordered.gaps
  · intro gaps
    exact ⟨ordered_of_gaps script accepted.steps gaps, getNextEvent_first (accepted 0 (Nat.zero_le _))⟩

instance (scriptPath : String) (script : List Event) : Decidable (Accepted scriptPath script) :=
  inferInstanceAs (Decidable (∀ n ≤ script.length, getNextEvent scriptPath script n = .ok (.ok script[n]?)))

instance (script : List Event) : Decidable (TimesOrdered script) := inferInstanceAs (Decidable (List.IsChain _ _))

def forward : List Event :=
  [⟨.syscall, 1, .absolute, 0⟩, ⟨.syscall, 2, .absolute, 5⟩, ⟨.syscall, 3, .relative, 1⟩, ⟨.syscall, 4, .absolute, 9⟩]

theorem walked_times_ordered_forward :
    Accepted "a.pkt" forward ∧
      ((TimesOrdered forward ∧ ∃ first ∈ forward.head?, first.timeUsecs = 0) ↔ OrderedAcrossGaps forward) :=
  ⟨by decide, walked_times_ordered "a.pkt" forward (by decide)⟩

/-- A relative event hides that the script goes back from 5 to 3. -/
theorem walk_goes_backward :
    let script : List Event :=
      [⟨.syscall, 1, .absolute, 0⟩, ⟨.syscall, 2, .absolute, 5⟩, ⟨.syscall, 3, .relative, 1⟩, ⟨.syscall, 4, .absolute, 3⟩]
    Accepted "a.pkt" script ∧ ¬TimesOrdered script := by
  decide

inductive EventSpec where
  | packet (direction : Direction)
  | syscall (endUsecs : Int)
  | command
  | code
deriving DecidableEq, Repr

def EventSpec.type : EventSpec → EventType
  | .packet _ => .packet
  | .syscall _ => .syscall
  | .command => .command
  | .code => .code

structure TimedEvent where
  lineNumber : Nat
  timeUsecs : Int
  timeUsecsEnd : Int
  offsetUsecs : Int
  timeType : EventTime
  event : EventSpec
deriving DecidableEq, Repr

namespace TimedEvent

def toEvent (e : TimedEvent) : Event := ⟨e.event.type, e.lineNumber, e.timeType, e.timeUsecs⟩

def isEventStartTimeAnchored (e : TimedEvent) : Bool := e.event = .packet .inbound

def isRelative (e : TimedEvent) : Bool := e.timeType = .relative ∨ e.timeType = .relativeRange

end TimedEvent

/-- The end of a blocking call moves with its start. -/
def EventSpec.delay (offsetUsecs : Int) : EventSpec → EventSpec
  | .syscall endUsecs => .syscall (if endUsecs ≠ syscallNonBlocking then endUsecs + offsetUsecs else endUsecs)
  | event => event

/-- What a relative time is relative to: the packet before, if both go in, or the clock. -/
def relativeBase (nowUsecs liveStartTimeUsecs : Int) (lastEvent : Option TimedEvent) (e : TimedEvent) : Int :=
  match lastEvent with
  | some last =>
    if last.isEventStartTimeAnchored ∧ e.isEventStartTimeAnchored then last.timeUsecs else nowUsecs - liveStartTimeUsecs
  | none => nowUsecs - liveStartTimeUsecs

def adjustRelativeEventTimes (nowUsecs liveStartTimeUsecs : Int) (lastEvent : Option TimedEvent) (e : TimedEvent) :
    TimedEvent :=
  if e.timeType ≠ .any ∧ e.timeType ≠ .relative ∧ e.timeType ≠ .relativeRange then e
  else
    let offsetUsecs := relativeBase nowUsecs liveStartTimeUsecs lastEvent e
    { e with
      offsetUsecs
      timeUsecs := e.timeUsecs + offsetUsecs
      timeUsecsEnd := if e.timeType = .relativeRange then e.timeUsecsEnd + offsetUsecs else e.timeUsecsEnd
      event := if e.timeType = .relative then e.event.delay offsetUsecs else e.event }

def previous (script : List TimedEvent) : Nat → Option TimedEvent
  | 0 => none
  | n + 1 => script[n]?

/-- Fetch the event behind the first `n` and adjust its times, in place. -/
def adjustNext (scriptPath : String) (liveStartTimeUsecs nowUsecs : Int) (n : Nat) (script : List TimedEvent) :
    Check (List TimedEvent) := do
  let event ← ExceptT.mk (getNextEvent scriptPath (script.map (·.toEvent)) n)
  match event with
  | none => return script
  | some _ => return script.modify n (adjustRelativeEventTimes nowUsecs liveStartTimeUsecs (previous script n))

/-- The script after the first `n` events. The clock is read at most once for each of them. -/
def adjustedAfter (scriptPath : String) (liveStartTimeUsecs : Int) (clock : Nat → Int) (script : List TimedEvent) :
    Nat → Check (List TimedEvent)
  | 0 => return script
  | n + 1 => do
    let script ← adjustedAfter scriptPath liveStartTimeUsecs clock script n
    adjustNext scriptPath liveStartTimeUsecs (clock n) n script

section Adjust

variable (now start : Int) (last : Option TimedEvent) (e : TimedEvent)

theorem adjust_timeType : (adjustRelativeEventTimes now start last e).timeType = e.timeType := by
  unfold adjustRelativeEventTimes
  split <;> rfl

theorem delay_packet (offset : Int) (event : EventSpec) (direction : Direction) :
    event.delay offset = .packet direction ↔ event = .packet direction := by
  cases event <;> simp [EventSpec.delay]

theorem adjust_anchored :
    (adjustRelativeEventTimes now start last e).isEventStartTimeAnchored = e.isEventStartTimeAnchored := by
  unfold adjustRelativeEventTimes
  split
  · rfl
  · by_cases relative : e.timeType = .relative
    · simp only [TimedEvent.isEventStartTimeAnchored, relative, if_true, delay_packet]
    · simp only [TimedEvent.isEventStartTimeAnchored, relative, if_false]

variable {e}

theorem adjust_absolute (absolute : isEventTimeAbsolute e.toEvent) : adjustRelativeEventTimes now start last e = e := by
  have kind : e.timeType = .absolute ∨ e.timeType = .absoluteRange :=
    of_decide_eq_true absolute
  unfold adjustRelativeEventTimes
  rcases kind with kind | kind <;> simp [kind]

theorem adjust_behind_anchor {before : TimedEvent} (anchor : before.isEventStartTimeAnchored)
    (anchored : e.isEventStartTimeAnchored) (relative : e.isRelative) :
    adjustRelativeEventTimes now start (some before) e =
      { e with
        offsetUsecs := before.timeUsecs
        timeUsecs := e.timeUsecs + before.timeUsecs
        timeUsecsEnd := if e.timeType = .relativeRange then e.timeUsecsEnd + before.timeUsecs else e.timeUsecsEnd } := by
  have kind : ¬(e.timeType ≠ .any ∧ e.timeType ≠ .relative ∧ e.timeType ≠ .relativeRange) := by
    simp only [TimedEvent.isRelative, decide_eq_true_eq] at relative
    tauto
  have base : relativeBase now start (some before) e = before.timeUsecs := by simp [relativeBase, anchor, anchored]
  have packet : e.event = .packet .inbound := by simpa [TimedEvent.isEventStartTimeAnchored] using anchored
  rw [adjustRelativeEventTimes, if_neg kind]
  simp only [base, packet, EventSpec.delay, ite_self]

end Adjust

/-- Each of the first `n` events was adjusted once, behind the event before it as that was left. -/
def Adjusted (start : Int) (clock : Nat → Int) (script : List TimedEvent) (n : Nat) (adjusted : List TimedEvent) : Prop :=
  ∀ j, adjusted[j]? = if j < n then script[j]?.map (adjustRelativeEventTimes (clock j) start (previous adjusted j))
    else script[j]?

section Walk

variable {scriptPath : String} {start : Int} {clock : Nat → Int} {script adjusted next : List TimedEvent} {n : Nat}

theorem previous_modify (f : TimedEvent → TimedEvent) {j : Nat} (before : j ≤ n) :
    previous (script.modify n f) j = previous script j := by
  cases j with
  | zero => rfl
  | succ j =>
    simp only [previous]
    rw [List.getElem?_modify_ne f _ (by omega)]

theorem Adjusted.step (done : Adjusted start clock script n adjusted) :
    Adjusted start clock script (n + 1)
      (adjusted.modify n (adjustRelativeEventTimes (clock n) start (previous adjusted n))) := by
  intro j
  rcases Nat.lt_trichotomy j n with before | rfl | behind
  · rw [List.getElem?_modify_ne _ _ (by omega), done j, if_pos before, if_pos (by omega), previous_modify _ (by omega)]
  · rw [List.getElem?_modify_eq, done j, if_neg (by omega), if_pos (by omega), previous_modify _ (by omega)]
    rfl
  · rw [List.getElem?_modify_ne _ _ (by omega), done j, if_neg (by omega), if_neg (by omega)]

theorem Adjusted.end (done : Adjusted start clock script n adjusted) (ended : script[n]? = none) :
    Adjusted start clock script (n + 1) adjusted := by
  intro j
  rw [done j]
  rcases Nat.lt_trichotomy j n with before | rfl | behind
  · rw [if_pos before, if_pos (by omega)]
  · rw [if_neg (by omega), if_pos (by omega), ended]
    rfl
  · rw [if_neg (by omega), if_neg (by omega)]

theorem getNextEvent_none {events : List Event} (ended : getNextEvent scriptPath events n = .ok (.ok none)) :
    events[n]? = none := by
  cases n with
  | zero =>
    cases events with
    | nil => rfl
    | cons first rest =>
      simp only [getNextEvent] at ended
      split at ended <;> cases ended
  | succ n =>
    simp only [getNextEvent] at ended
    split at ended
    · split at ended <;> cases ended
    · rename_i missing
      by_contra found
      obtain ⟨e, at_e⟩ := Option.ne_none_iff_exists'.mp found
      have inside : n + 1 < events.length := (List.getElem?_eq_some_iff.mp at_e).1
      exact missing _ e (List.getElem?_eq_getElem (by omega)) at_e

theorem adjustNext_cases {nowUsecs : Int} (ran : adjustNext scriptPath start nowUsecs n script = (pure next : Check _)) :
    (next = script ∧ script[n]? = none) ∨
      next = script.modify n (adjustRelativeEventTimes nowUsecs start (previous script n)) := by
  obtain ⟨event, fetched, rest⟩ := Check.bind_passed ran
  cases event with
  | none =>
    have ended := getNextEvent_none fetched
    rw [List.getElem?_map, Option.map_eq_none_iff] at ended
    exact .inl ⟨(Except.ok.inj (Except.ok.inj rest)).symm, ended⟩
  | some e => exact .inr (Except.ok.inj (Except.ok.inj rest)).symm

theorem adjustedAfter_adjusts (ran : adjustedAfter scriptPath start clock script n = (pure adjusted : Check _)) :
    Adjusted start clock script n adjusted := by
  induction n generalizing adjusted with
  | zero =>
    have same : script = adjusted := Except.ok.inj (Except.ok.inj ran)
    intro j
    rw [if_neg (by omega), same]
  | succ n ih =>
    obtain ⟨earlier, before, stepped⟩ := Check.bind_passed ran
    have done := ih before
    rcases adjustNext_cases stepped with ⟨rfl, ended⟩ | rfl
    · have last := done n
      rw [if_neg (by omega), ended] at last
      exact done.end last.symm
    · exact done.step

theorem adjust_isEventTimeAbsolute (now : Int) (last : Option TimedEvent) (e : TimedEvent) :
    isEventTimeAbsolute (adjustRelativeEventTimes now start last e).toEvent = isEventTimeAbsolute e.toEvent :=
  congrArg (fun kind => decide (kind = EventTime.absolute ∨ kind = EventTime.absoluteRange)) (adjust_timeType now start last e)

theorem Adjusted.getNextEvent (done : Adjusted start clock script n adjusted) :
    getNextEvent scriptPath (adjusted.map (·.toEvent)) n = getNextEvent scriptPath (script.map (·.toEvent)) n := by
  cases n with
  | zero =>
    have same : adjusted = script := List.ext_getElem? fun j => by rw [done j, if_neg (by omega)]
    rw [same]
  | succ n =>
    have last := done n
    have event := done (n + 1)
    rw [if_pos (by omega)] at last
    rw [if_neg (by omega)] at event
    simp only [Wire.getNextEvent, List.getElem?_map, last, event]
    cases script[n]? with
    | none => rfl
    | some before =>
      cases script[n + 1]? with
      | none => rfl
      | some e =>
        simp only [Option.map_some, adjust_isEventTimeAbsolute]
        by_cases absolute : isEventTimeAbsolute before.toEvent
        · rw [adjust_absolute _ _ _ absolute]
        · simp only [absolute, Bool.false_eq_true, false_and, if_false]

theorem adjustNext_iff {nowUsecs : Int} :
    (∃ next, adjustNext scriptPath start nowUsecs n script = (pure next : Check _)) ↔
      ∃ event, getNextEvent scriptPath (script.map (·.toEvent)) n = .ok (.ok event) := by
  constructor
  · rintro ⟨next, ran⟩
    obtain ⟨event, fetched, -⟩ := Check.bind_passed ran
    exact ⟨event, fetched⟩
  · rintro ⟨event, fetched⟩
    rw [adjustNext, fetched]
    cases event <;> exact ⟨_, rfl⟩

/-- The times that the walk changes in place do not change which scripts it refuses, nor where. -/
theorem adjustedAfter_walks (scriptPath : String) (start : Int) (clock : Nat → Int) (script : List TimedEvent) (n : Nat) :
    (∃ adjusted, adjustedAfter scriptPath start clock script n = (pure adjusted : Check _)) ↔
      ∀ m < n, ∃ event, getNextEvent scriptPath (script.map (·.toEvent)) m = .ok (.ok event) := by
  induction n with
  | zero => exact iff_of_true ⟨script, rfl⟩ nofun
  | succ n ih =>
    rw [Nat.forall_lt_succ_right, ← ih]
    constructor
    · rintro ⟨adjusted, ran⟩
      obtain ⟨earlier, before, stepped⟩ := Check.bind_passed ran
      refine ⟨⟨earlier, before⟩, ?_⟩
      rw [← (adjustedAfter_adjusts before).getNextEvent]
      exact adjustNext_iff.mp ⟨adjusted, stepped⟩
    · rintro ⟨⟨earlier, before⟩, fetched⟩
      rw [← (adjustedAfter_adjusts before).getNextEvent] at fetched
      obtain ⟨next, stepped⟩ := adjustNext_iff.mpr fetched
      exact ⟨next, by rw [adjustedAfter, before]; exact stepped⟩

end Walk

/-- The events from `i` to `i + k` are inbound packets, and all but the first have relative times. -/
structure AnchoredRun (script : List TimedEvent) (i k : Nat) : Prop where
  anchored : ∀ m ≤ k, ∃ e ∈ script[i + m]?, e.isEventStartTimeAnchored
  relative : ∀ m < k, ∃ e ∈ script[i + (m + 1)]?, e.isRelative

def offsetSum (script : List TimedEvent) (i m : Nat) : Int := (((script.drop (i + 1)).take m).map (·.timeUsecs)).sum

theorem offsetSum_succ {script : List TimedEvent} {i m : Nat} {e : TimedEvent} (at_e : script[i + (m + 1)]? = some e) :
    offsetSum script i (m + 1) = offsetSum script i m + e.timeUsecs := by
  have last : (script.drop (i + 1))[m]? = some e := by
    rw [List.getElem?_drop, ← at_e]
    congr 1
    omega
  rw [offsetSum, List.take_add_one, last, List.map_append, List.sum_append, offsetSum]
  simp

section Runs

variable {scriptPath : String} {start : Int} {clock : Nat → Int} {script adjusted : List TimedEvent} {n i k : Nat}

theorem Adjusted.anchored (done : Adjusted start clock script n adjusted) {j : Nat}
    (anchored : ∃ e ∈ script[j]?, e.isEventStartTimeAnchored) : ∃ e ∈ adjusted[j]?, e.isEventStartTimeAnchored := by
  obtain ⟨e, at_e, anchored⟩ := anchored
  rw [done j, Option.mem_def.mp at_e]
  split
  · exact ⟨_, rfl, by rwa [adjust_anchored]⟩
  · exact ⟨e, rfl, anchored⟩

theorem Adjusted.next (done : Adjusted start clock script n adjusted) (run : AnchoredRun script i k) (inside : i + k < n)
    {m : Nat} (among : m < k) :
    ∃ e before, script[i + (m + 1)]? = some e ∧ adjusted[i + m]? = some before ∧
      adjusted[i + (m + 1)]? = some { e with
        offsetUsecs := before.timeUsecs
        timeUsecs := e.timeUsecs + before.timeUsecs
        timeUsecsEnd := if e.timeType = .relativeRange then e.timeUsecsEnd + before.timeUsecs else e.timeUsecsEnd } := by
  obtain ⟨before, at_before, anchor⟩ := done.anchored (run.anchored m (by omega))
  obtain ⟨e, at_e, anchored⟩ := run.anchored (m + 1) (by omega)
  obtain ⟨e', at_e', relative⟩ := run.relative m among
  obtain rfl : e' = e := Option.mem_unique at_e' at_e
  refine ⟨e', before, at_e, at_before, ?_⟩
  have value := done (i + (m + 1))
  rw [if_pos (by omega), at_e, Option.map_some, ← Nat.add_assoc, previous, at_before,
    adjust_behind_anchor _ _ anchor anchored relative] at value
  exact value

theorem Adjusted.time (done : Adjusted start clock script n adjusted) (run : AnchoredRun script i k) (inside : i + k < n)
    {first : TimedEvent} (at_first : adjusted[i]? = some first) (m : Nat) (among : m ≤ k) :
    ∃ e, adjusted[i + m]? = some e ∧ e.timeUsecs = first.timeUsecs + offsetSum script i m := by
  induction m with
  | zero => exact ⟨first, at_first, by simp [offsetSum]⟩
  | succ m ih =>
    obtain ⟨before, at_before, time⟩ := ih (by omega)
    obtain ⟨e, before', at_e, at_before', value⟩ := done.next run inside (show m < k by omega)
    obtain rfl : before' = before := Option.some_inj.mp (at_before'.symm.trans at_before)
    refine ⟨_, value, ?_⟩
    rw [offsetSum_succ at_e]
    show e.timeUsecs + before'.timeUsecs = _
    omega

theorem Adjusted.agree {clock' : Nat → Int} {adjusted' : List TimedEvent}
    (done : Adjusted start clock script n adjusted) (done' : Adjusted start clock' script n adjusted')
    (agree : ∀ j ≤ i, clock' j = clock j) : ∀ j ≤ i, adjusted'[j]? = adjusted[j]? := by
  intro j upTo
  induction j with
  | zero => rw [done, done', agree 0 upTo, previous, previous]
  | succ j ih => rw [done, done', agree (j + 1) upTo, previous, previous, ih (by omega)]

theorem Adjusted.agree_run {clock' : Nat → Int} {adjusted' : List TimedEvent}
    (done : Adjusted start clock script n adjusted) (done' : Adjusted start clock' script n adjusted')
    (agree : ∀ j ≤ i, clock' j = clock j) (run : AnchoredRun script i k) (inside : i + k < n) (m : Nat) (among : m ≤ k) :
    adjusted'[i + m]? = adjusted[i + m]? := by
  induction m with
  | zero => exact done.agree done' agree i (Nat.le_refl i)
  | succ m ih =>
    obtain ⟨e, before, at_e, at_before, value⟩ := done.next run inside (show m < k by omega)
    obtain ⟨e', before', at_e', at_before', value'⟩ := done'.next run inside (show m < k by omega)
    obtain rfl : e' = e := Option.some_inj.mp (at_e'.symm.trans at_e)
    obtain rfl : before' = before := by
      rw [ih (by omega), at_before] at at_before'
      exact (Option.some_inj.mp at_before').symm
    rw [value, value']

end Runs

/-- Along a run of inbound packets with relative times nothing of the clock adds up: each time is the
first one plus the offsets, and so is the end of a range; the clock readings behind the first event
of the run have no influence. -/
theorem anchored_times (scriptPath : String) (start : Int) (script : List TimedEvent) (i k n : Nat)
    (run : AnchoredRun script i k) (inside : i + k < n) (clock : Nat → Int) (adjusted : List TimedEvent)
    (walked : adjustedAfter scriptPath start clock script n = (pure adjusted : Check _)) :
    (∃ first, adjusted[i]? = some first ∧
      (∀ m ≤ k, ∃ e, adjusted[i + m]? = some e ∧ e.timeUsecs = first.timeUsecs + offsetSum script i m) ∧
      ∀ m < k, ∃ e a, script[i + (m + 1)]? = some e ∧ adjusted[i + (m + 1)]? = some a ∧
        (e.timeType = .relativeRange → a.timeUsecsEnd = first.timeUsecs + offsetSum script i m + e.timeUsecsEnd)) ∧
    ∀ clock' adjusted', (∀ j ≤ i, clock' j = clock j) →
      adjustedAfter scriptPath start clock' script n = (pure adjusted' : Check _) →
      ∀ m ≤ k, adjusted'[i + m]? = adjusted[i + m]? := by
  have done := adjustedAfter_adjusts walked
  obtain ⟨first, at_first, -⟩ := done.anchored (run.anchored 0 (Nat.zero_le k))
  refine ⟨⟨first, at_first, done.time run inside at_first, ?_⟩, ?_⟩
  · intro m among
    obtain ⟨e, before, at_e, at_before, value⟩ := done.next run inside among
    obtain ⟨b, at_b, time⟩ := done.time run inside at_first m (by omega)
    obtain rfl : b = before := Option.some_inj.mp (at_b.symm.trans at_before)
    refine ⟨e, _, at_e, value, fun range => ?_⟩
    show (if e.timeType = .relativeRange then e.timeUsecsEnd + b.timeUsecs else e.timeUsecsEnd) = _
    rw [if_pos range]
    omega
  · intro clock' adjusted' agree walked'
    exact done.agree_run (adjustedAfter_adjusts walked') agree run inside

def threePackets : List TimedEvent :=
  [⟨1, 0, 0, 0, .absolute, .packet .inbound⟩, ⟨2, 10, 0, 0, .relative, .packet .inbound⟩,
    ⟨3, 20, 30, 0, .relativeRange, .packet .inbound⟩]

theorem anchored_times_threePackets :
    let adjusted : List TimedEvent :=
      [⟨1, 0, 0, 0, .absolute, .packet .inbound⟩, ⟨2, 10, 0, 0, .relative, .packet .inbound⟩,
        ⟨3, 30, 40, 10, .relativeRange, .packet .inbound⟩]
    AnchoredRun threePackets 0 2 ∧
    adjustedAfter "a.pkt" 0 (fun j => 100 * j) threePackets 3 = (pure adjusted : Check _) ∧
    ∃ first, adjusted[0]? = some first ∧
      (∀ m ≤ 2, ∃ e, adjusted[0 + m]? = some e ∧ e.timeUsecs = first.timeUsecs + offsetSum threePackets 0 m) ∧
      ∀ m < 2, ∃ e a, threePackets[0 + (m + 1)]? = some e ∧ adjusted[0 + (m + 1)]? = some a ∧
        (e.timeType = .relativeRange →
          a.timeUsecsEnd = first.timeUsecs + offsetSum threePackets 0 m + e.timeUsecsEnd) := by
  intro adjusted
  have run : AnchoredRun threePackets 0 2 := by
    constructor
    · intro m among
      match m, among with
      | 0, _ | 1, _ | 2, _ => exact ⟨_, rfl, rfl⟩
    · intro m among
      match m, among with
      | 0, _ | 1, _ => exact ⟨_, rfl, rfl⟩
  have walked : adjustedAfter "a.pkt" 0 (fun j => 100 * j) threePackets 3 = (pure adjusted : Check _) := rfl
  exact ⟨run, walked, (anchored_times "a.pkt" 0 threePackets 0 2 3 run (by decide) _ adjusted walked).1⟩

end TcpFuzz.Wire
