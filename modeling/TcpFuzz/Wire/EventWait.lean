import Mathlib.Data.List.Infix
import Mathlib.Logic.Relation
import TcpFuzz.Wire.EventTimes

/-! When the events of a script start: `wait_for_event` reads the clock until an event is due and lets `verify_time` look
at the time it got. Here the clock is the readings that it will give. -/

namespace TcpFuzz.Wire

/-- The times of a run. `get_next_event` has refused a script that does not start at 0. -/
structure Pace where
  scriptPath : String
  toleranceUsecs : Int
  liveStartTimeUsecs : Int
  scriptStartTimeUsecs : Int
  fromZero : scriptStartTimeUsecs = 0

def maxSpinUsecs : Int := 20

/-- Seconds as `%.6f` prints them. -/
def showSecs (usecs : Int) : String :=
  let digits := toString (usecs.natAbs % 1000000)
  (if usecs < 0 then "-" else "") ++ toString (usecs.natAbs / 1000000) ++ "." ++
    String.ofList (List.replicate (6 - digits.length) '0') ++ digits

def showSigned (usecs : Int) : String := (if usecs < 0 then "" else "+") ++ showSecs usecs

namespace Pace

variable (p : Pace)

def scriptTimeToLiveTimeUsecs (scriptTimeUsecs : Int) : Int :=
  p.liveStartTimeUsecs + (scriptTimeUsecs - p.scriptStartTimeUsecs)

def verifyTime (offsetUsecs : Int) (timeType : EventTime) (scriptUsecs scriptUsecsEnd liveUsecs : Int)
    (description : String) : Except String Unit :=
  let expectedUsecs := scriptUsecs - p.scriptStartTimeUsecs
  let expectedUsecsEnd := scriptUsecsEnd - p.scriptStartTimeUsecs
  let actualUsecs := liveUsecs - p.liveStartTimeUsecs
  if timeType = .any then .ok ()
  else if timeType = .absoluteRange ∨ timeType = .relativeRange then
    if actualUsecs < expectedUsecs - p.toleranceUsecs ∨ expectedUsecsEnd + p.toleranceUsecs < actualUsecs then
      if timeType = .absoluteRange then
        .error ("timing error: expected " ++ description ++ " in time range " ++ showSecs scriptUsecs ++ "~" ++
          showSecs scriptUsecsEnd ++ " sec but happened at " ++ showSecs actualUsecs ++ " sec")
      else
        .error ("timing error: expected " ++ description ++ " in relative time range +" ++
          showSecs (scriptUsecs - offsetUsecs) ++ "~+" ++ showSecs (scriptUsecsEnd - offsetUsecs) ++
          " sec but happened at " ++ showSigned (actualUsecs - offsetUsecs) ++ " sec")
    else .ok ()
  else if actualUsecs < expectedUsecs - p.toleranceUsecs ∨ expectedUsecs + p.toleranceUsecs < actualUsecs then
    .error ("timing error: expected " ++ description ++ " at " ++ showSecs scriptUsecs ++ " sec but happened at " ++
      showSecs actualUsecs ++ " sec; tolerance " ++ showSecs p.toleranceUsecs ++ " sec")
  else .ok ()

def eventDescription : EventSpec → Run String
  | .packet .inbound => return "inbound packet"
  | .packet .outbound => return "outbound packet"
  | .packet .invalid => throw .assertion
  | .syscall _ => return "system call start"
  | .command => return "command"
  | .code => return "data collection for code"

def checkEventTime (e : TimedEvent) (liveUsecs : Int) : Check Unit := do
  let description ← (eventDescription e.event : Run String)
  match p.verifyTime e.offsetUsecs e.timeType e.timeUsecs e.timeUsecsEnd liveUsecs description with
  | .ok () => return
  | .error error => throw s!"{p.scriptPath}:{e.lineNumber}: {error}\n"

/-- An argument of `usleep` is narrowed to 32 bits. -/
def useconds (usecs : Int) : Int := usecs % 2 ^ 32

/-- Read the clock until the event is due: the sleeps on the way, the reading that ends the loop and those behind it. -/
def spin (numEvents : Nat) (eventUsecs : Int) : List Int → Option (List Int × Int × List Int)
  | [] => none
  | now :: clock =>
    let waitUsecs := eventUsecs - now
    if waitUsecs ≤ 0 then some ([], now, clock)
    else do
      let (sleeps, woken) ← spin numEvents eventUsecs clock
      return (if 0 < numEvents ∧ maxSpinUsecs < waitUsecs then useconds (waitUsecs - maxSpinUsecs) :: sleeps else sleeps,
        woken)

/-- The sleeps and the time of the start. Nothing if the clock is read again behind its last reading. -/
def waitForEvent (numEvents : Nat) (e : TimedEvent) (clock : List Int) : Option (Check (List Int × Int)) := do
  let (sleeps, now, clock) ← spin numEvents (p.scriptTimeToLiveTimeUsecs e.timeUsecs) clock
  if 0 < numEvents then
    let live ← clock.head?
    return do
      p.checkEventTime e live
      return (sleeps, live)
  else return (return (sleeps, now))

/-- The latest time of an event, before the tolerance. -/
def latestUsecs (e : TimedEvent) : Int :=
  if e.timeType = .absoluteRange ∨ e.timeType = .relativeRange then e.timeUsecsEnd else e.timeUsecs

/-- A sleep that starts at `t` is over before the loop is to spin; it lasts until then if that is near enough
for 32 bits. -/
def SleepsUntil (due t sleep : Int) : Prop :=
  0 ≤ sleep ∧ t + sleep + maxSpinUsecs ≤ due ∧ (due - t < 2 ^ 32 → t + sleep + maxSpinUsecs = due)

def NotLate (e : TimedEvent) (liveUsecs : Int) : Prop :=
  e.timeType = .any ∨ liveUsecs ≤ p.scriptTimeToLiveTimeUsecs (latestUsecs e) + p.toleranceUsecs

end Pace

section Waiting

variable {p : Pace} {numEvents : Nat} {due now live : Int} {e : TimedEvent} {clock sleeps left : List Int}

theorem spin_spec (spun : Pace.spin numEvents due clock = some (sleeps, now, left)) :
    due ≤ now ∧ ∃ before, clock = before ++ now :: left ∧
      ∀ sleep ∈ sleeps, ∃ t ∈ before, Pace.SleepsUntil due t sleep := by
  induction clock generalizing sleeps with
  | nil => cases spun
  | cons t clock ih =>
    rw [Pace.spin] at spun
    by_cases reached : due - t ≤ 0
    · rw [if_pos reached] at spun
      cases spun
      exact ⟨by omega, [], rfl, by simp⟩
    · rw [if_neg reached] at spun
      obtain ⟨⟨earlier, woken⟩, spun, same⟩ := Option.bind_eq_some_iff.mp spun
      obtain ⟨rfl, rfl⟩ := Prod.mk.inj (Option.some.inj same)
      obtain ⟨late, before, rfl, slept⟩ := ih spun
      refine ⟨late, t :: before, rfl, ?_⟩
      have others : ∀ sleep ∈ earlier, ∃ u ∈ t :: before, Pace.SleepsUntil due u sleep := by
        intro sleep member
        obtain ⟨u, inside, ends⟩ := slept sleep member
        exact ⟨u, List.mem_cons_of_mem _ inside, ends⟩
      split
      next long =>
        refine List.forall_mem_cons.mpr ⟨⟨t, List.mem_cons_self, ?_⟩, others⟩
        unfold Pace.SleepsUntil Pace.useconds maxSpinUsecs
        unfold maxSpinUsecs at long
        omega
      next => exact others

theorem spin_returns (numEvents : Nat) (more : left ≠ []) (arrives : due ≤ now) :
    ∃ woken : List Int × Int × List Int, Pace.spin numEvents due (clock ++ now :: left) = some woken ∧ woken.2.2 ≠ [] := by
  induction clock with
  | nil => exact ⟨([], now, left), by rw [List.nil_append, Pace.spin, if_pos (by omega)], more⟩
  | cons t clock ih =>
    rw [List.cons_append, Pace.spin]
    split
    · exact ⟨_, rfl, by simp⟩
    · obtain ⟨woken, spun, more⟩ := ih
      rw [spun]
      exact ⟨_, rfl, more⟩

theorem verifyTime_ok (offset : Int) (description : String) (due : p.scriptTimeToLiveTimeUsecs e.timeUsecs ≤ live)
    (tolerant : 0 ≤ p.toleranceUsecs) :
    p.verifyTime offset e.timeType e.timeUsecs e.timeUsecsEnd live description = .ok () ↔ p.NotLate e live := by
  simp only [Pace.verifyTime, Pace.NotLate, Pace.latestUsecs, Pace.scriptTimeToLiveTimeUsecs] at due ⊢
  cases e.timeType <;> simp only [reduceCtorEq, or_self, or_false, false_or, or_true, true_or, if_true, if_false] <;> split <;>
    simp only [reduceCtorEq, true_iff, false_iff] <;> omega

theorem eventDescription_returns {spec : EventSpec} (known : spec ≠ .packet .invalid) :
    ∃ description, Pace.eventDescription spec = .ok description := by
  cases spec with
  | packet direction =>
    cases direction with
    | invalid => exact absurd rfl known
    | inbound | outbound => exact ⟨_, rfl⟩
  | syscall | command | code => exact ⟨_, rfl⟩

theorem checkEventTime_eq {description : String} (described : Pace.eventDescription e.event = .ok description) :
    p.checkEventTime e live =
      match p.verifyTime e.offsetUsecs e.timeType e.timeUsecs e.timeUsecsEnd live description with
      | .ok () => (pure () : Check Unit)
      | .error error => throw s!"{p.scriptPath}:{e.lineNumber}: {error}\n" := by
  rw [Pace.checkEventTime, described]
  rfl

theorem checkEventTime_outcome (known : e.event ≠ .packet .invalid) (due : p.scriptTimeToLiveTimeUsecs e.timeUsecs ≤ live)
    (tolerant : 0 ≤ p.toleranceUsecs) :
    (p.NotLate e live → p.checkEventTime e live = (pure () : Check Unit)) ∧
      (¬p.NotLate e live → ∃ message, p.checkEventTime e live = (throw message : Check Unit)) := by
  obtain ⟨description, described⟩ := eventDescription_returns known
  rw [← verifyTime_ok e.offsetUsecs description due tolerant, checkEventTime_eq described]
  cases p.verifyTime e.offsetUsecs e.timeType e.timeUsecs e.timeUsecsEnd live description with
  | ok => exact ⟨fun _ => rfl, fun late => absurd rfl late⟩
  | error message => exact ⟨nofun, fun _ => ⟨_, rfl⟩⟩

theorem waitForEvent_first (spun : Pace.spin 0 (p.scriptTimeToLiveTimeUsecs e.timeUsecs) clock = some (sleeps, now, left)) :
    p.waitForEvent 0 e clock = some (pure (sleeps, now)) := by
  simp [Pace.waitForEvent, spun]

theorem waitForEvent_checked (positive : 0 < numEvents)
    (spun : Pace.spin numEvents (p.scriptTimeToLiveTimeUsecs e.timeUsecs) clock = some (sleeps, now, live :: left)) :
    p.waitForEvent numEvents e clock = some (p.checkEventTime e live >>= fun _ => pure (sleeps, live)) := by
  simp [Pace.waitForEvent, spun, positive]

theorem waitForEvent_start (rising : clock.Pairwise (· ≤ ·))
    (waited : p.waitForEvent numEvents e clock = some (pure (sleeps, live) : Check _)) :
    p.scriptTimeToLiveTimeUsecs e.timeUsecs ≤ live ∧ live ∈ clock ∧
      (0 < numEvents → p.checkEventTime e live = (pure () : Check Unit)) := by
  obtain ⟨⟨slept, now, left⟩, spun, rest⟩ := Option.bind_eq_some_iff.mp waited
  obtain ⟨due, before, rfl, -⟩ := spin_spec spun
  by_cases positive : 0 < numEvents
  · simp only [positive, if_true] at rest
    obtain ⟨reading, first, passed⟩ := Option.bind_eq_some_iff.mp rest
    obtain ⟨⟨⟩, checked, same⟩ := Check.bind_passed (Option.some.inj passed)
    obtain ⟨-, rfl⟩ := Prod.mk.inj (Except.ok.inj (Except.ok.inj same))
    obtain ⟨left, rfl⟩ := List.head?_eq_some_iff.mp first
    have later := (List.pairwise_cons.mp (List.pairwise_append.mp rising).2.1).1 reading List.mem_cons_self
    exact ⟨Int.le_trans due later, by simp, fun _ => checked⟩
  · simp only [positive, if_false] at rest
    obtain ⟨-, rfl⟩ := Prod.mk.inj (Except.ok.inj (Except.ok.inj (Option.some.inj rest)))
    exact ⟨due, by simp, fun more => absurd more positive⟩

end Waiting

/-- On a clock that gets to the time of an event and is read once more, the wait ends. It has never slept past the event,
which does not start early, and it gives up exactly if the event starts later than the tolerance allows. -/
theorem waitForEvent_ends (p : Pace) (numEvents : Nat) (e : TimedEvent) (clock : List Int)
    (known : e.event ≠ .packet .invalid) (tolerant : 0 ≤ p.toleranceUsecs) (rising : clock.Pairwise (· ≤ ·))
    (arrives : ∃ before now behind, clock = before ++ now :: behind ∧ behind ≠ [] ∧
      p.scriptTimeToLiveTimeUsecs e.timeUsecs ≤ now) :
    ∃ sleeps live, p.scriptTimeToLiveTimeUsecs e.timeUsecs ≤ live ∧ live ∈ clock ∧
      (∀ sleep ∈ sleeps, ∃ t ∈ clock, Pace.SleepsUntil (p.scriptTimeToLiveTimeUsecs e.timeUsecs) t sleep) ∧
      (numEvents = 0 ∨ p.NotLate e live → p.waitForEvent numEvents e clock = some (pure (sleeps, live))) ∧
      (¬(numEvents = 0 ∨ p.NotLate e live) → ∃ message, p.waitForEvent numEvents e clock = some (throw message)) := by
  obtain ⟨⟨sleeps, woken, left⟩, spun, enough⟩ : ∃ woken : List Int × Int × List Int,
      Pace.spin numEvents (p.scriptTimeToLiveTimeUsecs e.timeUsecs) clock = some woken ∧ woken.2.2 ≠ [] := by
    obtain ⟨before, now, behind, rfl, more, due⟩ := arrives
    exact spin_returns numEvents more due
  obtain ⟨due, waiting, rfl, slept⟩ := spin_spec spun
  have inside (sleep) (member : sleep ∈ sleeps) : ∃ t ∈ waiting ++ woken :: left,
      Pace.SleepsUntil (p.scriptTimeToLiveTimeUsecs e.timeUsecs) t sleep := by
    obtain ⟨t, early, ends⟩ := slept sleep member
    exact ⟨t, List.mem_append_left _ early, ends⟩
  by_cases none : numEvents = 0
  · subst none
    exact ⟨sleeps, woken, due, by simp, inside, fun _ => waitForEvent_first spun, fun late => absurd (.inl rfl) late⟩
  obtain ⟨live, rest, rfl⟩ := List.exists_cons_of_ne_nil enough
  have later := (List.pairwise_cons.mp (List.pairwise_append.mp rising).2.1).1 live List.mem_cons_self
  have started := Int.le_trans due later
  obtain ⟨passes, fails⟩ := checkEventTime_outcome known started tolerant
  rw [waitForEvent_checked (Nat.pos_of_ne_zero none) spun]
  refine ⟨sleeps, live, started, by simp, inside, fun fine => ?_, fun late => ?_⟩
  · rw [passes (fine.resolve_left none)]
    rfl
  · obtain ⟨message, failed⟩ := fails fun fine => late (.inr fine)
    exact ⟨message, by rw [failed]; rfl⟩

def plainPace : Pace := ⟨"a.pkt", 4000, 100, 0, rfl⟩

theorem waitForEvent_ends_command :
    ∃ sleeps live, plainPace.waitForEvent 1 ⟨1, 50, 0, 0, .absolute, .command⟩ [110, 151, 152] =
      some (pure (sleeps, live) : Check _) ∧ 150 ≤ live := by
  obtain ⟨sleeps, live, due, inside, -, passes, -⟩ :=
    waitForEvent_ends plainPace 1 ⟨1, 50, 0, 0, .absolute, .command⟩ [110, 151, 152] nofun (by decide) (by decide)
      ⟨[110], 151, [152], rfl, by decide, by decide⟩
  refine ⟨sleeps, live, passes (.inr (.inr ?_)), due⟩
  simp only [List.mem_cons, List.not_mem_nil, or_false] at inside
  rcases inside with rfl | rfl | rfl <;> decide

/-- A walk through a script: the script as far as its times are adjusted, the times when events have started and the
latest reading of the clock. -/
structure Walk where
  script : List TimedEvent
  started : List Int
  clock : Int

namespace Walk

/-- Outbound packets are sniffed at once. -/
def waits (e : TimedEvent) : Bool := e.event ≠ .packet .outbound

/-- How the event behind `n` others starts, at a reading of the clock or behind it. -/
inductive Starts (p : Pace) (n : Nat) (e : TimedEvent) (now : Int) : Int → Prop where
  | wait {live : Int} {readings sleeps : List Int} (waited : waits e) (rising : (now :: readings).Pairwise (· ≤ ·))
      (passed : p.waitForEvent n e readings = some (pure (sleeps, live) : Check _)) : Starts p n e now live
  | sniff (outbound : ¬waits e) : Starts p n e now now

inductive Step (p : Pace) (w : Walk) : Walk → Prop where
  | event {script : List TimedEvent} {e : TimedEvent} {now live clock : Int} (ticked : w.clock ≤ now)
      (fetched : adjustNext p.scriptPath p.liveStartTimeUsecs now w.started.length w.script = (pure script : Check _))
      (there : script[w.started.length]? = some e) (starts : Starts p w.started.length e now live) (left : live ≤ clock) :
      Step p w ⟨script, w.started ++ [live], clock⟩

def Run (p : Pace) : Walk → Walk → Prop := Relation.ReflTransGen (Step p)

/-- What holds of the event `e`, which the script has as `e₀`, when it starts at `live` behind a start at `last`. -/
structure Timely (p : Pace) (n : Nat) (e₀ e : TimedEvent) (last : Option Int) (live : Int) : Prop where
  due : waits e → p.liveStartTimeUsecs + e.timeUsecs ≤ live
  notLate : waits e → 0 < n → e.event ≠ .packet .invalid → 0 ≤ p.toleranceUsecs → p.NotLate e live
  behind : ∀ t ∈ last, t ≤ live
  apart : waits e → e₀.isRelative → ¬e₀.isEventStartTimeAnchored → ∀ t ∈ last, t + e₀.timeUsecs ≤ live

structure Inv (p : Pace) (script : List TimedEvent) (w : Walk) : Prop where
  rest : ∀ i, w.started.length ≤ i → w.script[i]? = script[i]?
  last : ∀ t ∈ w.started.getLast?, t ≤ w.clock
  timely : ∀ i live, w.started[i]? = some live → ∃ e₀ e, script[i]? = some e₀ ∧ w.script[i]? = some e ∧
    Timely p i e₀ e (w.started.take i).getLast? live

section Steps

variable {p : Pace} {original : List TimedEvent} {w w' : Walk} {e e₀ : TimedEvent} {now live : Int}

theorem adjust_apart (now start : Int) (last : Option TimedEvent) (relative : e₀.isRelative)
    (free : ¬e₀.isEventStartTimeAnchored) :
    (adjustRelativeEventTimes now start last e₀).timeUsecs = e₀.timeUsecs + (now - start) := by
  have kind : ¬(e₀.timeType ≠ .any ∧ e₀.timeType ≠ .relative ∧ e₀.timeType ≠ .relativeRange) := by
    simp only [TimedEvent.isRelative, decide_eq_true_eq] at relative
    tauto
  have base : relativeBase now start last e₀ = now - start := by cases last <;> simp [relativeBase, free]
  rw [adjustRelativeEventTimes, if_neg kind, base]

theorem Starts.timely {n : Nat} {last : Option Int} {before : Option TimedEvent} (starts : Starts p n e now live)
    (behind : ∀ t ∈ last, t ≤ now) (adjusted : e = adjustRelativeEventTimes now p.liveStartTimeUsecs before e₀) :
    Timely p n e₀ e last live := by
  cases starts with
  | sniff outbound =>
    exact ⟨fun waited => absurd waited outbound, fun waited => absurd waited outbound, behind,
      fun waited => absurd waited outbound⟩
  | wait waited rising passed =>
    obtain ⟨later, risen⟩ := List.pairwise_cons.mp rising
    obtain ⟨due, reading, checked⟩ := waitForEvent_start risen passed
    have start : p.liveStartTimeUsecs + e.timeUsecs ≤ live := by
      simpa [Pace.scriptTimeToLiveTimeUsecs, p.fromZero] using due
    refine ⟨fun _ => start, ?_, fun t at_last => Int.le_trans (behind t at_last) (later live reading), ?_⟩
    · intro _ positive known tolerant
      by_contra late
      obtain ⟨message, failed⟩ := (checkEventTime_outcome known due tolerant).2 late
      cases failed.symm.trans (checked positive)
    · intro _ relative free t at_last
      have := behind t at_last
      rw [adjusted, adjust_apart now p.liveStartTimeUsecs before relative free] at start
      omega

theorem Inv.step (inv : Inv p original w) (step : Step p w w') : Inv p original w' := by
  obtain ⟨ticked, fetched, there, starts, left⟩ := step
  obtain ⟨rfl, ended⟩ | rfl := adjustNext_cases fetched
  · cases ended.symm.trans there
  rw [List.getElem?_modify_eq] at there
  obtain ⟨e₀, found, adjusted⟩ := Option.map_eq_some_iff.mp there
  refine ⟨fun i behind => ?_, by simpa using left, fun i t at_i => ?_⟩
  · rw [List.length_append, List.length_singleton] at behind
    rw [List.getElem?_modify_ne _ _ (by omega)]
    exact inv.rest i (by omega)
  · rcases Nat.lt_trichotomy i w.started.length with before | rfl | behind
    · rw [List.getElem?_append_left before] at at_i
      rw [List.getElem?_modify_ne _ _ (by omega), List.take_append_of_le_length (by omega)]
      exact inv.timely i t at_i
    · rw [List.getElem?_concat_length] at at_i
      cases at_i
      refine ⟨e₀, _, (inv.rest _ (Nat.le_refl _)).symm.trans found, (List.getElem?_modify_eq _ _ _).trans there, ?_⟩
      rw [List.take_left]
      exact starts.timely (fun t at_last => Int.le_trans (inv.last t at_last) ticked) adjusted.symm
    · rw [List.getElem?_eq_none (by simp; omega)] at at_i
      cases at_i

theorem Inv.run {clock : Int} (run : Run p ⟨original, [], clock⟩ w) : Inv p original w := by
  induction run with
  | refl => exact ⟨fun _ _ => rfl, nofun, nofun⟩
  | tail _ step ih => exact ih.step step

end Steps

/-- Along every walk an event that is waited for starts no earlier than its time and, behind the first event, no later than
the tolerance allows; a relative time is kept from the start of the event before it. -/
theorem starts_timely (p : Pace) (script : List TimedEvent) (clock : Int) (w : Walk) (run : Run p ⟨script, [], clock⟩ w)
    (i : Nat) (live : Int) (started : w.started[i]? = some live) :
    ∃ e₀ e, script[i]? = some e₀ ∧ w.script[i]? = some e ∧ Timely p i e₀ e (w.started.take i).getLast? live :=
  (Inv.run run).timely i live started

/-- A command at the start, and one three microseconds behind it. -/
def twoCommands : List TimedEvent := [⟨1, 0, 0, 0, .absolute, .command⟩, ⟨2, 3, 0, 0, .relative, .command⟩]

theorem starts_timely_commands :
    ∃ w, Run plainPace ⟨twoCommands, [], 100⟩ w ∧ w.started = [105, 112] ∧
      ∃ e, w.script[1]? = some e ∧ 100 + e.timeUsecs ≤ 112 ∧ 105 + 3 ≤ (112 : Int) := by
  have first : Step plainPace ⟨twoCommands, [], 100⟩ ⟨twoCommands, [105], 106⟩ :=
    .event (Int.le_refl _) rfl rfl (.wait rfl (by decide : ((100 : Int) :: [105]).Pairwise (· ≤ ·)) rfl) (by decide)
  -- the relative time is now behind 107, the next reading
  have second : Step plainPace ⟨twoCommands, [105], 106⟩
      ⟨[⟨1, 0, 0, 0, .absolute, .command⟩, ⟨2, 10, 0, 7, .relative, .command⟩], [105, 112], 112⟩ :=
    .event (by decide : (106 : Int) ≤ 107) rfl rfl
      (.wait rfl (by decide : ((107 : Int) :: [108, 111, 112]).Pairwise (· ≤ ·)) rfl) (Int.le_refl _)
  have run : Run plainPace ⟨twoCommands, [], 100⟩ _ := .head first (.single second)
  obtain ⟨e₀, e, at_e₀, at_e, timely⟩ := starts_timely plainPace _ 100 _ run 1 112 rfl
  cases at_e₀
  cases at_e
  exact ⟨_, run, rfl, _, rfl, timely.due rfl, timely.apart rfl rfl (by decide) 105 rfl⟩

end Walk

end TcpFuzz.Wire
