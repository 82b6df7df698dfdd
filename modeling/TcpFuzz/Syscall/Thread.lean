import Mathlib.Logic.Relation
import Mathlib.Tactic.Common

/-! `run_system_call.c` runs a call that a script expects to block on a thread of its own. A thread that waits may
come back at any time, signalled or not, so the steps have no signals; where the code calls `die` there is no
next step. -/

namespace TcpFuzz.Syscall

inductive SyscallState where
  | idle
  | enqueued
  | running
  | done
  | exiting
deriving DecidableEq, Repr

inductive EventType where
  | packet
  | syscall
  | command
  | code
deriving DecidableEq, Repr

structure Event where
  type : EventType
  lineNumber : Nat
  endUsecs : Int
deriving DecidableEq, Repr

def syscallNonBlocking : Int := -1

def isBlockingSyscall (e : Event) : Bool := e.endUsecs != syscallNonBlocking

structure Syscalls where
  state : SyscallState
  event : Option Event
  liveEndUsecs : Int
deriving DecidableEq, Repr

/-! `begin_syscall` and `end_syscall` on the shared state; no result where an assertion fails. -/

def beginSyscall (e : Event) (s : Syscalls) : Option Syscalls :=
  if isBlockingSyscall e then
    if s.state = .enqueued then some { s with state := .running } else none
  else some s

def endSyscall (e : Event) (liveEndUsecs : Int) (s : Syscalls) : Option Syscalls :=
  if isBlockingSyscall e then
    if s.state = .running then some { s with liveEndUsecs, state := .done } else none
  else some s

inductive Thread where
  | main
  | syscall
deriving DecidableEq, Repr

inductive Goal where
  | enqueue (e : Event)
  | invoke (e : Event)
  | exit
deriving DecidableEq, Repr

inductive MainPc where
  | nextEvent
  | runEvent (e : Event)
  | awaitIdle (goal : Goal)
  | waitIdle (goal : Goal)
  | invoking
  | sleeping
  | awaitDequeued
  | waitDequeued
  | yielding
  | joining
  | joined
deriving DecidableEq, Repr

def MainPc.holds : MainPc → Bool
  | .waitIdle _ | .sleeping | .waitDequeued | .yielding | .joining => false
  | _ => true

/-- Where the system call thread is; a handler has been called from `invoke` until `returned`. -/
inductive ThreadPc where
  | starting
  | loop
  | waitEnqueued
  | invoke (e : Event)
  | sleeping (e : Event)
  | calling (e : Event)
  | returned (e : Event)
  | finished
deriving DecidableEq, Repr

def ThreadPc.holds : ThreadPc → Bool
  | .loop | .invoke _ | .returned _ => true
  | _ => false

/-- The shared state with both threads, and the blocking events that were enqueued, picked up and
executed so far. -/
structure State where
  lock : Option Thread
  syscalls : Syscalls
  event : Option Event
  script : List Event
  main : MainPc
  thread : ThreadPc
  enqueued : List Event
  picked : List Event
  executed : List Event

/-- `state_new` holds the lock while it creates the thread. -/
def State.new (script : List Event) : State where
  lock := some .main
  syscalls := ⟨.idle, none, 0⟩
  event := none
  script
  main := .nextEvent
  thread := .starting
  enqueued := []
  picked := []
  executed := []

namespace State

inductive MainStep (s : State) : State → Prop where
  | next (e : Event) (rest : List Event) (pc : s.main = .nextEvent) (left : s.script = e :: rest) :
      MainStep s { s with script := rest, event := some e, main := .runEvent e }
  | noneLeft (pc : s.main = .nextEvent) (left : s.script = []) :
      MainStep s { s with event := none, main := .awaitIdle .exit }
  | blocking (e : Event) (pc : s.main = .runEvent e) (call : e.type = .syscall) (blocks : isBlockingSyscall e = true) :
      MainStep s { s with main := .awaitIdle (.enqueue e) }
  | nonBlocking (e : Event) (pc : s.main = .runEvent e) (call : e.type = .syscall)
      (returns : isBlockingSyscall e = false) : MainStep s { s with main := .awaitIdle (.invoke e) }
  | otherEvent (e : Event) (pc : s.main = .runEvent e) (other : e.type ≠ .syscall) : MainStep s { s with main := .invoking }
  | waitIdle (goal : Goal) (pc : s.main = .awaitIdle goal) (busy : s.syscalls.state ≠ .idle) :
      MainStep s { s with lock := none, main := .waitIdle goal }
  | wakeIdle (goal : Goal) (pc : s.main = .waitIdle goal) (free : s.lock = none) :
      MainStep s { s with lock := some .main, main := .awaitIdle goal }
  /-- A time-out is an error only for a caller that looks at the result of `await_idle_thread`. -/
  | timedOut (e : Event) (pc : s.main = .waitIdle (.invoke e)) (free : s.lock = none) :
      MainStep s { s with lock := some .main, main := .invoking }
  | enqueue (e : Event) (pc : s.main = .awaitIdle (.enqueue e)) (idle : s.syscalls.state = .idle) :
      MainStep s { s with syscalls := { s.syscalls with state := .enqueued }, main := .awaitDequeued, enqueued := s.enqueued ++ [e] }
  | invoke (e : Event) (pc : s.main = .awaitIdle (.invoke e)) (idle : s.syscalls.state = .idle) :
      MainStep s { s with main := .invoking }
  | exit (pc : s.main = .awaitIdle .exit) (idle : s.syscalls.state = .idle) :
      MainStep s { s with syscalls := { s.syscalls with state := .exiting }, lock := none, main := .joining }
  /-- `wait_for_event` gives up the lock for a long wait. -/
  | sleep (pc : s.main = .invoking) : MainStep s { s with lock := none, main := .sleeping }
  | wake (pc : s.main = .sleeping) (free : s.lock = none) : MainStep s { s with lock := some .main, main := .invoking }
  | finishEvent (pc : s.main = .invoking) : MainStep s { s with main := .nextEvent }
  | waitDequeued (pc : s.main = .awaitDequeued) (still : s.syscalls.state = .enqueued) :
      MainStep s { s with lock := none, main := .waitDequeued }
  | wakeDequeued (pc : s.main = .waitDequeued) (free : s.lock = none) :
      MainStep s { s with lock := some .main, main := .awaitDequeued }
  | dequeued (pc : s.main = .awaitDequeued) (gone : s.syscalls.state ≠ .enqueued) :
      MainStep s { s with lock := none, main := .yielding }
  /-- The thread is asleep in its call, or idle again; otherwise the main thread yields once more. -/
  | yielded (asleep : Bool) (pc : s.main = .yielding) (free : s.lock = none)
      (finished : asleep = true ∨ s.syscalls.state = .idle) : MainStep s { s with lock := some .main, main := .nextEvent }
  | yieldAgain (pc : s.main = .yielding) (free : s.lock = none) (busy : s.syscalls.state ≠ .idle) : MainStep s s
  | join (pc : s.main = .joining) (finished : s.thread = .finished) (free : s.lock = none) :
      MainStep s { s with lock := some .main, main := .joined }

/-- A step of `system_call_thread`, whose handlers call `begin_syscall` and then `end_syscall` once
each. The time of day is not before the epoch. -/
inductive ThreadStep (s : State) : State → Prop where
  | start (pc : s.thread = .starting) (free : s.lock = none) : ThreadStep s { s with lock := some .syscall, thread := .loop }
  | wait (pc : s.thread = .loop) (idle : s.syscalls.state = .idle) :
      ThreadStep s { s with lock := none, thread := .waitEnqueued }
  | wakeUp (pc : s.thread = .waitEnqueued) (free : s.lock = none) :
      ThreadStep s { s with lock := some .syscall, thread := .loop }
  | pick (e : Event) (pc : s.thread = .loop) (ready : s.syscalls.state = .enqueued) (current : s.event = some e)
      (call : e.type = .syscall) :
      ThreadStep s { s with syscalls := { s.syscalls with event := some e, liveEndUsecs := -1 }, thread := .invoke e, picked := s.picked ++ [e] }
  | sleep (e : Event) (pc : s.thread = .invoke e) : ThreadStep s { s with lock := none, thread := .sleeping e }
  | wake (e : Event) (pc : s.thread = .sleeping e) (free : s.lock = none) :
      ThreadStep s { s with lock := some .syscall, thread := .invoke e }
  | begin (e : Event) (after : Syscalls) (pc : s.thread = .invoke e) (blocks : isBlockingSyscall e = true)
      (begins : beginSyscall e s.syscalls = some after) :
      ThreadStep s { s with syscalls := after, lock := none, thread := .calling e }
  | beginEnd (e : Event) (pc : s.thread = .invoke e) (returns : isBlockingSyscall e = false) :
      ThreadStep s { s with thread := .returned e }
  | finish (e : Event) (usecs : Int) (after : Syscalls) (pc : s.thread = .calling e) (free : s.lock = none)
      (epoch : 0 ≤ usecs) (ends : endSyscall e usecs s.syscalls = some after) :
      ThreadStep s { s with syscalls := after, lock := some .syscall, thread := .returned e }
  | becomeIdle (e : Event) (pc : s.thread = .returned e) (ended : 0 ≤ s.syscalls.liveEndUsecs) (done : s.syscalls.state = .done) :
      ThreadStep s { s with syscalls := ⟨.idle, none, -1⟩, thread := .loop, executed := s.executed ++ [e] }
  | exit (pc : s.thread = .loop) (told : s.syscalls.state = .exiting) :
      ThreadStep s { s with lock := none, thread := .finished }

inductive Aborts (s : State) : Prop where
  | notReached (pc : s.thread = .loop) (state : s.syscalls.state = .running ∨ s.syscalls.state = .done)
  | noSyscall (pc : s.thread = .loop) (ready : s.syscalls.state = .enqueued)
      (event : ∀ e, s.event = some e → e.type ≠ .syscall)
  | begin (e : Event) (pc : s.thread = .invoke e) (fails : beginSyscall e s.syscalls = none)
  | finish (e : Event) (usecs : Int) (pc : s.thread = .calling e) (fails : endSyscall e usecs s.syscalls = none)
  | noEnd (e : Event) (pc : s.thread = .returned e) (early : s.syscalls.liveEndUsecs < 0)
  | notDone (e : Event) (pc : s.thread = .returned e) (state : s.syscalls.state ≠ .done)

def Step (s s' : State) : Prop := s.MainStep s' ∨ s.ThreadStep s'

abbrev Run : State → State → Prop := Relation.ReflTransGen Step

end State

def ThreadPc.Unoccupied : ThreadPc → Prop
  | .starting | .loop | .waitEnqueued => True
  | _ => False

def MainPc.handsOver : MainPc → Bool
  | .awaitDequeued | .waitDequeued => true
  | _ => false

/-- The main thread holds the current event until it sees that it was picked up. -/
def MainPc.Offers (pc : MainPc) (event : Option Event) : Prop :=
  match pc with
  | .runEvent e => event = some e
  | .awaitIdle (.enqueue e) | .waitIdle (.enqueue e) => event = some e ∧ e.type = .syscall ∧ isBlockingSyscall e = true
  | _ => True

/-- Who owns the call in each state of the hand-over, and what was done so far. -/
def State.HandOver (s : State) : Prop :=
  match s.syscalls.state with
  | .idle => s.thread.Unoccupied ∧ s.picked = s.enqueued ∧ s.executed = s.enqueued
  | .enqueued =>
    (s.main = .awaitDequeued ∨ s.main = .waitDequeued) ∧
    ∃ e, s.event = some e ∧ e.type = .syscall ∧ isBlockingSyscall e = true ∧ s.enqueued = s.executed ++ [e] ∧
      (s.thread.Unoccupied ∧ s.picked = s.executed ∨
        (s.thread = .invoke e ∨ s.thread = .sleeping e) ∧ s.picked = s.enqueued)
  | .running => ∃ e, s.thread = .calling e ∧ isBlockingSyscall e = true ∧ s.picked = s.enqueued ∧ s.enqueued = s.executed ++ [e]
  | .done => ∃ e, s.thread = .returned e ∧ 0 ≤ s.syscalls.liveEndUsecs ∧ s.picked = s.enqueued ∧ s.enqueued = s.executed ++ [e]
  | .exiting => (s.thread.Unoccupied ∨ s.thread = .finished) ∧ s.picked = s.enqueued ∧ s.executed = s.enqueued

structure State.Inv (s : State) : Prop where
  mainLock : s.lock = some .main ↔ s.main.holds = true
  threadLock : s.lock = some .syscall ↔ s.thread.holds = true
  offers : s.main.Offers s.event
  handOver : s.HandOver

theorem State.Inv.new (script : List Event) : (State.new script).Inv :=
  ⟨by simp [State.new, MainPc.holds], by simp [State.new, ThreadPc.holds], trivial, trivial, rfl, rfl⟩

namespace State

variable {s s' : State}

theorem Inv.thread_waits (inv : s.Inv) (holds : s.main.holds = true) : s.thread.holds = false := by
  have mine := inv.mainLock.mpr holds
  have other := inv.threadLock
  rw [mine] at other
  simpa using other

theorem Inv.main_waits (inv : s.Inv) (holds : s.thread.holds = true) : s.main.holds = false := by
  have mine := inv.threadLock.mpr holds
  have other := inv.mainLock
  rw [mine] at other
  simpa using other

theorem Inv.free (inv : s.Inv) (free : s.lock = none) : s.main.holds = false ∧ s.thread.holds = false := by
  have mainLock := inv.mainLock
  have threadLock := inv.threadLock
  rw [free] at mainLock threadLock
  exact ⟨by simpa using mainLock, by simpa using threadLock⟩

theorem Inv.not_enqueued (inv : s.Inv) (left : s.main.handsOver = false) : s.syscalls.state ≠ .enqueued := by
  intro enqueued
  have handOver := inv.handOver
  rw [HandOver, enqueued] at handOver
  obtain pc | pc := handOver.1 <;> rw [pc] at left <;> cases left

theorem Inv.moveMain (inv : s.Inv) {lock : Option Thread} {event : Option Event} {script : List Event} {pc : MainPc}
    (waits : s.thread.holds = false) (locked : lock = if pc.holds then some .main else none) (offers : pc.Offers event)
    (stays : s.syscalls.state = .enqueued → (pc = .awaitDequeued ∨ pc = .waitDequeued) ∧ event = s.event) :
    ({ s with lock, event, script, main := pc } : State).Inv := by
  have handOver := inv.handOver
  refine ⟨?_, ?_, offers, ?_⟩
  · subst locked
    cases pc.holds <;> simp
  · subst locked
    rw [waits]
    cases pc.holds <;> simp
  · unfold HandOver at handOver ⊢
    cases state : s.syscalls.state with
    | enqueued =>
      rw [state] at handOver
      obtain ⟨place, rfl⟩ := stays state
      exact ⟨place, handOver.2⟩
    | _ => rw [state] at handOver; simpa [state] using handOver

section Main

variable {before after : MainPc} {event : Option Event} {script : List Event}

theorem Inv.keep (inv : s.Inv) (pc : s.main = before) (held : before.holds = true) (left : before.handsOver = false)
    (holds : after.holds = true) (offers : after.Offers event) : ({ s with event, script, main := after } : State).Inv := by
  subst pc
  refine inv.moveMain (inv.thread_waits held) ?_ offers (absurd · (inv.not_enqueued left))
  rw [if_pos holds]
  exact inv.mainLock.mpr held

theorem Inv.release (inv : s.Inv) (pc : s.main = before) (held : before.holds = true) (left : before.handsOver = false)
    (waits : after.holds = false) (offers : after.Offers s.event) : ({ s with lock := none, main := after } : State).Inv := by
  subst pc
  exact inv.moveMain (inv.thread_waits held) (by rw [waits]; rfl) offers (absurd · (inv.not_enqueued left))

theorem Inv.acquire (inv : s.Inv) (pc : s.main = before) (free : s.lock = none) (left : before.handsOver = false)
    (holds : after.holds = true) (offers : after.Offers s.event) :
    ({ s with lock := some .main, main := after } : State).Inv := by
  subst pc
  exact inv.moveMain (inv.free free).2 (by rw [holds]; rfl) offers (absurd · (inv.not_enqueued left))

end Main

theorem Inv.mainStep (inv : s.Inv) (step : s.MainStep s') : s'.Inv := by
  have handOver := inv.handOver
  have offers := inv.offers
  cases step with
  | next e rest pc left => exact inv.keep pc rfl rfl rfl rfl
  | noneLeft pc left => exact inv.keep pc rfl rfl rfl trivial
  | blocking e pc call blocks =>
    have current : s.event = some e := by simpa [pc, MainPc.Offers] using offers
    exact inv.keep pc rfl rfl rfl ⟨current, call, blocks⟩
  | nonBlocking e pc call returns => exact inv.keep pc rfl rfl rfl trivial
  | otherEvent e pc other => exact inv.keep pc rfl rfl rfl trivial
  | waitIdle goal pc busy =>
    rw [pc] at offers
    exact inv.release pc rfl rfl rfl (by cases goal <;> exact offers)
  | wakeIdle goal pc free =>
    rw [pc] at offers
    exact inv.acquire pc free rfl rfl (by cases goal <;> exact offers)
  | timedOut e pc free => exact inv.acquire pc free rfl rfl trivial
  | enqueue e pc idle =>
    rw [pc] at offers
    rw [HandOver, idle] at handOver
    obtain ⟨current, call, blocks⟩ := offers
    obtain ⟨unoccupied, picked, executed⟩ := handOver
    have waits := inv.thread_waits (by rw [pc]; rfl)
    have mine := inv.mainLock.mpr (by rw [pc]; rfl)
    refine ⟨by simp [mine, MainPc.holds], by simp [mine, waits], trivial, .inl rfl, e, current, call, blocks, ?_, .inl ⟨unoccupied, ?_⟩⟩
    · simp [executed]
    · exact picked.trans executed.symm
  | invoke e pc idle => exact inv.keep pc rfl rfl rfl trivial
  | exit pc idle =>
    rw [HandOver, idle] at handOver
    have waits := inv.thread_waits (by rw [pc]; rfl)
    exact ⟨by simp [MainPc.holds], by simp [waits], trivial, .inl handOver.1, handOver.2⟩
  | sleep pc => exact inv.release pc rfl rfl rfl trivial
  | wake pc free => exact inv.acquire pc free rfl rfl trivial
  | finishEvent pc => exact inv.keep pc rfl rfl rfl trivial
  | waitDequeued pc still =>
    exact inv.moveMain (inv.thread_waits (by rw [pc]; rfl)) rfl trivial (fun _ => ⟨.inr rfl, rfl⟩)
  | wakeDequeued pc free => exact inv.moveMain (inv.free free).2 rfl trivial (fun _ => ⟨.inl rfl, rfl⟩)
  | dequeued pc gone => exact inv.moveMain (inv.thread_waits (by rw [pc]; rfl)) rfl trivial (absurd · gone)
  | yielded asleep pc free finished => exact inv.acquire pc free rfl rfl trivial
  | yieldAgain pc free busy => exact inv
  | join pc finished free => exact inv.acquire pc free rfl rfl trivial

theorem Inv.moveThread (inv : s.Inv) {lock : Option Thread} {syscalls : Syscalls} {pc : ThreadPc} {picked executed : List Event}
    (waits : s.main.holds = false) (locked : lock = if pc.holds then some .syscall else none)
    (handOver : ({ s with lock, syscalls, thread := pc, picked, executed } : State).HandOver) :
    ({ s with lock, syscalls, thread := pc, picked, executed } : State).Inv := by
  refine ⟨?_, ?_, inv.offers, handOver⟩
  · subst locked
    rw [waits]
    cases pc.holds <;> simp
  · subst locked
    cases pc.holds <;> simp

theorem HandOver.moveIdle {lock : Option Thread} {pc : ThreadPc} (handOver : s.HandOver)
    (before : s.thread.Unoccupied) (after : pc.Unoccupied) : ({ s with lock, thread := pc } : State).HandOver := by
  unfold HandOver at handOver ⊢
  cases state : s.syscalls.state with
  | idle => rw [state] at handOver; simpa [state, after] using handOver.2
  | enqueued =>
    rw [state] at handOver
    obtain ⟨place, e, current, call, blocks, last, progress⟩ := handOver
    refine ⟨place, e, current, call, blocks, last, ?_⟩
    obtain ⟨-, picked⟩ | ⟨occupied | occupied, -⟩ := progress
    · exact .inl ⟨after, picked⟩
    · rw [occupied] at before; exact before.elim
    · rw [occupied] at before; exact before.elim
  | running =>
    rw [state] at handOver
    obtain ⟨e, occupied, -⟩ := handOver
    rw [occupied] at before
    exact before.elim
  | done =>
    rw [state] at handOver
    obtain ⟨e, occupied, -⟩ := handOver
    rw [occupied] at before
    exact before.elim
  | exiting => rw [state] at handOver; exact ⟨.inl after, handOver.2⟩

theorem Inv.invoking (inv : s.Inv) {e : Event} (pc : s.thread = .invoke e ∨ s.thread = .sleeping e) :
    s.syscalls.state = .enqueued ∧ (s.main = .awaitDequeued ∨ s.main = .waitDequeued) ∧ s.event = some e ∧
      e.type = .syscall ∧ isBlockingSyscall e = true ∧ s.enqueued = s.executed ++ [e] ∧ s.picked = s.enqueued := by
  have handOver := inv.handOver
  unfold HandOver at handOver
  cases state : s.syscalls.state with
  | enqueued =>
    rw [state] at handOver
    obtain ⟨place, e', current, call, blocks, last, ⟨idle, -⟩ | ⟨mine, picked⟩⟩ := handOver
    · obtain pc | pc := pc <;> rw [pc] at idle <;> exact idle.elim
    · obtain rfl : e' = e := by
        obtain pc | pc := pc <;> obtain mine | mine := mine <;> rw [pc] at mine <;> cases mine <;> rfl
      exact ⟨rfl, place, current, call, blocks, last, picked⟩
  | _ => rw [state] at handOver; obtain pc | pc := pc <;> simp [pc, ThreadPc.Unoccupied] at handOver

theorem Inv.calling (inv : s.Inv) {e : Event} (pc : s.thread = .calling e) :
    s.syscalls.state = .running ∧ isBlockingSyscall e = true ∧ s.picked = s.enqueued ∧ s.enqueued = s.executed ++ [e] := by
  have handOver := inv.handOver
  unfold HandOver at handOver
  cases state : s.syscalls.state <;> rw [state] at handOver <;> simp [pc, ThreadPc.Unoccupied] at handOver
  exact ⟨rfl, handOver⟩

theorem Inv.returned (inv : s.Inv) {e : Event} (pc : s.thread = .returned e) :
    s.syscalls.state = .done ∧ 0 ≤ s.syscalls.liveEndUsecs ∧ s.picked = s.enqueued ∧ s.enqueued = s.executed ++ [e] := by
  have handOver := inv.handOver
  unfold HandOver at handOver
  cases state : s.syscalls.state <;> rw [state] at handOver <;> simp [pc, ThreadPc.Unoccupied] at handOver
  exact ⟨rfl, handOver⟩

theorem Inv.threadStep (inv : s.Inv) (step : s.ThreadStep s') : s'.Inv := by
  have handOver := inv.handOver
  have locked : s.thread.holds = true → s.lock = some .syscall := inv.threadLock.mpr
  cases step with
  | start pc free =>
    exact inv.moveThread (inv.free free).1 rfl (handOver.moveIdle (by rw [pc]; trivial) trivial)
  | wait pc idle =>
    exact inv.moveThread (inv.main_waits (by rw [pc]; rfl)) rfl (handOver.moveIdle (by rw [pc]; trivial) trivial)
  | wakeUp pc free =>
    exact inv.moveThread (inv.free free).1 rfl (handOver.moveIdle (by rw [pc]; trivial) trivial)
  | pick e pc ready current call =>
    rw [HandOver, ready] at handOver
    obtain ⟨place, e', current', call', blocks, last, progress⟩ := handOver
    obtain rfl : e' = e := Option.some.inj (current'.symm.trans current)
    obtain ⟨-, picked⟩ | ⟨occupied | occupied, -⟩ := progress
    · refine inv.moveThread (inv.main_waits (by rw [pc]; rfl)) (locked (by rw [pc]; rfl)) ?_
      rw [HandOver, ready]
      exact ⟨place, e', current, call, blocks, last, .inr ⟨.inl rfl, by rw [picked, last]⟩⟩
    · rw [pc] at occupied; cases occupied
    · rw [pc] at occupied; cases occupied
  | sleep e pc =>
    obtain ⟨ready, place, current, call, blocks, last, picked⟩ := inv.invoking (.inl pc)
    refine inv.moveThread (inv.main_waits (by rw [pc]; rfl)) rfl ?_
    rw [HandOver, ready]
    exact ⟨place, e, current, call, blocks, last, .inr ⟨.inr rfl, picked⟩⟩
  | wake e pc free =>
    obtain ⟨ready, place, current, call, blocks, last, picked⟩ := inv.invoking (.inr pc)
    refine inv.moveThread (inv.free free).1 rfl ?_
    rw [HandOver, ready]
    exact ⟨place, e, current, call, blocks, last, .inr ⟨.inl rfl, picked⟩⟩
  | begin e after pc blocks begins =>
    obtain ⟨ready, place, current, call, -, last, picked⟩ := inv.invoking (.inl pc)
    rw [beginSyscall, if_pos blocks, if_pos ready, Option.some.injEq] at begins
    subst begins
    exact inv.moveThread (inv.main_waits (by rw [pc]; rfl)) rfl ⟨e, rfl, blocks, picked, last⟩
  | beginEnd e pc returns =>
    obtain ⟨-, -, -, -, blocks, -⟩ := inv.invoking (.inl pc)
    rw [blocks] at returns
    cases returns
  | finish e usecs after pc free epoch ends =>
    obtain ⟨running, blocks, picked, last⟩ := inv.calling pc
    rw [endSyscall, if_pos blocks, if_pos running, Option.some.injEq] at ends
    subst ends
    exact inv.moveThread (inv.free free).1 rfl ⟨e, rfl, epoch, picked, last⟩
  | becomeIdle e pc ended done =>
    obtain ⟨-, -, picked, last⟩ := inv.returned pc
    exact inv.moveThread (inv.main_waits (by rw [pc]; rfl)) (locked (by rw [pc]; rfl)) ⟨trivial, picked, last.symm⟩
  | exit pc told =>
    rw [HandOver, told] at handOver
    refine inv.moveThread (inv.main_waits (by rw [pc]; rfl)) rfl ?_
    rw [HandOver, told]
    exact ⟨.inr rfl, handOver.2⟩

theorem Inv.run (inv : s.Inv) (run : Run s s') : s'.Inv := by
  induction run with
  | refl => exact inv
  | tail _ step ih => exact step.elim ih.mainStep ih.threadStep

theorem Inv.not_aborts (inv : s.Inv) : ¬ s.Aborts := by
  have handOver := inv.handOver
  intro aborts
  cases aborts with
  | notReached pc state =>
    obtain state | state := state <;> rw [HandOver, state] at handOver <;> obtain ⟨e, occupied, -⟩ := handOver <;>
      rw [pc] at occupied <;> cases occupied
  | noSyscall pc ready event =>
    rw [HandOver, ready] at handOver
    obtain ⟨-, e, current, call, -⟩ := handOver
    exact event e current call
  | begin e pc fails =>
    obtain ⟨ready, -, -, -, blocks, -⟩ := inv.invoking (.inl pc)
    simp [beginSyscall, ready, blocks] at fails
  | finish e usecs pc fails =>
    obtain ⟨running, blocks, -⟩ := inv.calling pc
    simp [endSyscall, running, blocks] at fails
  | noEnd e pc early =>
    obtain ⟨-, ended, -⟩ := inv.returned pc
    exact absurd ended (by omega)
  | notDone e pc state =>
    obtain ⟨done, -⟩ := inv.returned pc
    exact state done

theorem Inv.history (inv : s.Inv) : s.picked <+: s.enqueued ∧ s.executed <+: s.picked := by
  have handOver := inv.handOver
  unfold HandOver at handOver
  cases state : s.syscalls.state <;> rw [state] at handOver
  case idle => rw [handOver.2.1, handOver.2.2]; exact ⟨List.prefix_refl _, List.prefix_refl _⟩
  case enqueued =>
    obtain ⟨-, e, -, -, -, last, ⟨-, picked⟩ | ⟨-, picked⟩⟩ := handOver
    · rw [picked, last]; exact ⟨List.prefix_append .., List.prefix_refl _⟩
    · rw [picked, last]; exact ⟨List.prefix_refl _, List.prefix_append ..⟩
  case running =>
    obtain ⟨e, -, -, picked, last⟩ := handOver
    rw [picked, last]
    exact ⟨List.prefix_refl _, List.prefix_append ..⟩
  case done =>
    obtain ⟨e, -, -, picked, last⟩ := handOver
    rw [picked, last]
    exact ⟨List.prefix_refl _, List.prefix_append ..⟩
  case exiting => rw [handOver.2.1, handOver.2.2]; exact ⟨List.prefix_refl _, List.prefix_refl _⟩

end State

inductive SyscallState.Moves : SyscallState → SyscallState → Prop where
  | enqueue : Moves .idle .enqueued
  | begin : Moves .enqueued .running
  | finish : Moves .running .done
  | becomeIdle : Moves .done .idle
  | exit : Moves .idle .exiting

namespace State

variable {s s' : State}

theorem Inv.moves (inv : s.Inv) (step : s.Step s') :
    s'.syscalls.state = s.syscalls.state ∨ s.syscalls.state.Moves s'.syscalls.state := by
  obtain step | step := step
  · cases step with
    | enqueue e pc idle => rw [idle]; exact .inr .enqueue
    | exit pc idle => rw [idle]; exact .inr .exit
    | _ => exact .inl rfl
  · cases step with
    | begin e after pc blocks begins =>
      obtain ⟨ready, -⟩ := inv.invoking (.inl pc)
      rw [beginSyscall, if_pos blocks, if_pos ready, Option.some.injEq] at begins
      subst begins
      rw [ready]
      exact .inr .begin
    | finish e usecs after pc free epoch ends =>
      obtain ⟨running, blocks, -⟩ := inv.calling pc
      rw [endSyscall, if_pos blocks, if_pos running, Option.some.injEq] at ends
      subst ends
      rw [running]
      exact .inr .finish
    | becomeIdle e pc ended done => rw [done]; exact .inr .becomeIdle
    | _ => exact .inl rfl

theorem Inv.enqueues (inv : s.Inv) (step : s.Step s') :
    s'.enqueued = s.enqueued ∨
      ∃ e, s'.enqueued = s.enqueued ++ [e] ∧ s.event = some e ∧ isBlockingSyscall e = true ∧ s.executed = s.enqueued := by
  have handOver := inv.handOver
  have offers := inv.offers
  obtain step | step := step
  · cases step with
    | enqueue e pc idle =>
      rw [pc] at offers
      rw [HandOver, idle] at handOver
      exact .inr ⟨e, rfl, offers.1, offers.2.2, handOver.2.2⟩
    | _ => exact .inl rfl
  · cases step <;> exact .inl rfl

theorem Inv.exits (inv : s.Inv) (told : s.syscalls.state = .exiting) : s.executed = s.enqueued := by
  have handOver := inv.handOver
  rw [HandOver, told] at handOver
  exact handOver.2.2

end State

/-- In every interleaving no assertion fails; each blocking event is picked up and executed in the
order in which it was enqueued, all of them before another is enqueued or the thread is told to
exit; and the state makes only the moves of the hand-over. -/
theorem blocking_syscall_protocol (script : List Event) (s : State) (run : State.Run (State.new script) s) :
    ¬ s.Aborts ∧ s.picked <+: s.enqueued ∧ s.executed <+: s.picked ∧
    (s.syscalls.state = .exiting → s.executed = s.enqueued) ∧
    ∀ s', s.Step s' →
      (s'.syscalls.state = s.syscalls.state ∨ s.syscalls.state.Moves s'.syscalls.state) ∧
      (s'.enqueued = s.enqueued ∨
        ∃ e, s'.enqueued = s.enqueued ++ [e] ∧ s.event = some e ∧ isBlockingSyscall e = true ∧ s.executed = s.enqueued) := by
  have inv := (State.Inv.new script).run run
  exact ⟨inv.not_aborts, inv.history.1, inv.history.2, inv.exits, fun s' step => ⟨inv.moves step, inv.enqueues step⟩⟩

/-- One call is executed before the next one is enqueued. -/
theorem blocking_syscall_protocol_two :
    ∃ s : State, State.Run (State.new [⟨.syscall, 1, 5⟩, ⟨.syscall, 2, 9⟩]) s ∧ s.enqueued = [⟨.syscall, 1, 5⟩, ⟨.syscall, 2, 9⟩] ∧
      s.executed = [⟨.syscall, 1, 5⟩] ∧ s.syscalls.state = .enqueued ∧ ¬ s.Aborts := by
  have run : State.Run (State.new [⟨.syscall, 1, 5⟩, ⟨.syscall, 2, 9⟩]) ⟨some .main, ⟨.enqueued, none, -1⟩, some ⟨.syscall, 2, 9⟩, [],
      .awaitDequeued, .waitEnqueued, [⟨.syscall, 1, 5⟩, ⟨.syscall, 2, 9⟩], [⟨.syscall, 1, 5⟩], [⟨.syscall, 1, 5⟩]⟩ := by
    refine .head (.inl (.next _ _ rfl rfl)) (.head (.inl (.blocking _ rfl rfl rfl)) (.head (.inl (.enqueue _ rfl rfl)) ?_))
    -- the main thread waits, and the other one takes the call
    refine .head (.inl (.waitDequeued rfl rfl)) (.head (.inr (.start rfl rfl)) (.head (.inr (.pick _ rfl rfl rfl rfl)) ?_))
    refine .head (.inr (.begin _ _ rfl rfl rfl)) (.head (.inl (.wakeDequeued rfl rfl)) (.head (.inl (.dequeued rfl nofun)) ?_))
    refine .head (.inr (.finish _ 7 _ rfl rfl (by decide) rfl)) (.head (.inr (.becomeIdle _ rfl (by decide) rfl)) ?_)
    refine .head (.inr (.wait rfl rfl)) (.head (.inl (.yielded true rfl rfl (.inl rfl))) ?_)
    exact .head (.inl (.next _ _ rfl rfl)) (.head (.inl (.blocking _ rfl rfl rfl)) (.single (.inl (.enqueue _ rfl rfl))))
  exact ⟨_, run, rfl, rfl, rfl, (blocking_syscall_protocol _ _ run).1⟩

end TcpFuzz.Syscall
