import TcpFuzz.Syscall.Handlers
import TcpFuzz.Syscall.Thread

/-! `invoke_system_call`. For a blocking call the handler gives up the global lock in `begin_syscall` and takes it
back in `end_syscall`, and the thread that called it relies on both. -/

namespace TcpFuzz.Syscall

variable {α : Type} {result : Except String Unit}

/-- A scripted system call; its end time stands in the event. -/
structure SyscallSpec where
  name : String
  arguments : List Expression
  result : Expression
  /-- The name of the expected `errno`. -/
  error : Option String

inductive Bracket where
  | began
  | ended
deriving DecidableEq, Repr

/-- The state around a handler, with the calls of `begin_syscall` and `end_syscall` so far. -/
structure Context where
  session : Session
  syscalls : Syscalls
  /-- Whether the calling thread holds the global lock. -/
  locked : Bool
  brackets : List Bracket

abbrev Invocation := ExceptT String (StateT Context (Except Stop))

/-- A part of a handler does not touch `struct syscalls`. -/
def perform {α : Type} (routine : Routine α) : Invocation α :=
  ExceptT.mk fun c =>
    match routine.run.run c.session with
    | .error reason => .error reason
    | .ok (result, session) => .ok (result, { c with session })

def advance (step : Context → Except Stop Context) : Invocation Unit :=
  ExceptT.mk fun c =>
    match step c with
    | .error reason => .error reason
    | .ok c => .ok (.ok (), c)

def performEffect {α : Type} (effect : Effect α) : Invocation α := perform (ExceptT.lift effect)

section

variable (env : Environment) (event : Event) (syscall : SyscallSpec)

def beginContext (c : Context) : Except Stop Context :=
  match beginSyscall event c.syscalls with
  | none => .error (.fault .assertion)
  | some syscalls =>
    .ok { c with syscalls, locked := c.locked && !isBlockingSyscall event, brackets := c.brackets ++ [.began] }

def endContext (answer : Answer) (c : Context) : Except Stop Context :=
  if isBlockingSyscall event && c.locked then .error .deadlock
  else
    match endSyscall event answer.endUsecs c.syscalls with
    | none => .error (.fault .assertion)
    | some syscalls =>
      let fds := if isBlockingSyscall event then answer.meanwhile c.session.fds else c.session.fds
      .ok ⟨{ c.session with fds }, syscalls, c.locked || isBlockingSyscall event, c.brackets ++ [.ended]⟩

def checkResult (mode : ResultCheck) (answer : Answer) : Routine Unit := do
  let withErrno := s!"{answer.result} with errno {answer.errno} ({env.strerror answer.errno})"
  let expected ← getS32 syscall.result
  if mode = .fd ∧ 0 ≤ expected then
    if answer.result < 0 then throw ("Expected non-negative result but got " ++ withErrno)
  else if answer.result ≠ expected then throw (s!"Expected result {expected} but got " ++ withErrno)
  match syscall.error with
  | none => pure ()
  | some errnoMacro =>
    let expectedErrno ← liftExcept (symbolToInt env.platformSymbols errnoMacro)
    if answer.errno ≠ expectedErrno then
      throw (s!"Expected errno {s32 expectedErrno} ({env.strerror expectedErrno})" ++
        s!" but got {answer.errno} ({env.strerror answer.errno})")

def finishSyscall (mode : ResultCheck) (answer : Answer) : Invocation Unit := do
  performEffect (record (.syscallResult syscall.name answer.result))
  advance (endContext event answer)
  perform (checkResult env syscall mode answer)

def Handler.run {α : Type} (h : Handler α) (args : List Expression) : Invocation Unit := do
  let a ← perform (h.checks args)
  advance (beginContext event)
  let answer ← performEffect (h.call a)
  finishSyscall env event syscall h.mode answer
  perform (h.after a answer syscall.result)

def syscallSplice (args : List Expression) : Invocation Unit := do
  let c ← perform (spliceArgs args)
  let answer ← performEffect (live env c)
  finishSyscall env event syscall .exact answer

end

/-- An entry of the table, with the checks that its function makes before the live call. -/
structure SystemCallEntry where
  name : String
  Value : Type
  checks : List Expression → Routine Value
  function : Event → SyscallSpec → List Expression → Invocation Unit

def Handler.entry {α : Type} (env : Environment) (name : String) (h : Handler α) : SystemCallEntry where
  name
  Value := α
  checks := h.checks
  function event syscall := h.run env event syscall

def spliceEntry (env : Environment) : SystemCallEntry where
  name := "splice"
  Value := LiveCall
  checks := spliceArgs
  function := syscallSplice env

def systemCallTable (config : Config) (env : Environment) : List SystemCallEntry :=
  [(syscallSocket config env).entry env "socket",
    (syscallBind config env).entry env "bind",
    (syscallListen env).entry env "listen",
    (syscallAccept config env).entry env "accept",
    (syscallConnect config env).entry env "connect",
    (syscallRead env).entry env "read",
    (syscallReadv env).entry env "readv",
    (syscallRecv env).entry env "recv",
    (syscallRecvfrom env).entry env "recvfrom",
    (syscallRecvmsg env).entry env "recvmsg",
    (syscallWrite env).entry env "write",
    (syscallWritev env).entry env "writev",
    (syscallSend env).entry env "send",
    (syscallSendto config env).entry env "sendto",
    (syscallSendmsg config env).entry env "sendmsg",
    (syscallFcntl env).entry env "fcntl",
    (syscallIoctl config env).entry env "ioctl",
    (syscallClose env).entry env "close",
    (syscallShutdown env).entry env "shutdown",
    (syscallGetsockopt env).entry env "getsockopt",
    (syscallSetsockopt env).entry env "setsockopt",
    (syscallPoll env).entry env "poll",
    (syscallCapSet env).entry env "cap_set",
    (syscallOpen env).entry env "open",
    (syscallSendfile env).entry env "sendfile",
    (syscallEpollCreate env).entry env "epoll_create",
    (syscallEpollCtl env).entry env "epoll_ctl",
    (syscallEpollWait env).entry env "epoll_wait",
    (syscallPipe env).entry env "pipe",
    spliceEntry env]

/-- An error of the handler ends the process only with `checker`. -/
def invokeSystemCall (config : Config) (env : Environment) (event : Event) (syscall : SyscallSpec) (c : Context) :
    Except Stop Context :=
  let runtimeError (error : String) : Except Stop Context :=
    .error (.died (config.scriptPath ++ s!":{event.lineNumber}: runtime error in " ++ syscall.name ++ " call: " ++ error ++ "\n"))
  match (systemCallTable config env).find? (·.name == syscall.name) with
  | none => runtimeError ("Unknown system call: '" ++ syscall.name ++ "'")
  | some entry =>
    match (evaluateExpressionList env.platformSymbols syscall.arguments).run with
    | .error fault => .error (.fault fault)
    | .ok (.error error) => runtimeError error
    | .ok (.ok args) =>
      match (entry.function event syscall args).run.run c with
      | .error reason => .error reason
      | .ok (.error error, c) => if config.checker then runtimeError error else .ok c
      | .ok (.ok _, c) => .ok c

def IsInt (n : Int) : Prop := -2 ^ 31 ≤ n ∧ n < 2 ^ 31

instance (n : Int) : Decidable (IsInt n) := inferInstanceAs (Decidable (_ ∧ _))

/-- What a handler records: nothing before its live call, then the result, for `read` the data in
front of it and for `ioctl` the value behind it. -/
inductive Recorded (name : String) : List Recording → Prop
  | nothing : Recorded name []
  | result {actual : Int} (int : IsInt actual) (other : name ≠ "read") : Recorded name [.syscallResult name actual]
  | read {buf : Option (List UInt8)} {count : Int} (int : IsInt count) (isRead : name = "read") :
      Recorded name [.readResult buf count, .syscallResult name count]
  | ioctl {actual param : Int} (int : IsInt actual) (isIoctl : name = "ioctl") :
      Recorded name [.syscallResult name actual, .syscallResult "ioctl_param" param]

variable {config : Config} {env : Environment} {event : Event} {syscall : SyscallSpec}

theorem Invocation.bind_returns {β : Type} {m : Invocation α} {f : α → Invocation β} {c c' : Context} {result : Except String β}
    (returned : (m >>= f).run.run c = .ok (result, c')) :
    (∃ error, m.run.run c = .ok (.error error, c') ∧ result = .error error) ∨
      ∃ a next, m.run.run c = .ok (.ok a, next) ∧ (f a).run.run next = .ok (result, c') := by
  have unfolded : (m.run.run c >>= fun r => (ExceptT.bindCont f r.1).run r.2) = .ok (result, c') := returned
  cases ran : m.run.run c with
  | error reason => rw [ran] at unfolded; cases unfolded
  | ok r =>
    obtain ⟨outcome, next⟩ := r
    rw [ran] at unfolded
    cases outcome with
    | error error => cases unfolded; exact .inl ⟨error, rfl, rfl⟩
    | ok a => exact .inr ⟨a, next, rfl, unfolded⟩

theorem perform_returns {routine : Routine α} {c c' : Context} {result : Except String α}
    (returned : (perform routine).run.run c = .ok (result, c')) :
    ∃ session, routine.run.run c.session = .ok (result, session) ∧ c' = { c with session } := by
  have unfolded : (match routine.run.run c.session with
    | .error reason => .error reason
    | .ok (result, session) => .ok (result, { c with session }) : Except Stop _) = .ok (result, c') := returned
  cases ran : routine.run.run c.session with
  | error reason => rw [ran] at unfolded; cases unfolded
  | ok r => rw [ran] at unfolded; cases unfolded; exact ⟨_, rfl, rfl⟩

theorem performEffect_returns {effect : Effect α} {c c' : Context} {result : Except String α}
    (returned : (performEffect effect).run.run c = .ok (result, c')) :
    ∃ a session, result = .ok a ∧ c' = { c with session } := by
  obtain ⟨session, ran, rfl⟩ := perform_returns returned
  have unfolded : (effect.run c.session >>= fun r => .ok (.ok r.1, r.2)) = .ok (result, session) := ran
  cases stepped : effect.run c.session with
  | error reason => rw [stepped] at unfolded; cases unfolded
  | ok r => rw [stepped] at unfolded; cases unfolded; exact ⟨r.1, r.2, rfl, rfl⟩

theorem advance_returns {step : Context → Except Stop Context} {c c' : Context}
    (returned : (advance step).run.run c = .ok (result, c')) : result = .ok () ∧ step c = .ok c' := by
  have unfolded : (match step c with
    | .error reason => .error reason
    | .ok c => .ok (.ok (), c) : Except Stop _) = .ok (result, c') := returned
  cases stepped : step c with
  | error reason => rw [stepped] at unfolded; cases unfolded
  | ok next => rw [stepped] at unfolded; cases unfolded; exact ⟨rfl, rfl⟩

def Reports {α : Type} (routine : Routine α) (s : Session) : Prop :=
  ∃ error session, routine.run.run s = .ok (.error error, session)

/-- The thread is about to invoke a blocking call. -/
structure Ready (event : Event) (c : Context) : Prop where
  blocks : isBlockingSyscall event = true
  enqueued : c.syscalls.state = .enqueued
  locked : c.locked = true

/-- One `begin_syscall` and then one `end_syscall`, which the assertions of the thread look for. -/
structure Bracketed (before after : Context) : Prop where
  brackets : after.brackets = before.brackets ++ [.began, .ended]
  ended : 0 ≤ after.syscalls.liveEndUsecs
  done : after.syscalls.state = .done

def Ended (before after : Context) : Prop :=
  ∃ usecs : Nat, after.brackets = before.brackets ++ [.began, .ended] ∧
    after.syscalls = { before.syscalls with state := .done, liveEndUsecs := usecs }

theorem Ended.bracketed {before after : Context} (ended : Ended before after) : Bracketed before after := by
  obtain ⟨usecs, brackets, syscalls⟩ := ended
  refine ⟨brackets, ?_, ?_⟩
  · rw [syscalls]
    exact Int.natCast_nonneg usecs
  · rw [syscalls]

theorem Ended.perform {before after after' : Context} (ended : Ended before after) {routine : Routine α}
    {result : Except String α} (returned : (perform routine).run.run after = .ok (result, after')) : Ended before after' := by
  obtain ⟨session, -, rfl⟩ := perform_returns returned
  exact ended

/-- The context during a blocking call. -/
structure Calling (before c : Context) : Prop where
  unlocked : c.locked = false
  brackets : c.brackets = before.brackets ++ [.began]
  syscalls : c.syscalls = { before.syscalls with state := .running }

theorem Ready.begin {c c' : Context} (ready : Ready event c)
    (returned : (advance (beginContext event)).run.run c = .ok (result, c')) : result = .ok () ∧ Calling c c' := by
  obtain ⟨rfl, began⟩ := advance_returns returned
  rw [beginContext, beginSyscall, if_pos ready.blocks, if_pos ready.enqueued] at began
  cases began
  exact ⟨rfl, by simp [ready.blocks], rfl, rfl⟩

theorem Calling.end {before c c' : Context} (calling : Calling before c) (blocks : isBlockingSyscall event = true)
    {answer : Answer}
    (returned : (advance (endContext event answer)).run.run c = .ok (result, c')) : result = .ok () ∧ Ended before c' := by
  obtain ⟨rfl, ended⟩ := advance_returns returned
  rw [endContext, calling.unlocked, Bool.and_false, if_neg Bool.false_ne_true, endSyscall, if_pos blocks, calling.syscalls,
    if_pos rfl] at ended
  cases ended
  exact ⟨rfl, answer.endUsecs, by simp [calling.brackets], rfl⟩

theorem Calling.effect {before c c' : Context} (calling : Calling before c) {effect : Effect α}
    {result : Except String α} (returned : (performEffect effect).run.run c = .ok (result, c')) : Calling before c' := by
  obtain ⟨_, session, -, rfl⟩ := performEffect_returns returned
  exact ⟨calling.unlocked, calling.brackets, calling.syscalls⟩

theorem Calling.finish {before c c' : Context} (calling : Calling before c) (blocks : isBlockingSyscall event = true)
    {mode : ResultCheck} {answer : Answer}
    (returned : (finishSyscall env event syscall mode answer).run.run c = .ok (result, c')) : Ended before c' := by
  rcases Invocation.bind_returns returned with ⟨error, recorded, -⟩ | ⟨_, next, recorded, returned⟩
  · obtain ⟨_, _, failed, -⟩ := performEffect_returns recorded
    cases failed
  · have calling' := calling.effect recorded
    rcases Invocation.bind_returns returned with ⟨error, ended, -⟩ | ⟨_, next, ended, returned⟩
    · exact (calling'.end blocks ended).2
    · exact (calling'.end blocks ended).2.perform returned

theorem Handler.run_returns (h : Handler α) {args : List Expression} {c c' : Context} (ready : Ready event c)
    (returned : (h.run env event syscall args).run.run c = .ok (result, c')) :
    Reports (h.checks args) c.session ∨ Ended c c' := by
  rcases Invocation.bind_returns returned with ⟨error, checked, -⟩ | ⟨a, c₁, checked, returned⟩
  · obtain ⟨session, reported, -⟩ := perform_returns checked
    exact .inl ⟨error, session, reported⟩
  · right
    obtain ⟨session, -, rfl⟩ := perform_returns checked
    have ready' : Ready event { c with session } := ⟨ready.blocks, ready.enqueued, ready.locked⟩
    rcases Invocation.bind_returns returned with ⟨error, began, -⟩ | ⟨_, c₂, began, returned⟩
    · cases (ready'.begin began).1
    · have calling := (ready'.begin began).2
      rcases Invocation.bind_returns returned with ⟨error, called, -⟩ | ⟨answer, c₃, called, returned⟩
      · obtain ⟨_, _, failed, -⟩ := performEffect_returns called
        cases failed
      · have calling' := calling.effect called
        rcases Invocation.bind_returns returned with ⟨error, finished, -⟩ | ⟨_, c₄, finished, returned⟩
        · exact calling'.finish ready.blocks finished
        · exact (calling'.finish ready.blocks finished).perform returned

/-- A blocking `splice` whose arguments pass waits for the lock that its own thread holds. -/
theorem syscallSplice_returns {args : List Expression} {c c' : Context} (ready : Ready event c)
    (returned : (syscallSplice env event syscall args).run.run c = .ok (result, c')) :
    Reports (spliceArgs args) c.session := by
  rcases Invocation.bind_returns returned with ⟨error, checked, -⟩ | ⟨a, c₁, checked, returned⟩
  · obtain ⟨session, reported, -⟩ := perform_returns checked
    exact ⟨error, session, reported⟩
  · exfalso
    obtain ⟨session, -, rfl⟩ := perform_returns checked
    rcases Invocation.bind_returns returned with ⟨error, called, -⟩ | ⟨answer, c₂, called, returned⟩
    · obtain ⟨_, _, failed, -⟩ := performEffect_returns called
      cases failed
    · obtain ⟨_, session, -, rfl⟩ := performEffect_returns called
      rcases Invocation.bind_returns returned with ⟨error, recorded, -⟩ | ⟨_, c₃, recorded, returned⟩
      · obtain ⟨_, _, failed, -⟩ := performEffect_returns recorded
        cases failed
      · obtain ⟨_, session, -, rfl⟩ := performEffect_returns recorded
        have locks (result : Except String Unit) (c' : Context) :
            (advance (endContext event answer)).run.run { c with session } ≠ .ok (result, c') := by
          intro ended
          obtain ⟨-, ended⟩ := advance_returns ended
          simp [endContext, ready.blocks, ready.locked] at ended
        rcases Invocation.bind_returns returned with ⟨error, ended, -⟩ | ⟨_, c₄, ended, -⟩
        · exact locks _ _ ended
        · exact locks _ _ ended

theorem Ended.threadSteps {c c' : Context} (ended : Ended c c') (ready : Ready event c) {s : State}
    (pc : s.thread = .invoke event) (shared : s.syscalls = c.syscalls) :
    ∃ s₁ s₂, s.ThreadStep s₁ ∧ s₁.thread = .calling event ∧ s₁.syscalls.state = .running ∧ s₁.ThreadStep s₂ ∧
      s₂.thread = .returned event ∧ s₂.syscalls.state = .done ∧ s₂.syscalls = c'.syscalls ∧ ¬s₂.Aborts := by
  obtain ⟨usecs, -, syscalls⟩ := ended
  have begins : beginSyscall event s.syscalls = some { c.syscalls with state := .running } := by
    rw [shared, beginSyscall, if_pos ready.blocks, if_pos ready.enqueued]
  have ends : endSyscall event usecs { c.syscalls with state := .running } = some c'.syscalls := by
    rw [endSyscall, if_pos ready.blocks, if_pos rfl, syscalls]
  refine ⟨_, _, .begin event _ pc ready.blocks begins, rfl, rfl, .finish event usecs _ rfl rfl (Int.natCast_nonneg usecs) ends,
    rfl, congrArg Syscalls.state syscalls, rfl, ?_⟩
  intro aborts
  cases aborts with
  | notReached pc | noSyscall pc | begin _ pc | finish _ _ pc => cases pc
  | noEnd _ _ early =>
    rw [syscalls] at early
    exact absurd early (by simp)
  | notDone _ _ state =>
    rw [syscalls] at state
    exact state rfl

/-- What a handler of the table does on the system call thread. -/
structure SystemCallEntry.Sound (entry : SystemCallEntry) : Prop where
  returns : ∀ event syscall args c c' result, Ready event c →
    (entry.function event syscall args).run.run c = .ok (result, c') → Reports (entry.checks args) c.session ∨ Ended c c'
  reports : ∀ event syscall args c, Reports (entry.checks args) c.session →
    ∃ error session, (entry.function event syscall args).run.run c = .ok (.error error, { c with session })

theorem Invocation.bind_reports {routine : Routine α} {f : α → Invocation Unit} {c : Context}
    (reported : Reports routine c.session) :
    ∃ error session, (perform routine >>= f).run.run c = .ok (.error error, { c with session }) := by
  obtain ⟨error, session, reported⟩ := reported
  refine ⟨error, session, ?_⟩
  have performed : (perform routine).run.run c = .ok (.error error, { c with session }) := by
    change (match routine.run.run c.session with
      | .error reason => .error reason
      | .ok (result, session) => .ok (result, { c with session }) : Except Stop _) = _
    rw [reported]
  change ((perform routine).run.run c >>= fun r => (ExceptT.bindCont f r.1).run r.2) = _
  rw [performed]
  rfl

theorem Handler.entry_sound (name : String) (h : Handler α) : (h.entry env name).Sound where
  returns _ _ _ _ _ _ ready returned := h.run_returns ready returned
  reports _ _ _ _ reported := Invocation.bind_reports reported

theorem spliceEntry_sound : (spliceEntry env).Sound where
  returns _ _ _ _ _ _ ready returned := .inl (syscallSplice_returns ready returned)
  reports _ _ _ _ reported := Invocation.bind_reports reported

theorem systemCallTable_sound : ∀ entry ∈ systemCallTable config env, entry.Sound := by
  unfold systemCallTable
  repeat refine List.forall_mem_cons.mpr ⟨Handler.entry_sound _ _, ?_⟩
  exact List.forall_mem_singleton.mpr spliceEntry_sound

theorem find_name {table : List SystemCallEntry} (distinct : (table.map SystemCallEntry.name).Nodup) {entry : SystemCallEntry}
    (listed : entry ∈ table) : table.find? (·.name == entry.name) = some entry := by
  induction table with
  | nil => cases listed
  | cons first rest ih =>
    rw [List.map_cons, List.nodup_cons] at distinct
    rw [List.find?_cons]
    rcases List.mem_cons.mp listed with rfl | later
    · rw [beq_self_eq_true]
    · have other : first.name ≠ entry.name := by
        intro same
        apply distinct.1
        rw [same]
        exact List.mem_map_of_mem later
      rw [beq_false_of_ne other]
      exact ih distinct.2 later

theorem systemCallTable_names : ((systemCallTable config env).map SystemCallEntry.name).Nodup := by
  have names : (systemCallTable config env).map SystemCallEntry.name =
    ["socket", "bind", "listen", "accept", "connect", "read", "readv", "recv", "recvfrom", "recvmsg", "write", "writev",
      "send", "sendto", "sendmsg", "fcntl", "ioctl", "close", "shutdown", "getsockopt", "setsockopt", "poll", "cap_set",
      "open", "sendfile", "epoll_create", "epoll_ctl", "epoll_wait", "pipe", "splice"] := rfl
  rw [names]
  decide

/-- The arguments of a call do not pass the checks that its handler makes before the live call. -/
def SystemCallEntry.Refuses (entry : SystemCallEntry) (env : Environment) (syscall : SyscallSpec) (c : Context) : Prop :=
  ∃ args, (evaluateExpressionList env.platformSymbols syscall.arguments).run = .ok (.ok args) ∧
    Reports (entry.checks args) c.session

/-- A blocking call that returns to its thread was bracketed, exactly when an error of the handler
ends the process or its checks before the call report none. -/
theorem invokeSystemCall_bracketed_iff {entry : SystemCallEntry} (listed : entry ∈ systemCallTable config env)
    (named : syscall.name = entry.name) {c : Context} (ready : Ready event c) :
    (∀ c', invokeSystemCall config env event syscall c = .ok c' → Bracketed c c') ↔
      config.checker = true ∨ ¬entry.Refuses env syscall c := by
  have sound := systemCallTable_sound entry listed
  have found := find_name systemCallTable_names listed
  rw [← named] at found
  unfold invokeSystemCall
  rw [found]
  dsimp only
  constructor
  · intro bracketed
    by_contra neither
    obtain ⟨unchecked, refused⟩ := not_or.mp neither
    obtain ⟨args, evaluated, reported⟩ := not_not.mp refused
    obtain ⟨error, session, returned⟩ := sound.reports event syscall args c reported
    have same := bracketed { c with session } (by rw [evaluated]; dsimp only; rw [returned]; exact if_neg unchecked)
    simpa using same.brackets
  · intro condition c' returned
    cases evaluated : (evaluateExpressionList env.platformSymbols syscall.arguments).run with
    | error fault => rw [evaluated] at returned; cases returned
    | ok outcome =>
      rw [evaluated] at returned
      cases outcome with
      | error error => cases returned
      | ok args =>
        dsimp only at returned
        cases ran : (entry.function event syscall args).run.run c with
        | error reason => rw [ran] at returned; cases returned
        | ok r =>
          obtain ⟨result, next⟩ := r
          rw [ran] at returned
          have outcome := sound.returns event syscall args c next result ready ran
          cases result with
          | ok _ =>
            cases returned
            rcases outcome with reported | ended
            · obtain ⟨error, session, reported⟩ := sound.reports event syscall args c reported
              rw [reported] at ran
              cases ran
            · exact ended.bracketed
          | error error =>
            rcases condition with checked | passed
            · rw [checked] at returned
              cases returned
            · have ended := outcome.resolve_left fun reported => passed ⟨args, evaluated, reported⟩
              dsimp only at returned
              split at returned
              · cases returned
              · cases returned
                exact ended.bracketed

def plainAnswer (result : Int) : Answer where
  result
  errno := 0
  endUsecs := 0
  meanwhile := id
  peer := noEndpoint
  data := []
  msgFlags := 0
  cmsgs := .ok ()
  optval := 0
  optBytes := []
  optlen := 0
  revents _ := 0
  events := 0
  epollData := 0
  pipe := (0, 0)

def plainEnvironment : Environment where
  platformSymbols := []
  strerror _ := ""
  inetNtop _ := ""
  malloc _ := true
  socketInfo _ := ⟨0, 0, 0⟩
  capGetProc := true
  capSetFlag _ _ _ := 0
  capFree := 0
  kernel _ := plainAnswer 0

def plainConfig (checker : Bool) : Config where
  scriptPath := "script.pkt"
  socketDomain := 2
  wireProtocol := 2
  isWireClient := false
  liveBind := ⟨2, noEndpoint⟩
  liveConnect := ⟨2, noEndpoint⟩
  liveRemote := noEndpoint
  checker

def blockingRead : Event := ⟨.syscall, 1, 1000⟩

def readSeven : SyscallSpec := ⟨"read", [.integer 7, .ellipsis, .integer 10], .integer 0, none⟩

def enqueuedContext (fds : Fds) : Context := ⟨⟨fds, 0, []⟩, ⟨.enqueued, some blockingRead, -1⟩, true, []⟩

/-- Without `checker` a read from an unknown descriptor returns to the thread unbracketed. -/
theorem invokeSystemCall_unknown_fd : Ready blockingRead (enqueuedContext []) ∧
    invokeSystemCall (plainConfig false) plainEnvironment blockingRead readSeven (enqueuedContext []) = .ok (enqueuedContext []) ∧
      ¬Bracketed (enqueuedContext []) (enqueuedContext []) := by
  refine ⟨⟨rfl, rfl, rfl⟩, rfl, ?_⟩
  intro bracketed
  cases bracketed.brackets

def seventhFd : FdState := ⟨.socket .new noEndpoint, 7, 3, false⟩

theorem invokeSystemCall_known_fd : ∃ c',
    invokeSystemCall (plainConfig false) plainEnvironment blockingRead readSeven (enqueuedContext [seventhFd]) = .ok c' ∧
      Bracketed (enqueuedContext [seventhFd]) c' := by
  have passes : ¬((syscallRead plainEnvironment).entry plainEnvironment "read").Refuses plainEnvironment readSeven
      (enqueuedContext [seventhFd]) := by
    rintro ⟨args, evaluated, error, session, reported⟩
    cases evaluated
    cases reported
  have listed : (syscallRead plainEnvironment).entry plainEnvironment "read" ∈
      systemCallTable (plainConfig false) plainEnvironment := by
    simp [systemCallTable]
  have ready : Ready blockingRead (enqueuedContext [seventhFd]) := ⟨rfl, rfl, rfl⟩
  obtain ⟨c', returned⟩ : ∃ c', invokeSystemCall (plainConfig false) plainEnvironment blockingRead readSeven
      (enqueuedContext [seventhFd]) = .ok c' := ⟨_, rfl⟩
  exact ⟨c', returned, (invokeSystemCall_bracketed_iff listed rfl ready).mpr (.inr passes) c' returned⟩

/-- A handler whose checks report nothing calls `begin_syscall` and `end_syscall` once each: the thread goes into the call
and returns from it, done. -/
theorem handler_threadSteps {entry : SystemCallEntry} (listed : entry ∈ systemCallTable config env) {args : List Expression}
    {result : Except String Unit} {c c' : Context} (ready : Ready event c) (passes : ¬Reports (entry.checks args) c.session)
    (returned : (entry.function event syscall args).run.run c = .ok (result, c')) {s : State} (pc : s.thread = .invoke event)
    (shared : s.syscalls = c.syscalls) :
    c'.brackets = c.brackets ++ [.began, .ended] ∧
    ∃ s₁ s₂, s.ThreadStep s₁ ∧ s₁.thread = .calling event ∧ s₁.syscalls.state = .running ∧ s₁.ThreadStep s₂ ∧
      s₂.thread = .returned event ∧ s₂.syscalls.state = .done ∧ s₂.syscalls = c'.syscalls ∧ ¬s₂.Aborts := by
  have ended := ((systemCallTable_sound entry listed).returns _ _ _ _ _ _ ready returned).resolve_left passes
  exact ⟨ended.bracketed.brackets, ended.threadSteps ready pc shared⟩

def enqueuedState : State :=
  { State.new [] with syscalls := (enqueuedContext [seventhFd]).syscalls, thread := .invoke blockingRead }

theorem handler_threadSteps_read :
    ∃ s₁ s₂, enqueuedState.ThreadStep s₁ ∧ s₁.thread = .calling blockingRead ∧ s₁.ThreadStep s₂ ∧
      s₂.thread = .returned blockingRead ∧ s₂.syscalls.state = .done ∧ ¬s₂.Aborts := by
  have listed : (syscallRead plainEnvironment).entry plainEnvironment "read" ∈
      systemCallTable (plainConfig false) plainEnvironment := by
    simp [systemCallTable]
  have passes : ¬Reports (((syscallRead plainEnvironment).entry plainEnvironment "read").checks readSeven.arguments)
      (enqueuedContext [seventhFd]).session := by
    rintro ⟨error, session, reported⟩
    cases reported
  have ready : Ready blockingRead (enqueuedContext [seventhFd]) := ⟨rfl, rfl, rfl⟩
  obtain ⟨result, c', returned⟩ : ∃ result c', (((syscallRead plainEnvironment).entry plainEnvironment "read").function
      blockingRead readSeven readSeven.arguments).run.run (enqueuedContext [seventhFd]) = .ok (result, c') := ⟨_, _, rfl⟩
  obtain ⟨-, s₁, s₂, begins, calling, -, ends, returns, done, -, fine⟩ :=
    handler_threadSteps (s := enqueuedState) listed ready passes returned rfl rfl
  exact ⟨s₁, s₂, begins, calling, ends, returns, done, fine⟩

end TcpFuzz.Syscall
