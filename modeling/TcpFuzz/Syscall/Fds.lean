import Mathlib.Data.List.Pairwise
import TcpFuzz.Live.Socket

/-! The table of `run_system_call.c` that maps the file descriptors of a script to live ones. A handler that reports
an error has not changed it. -/

namespace TcpFuzz

variable {scriptFd liveFd : Int} {isWireClient : Bool}

inductive FdKind where
  | socket (state : SocketPhase) (remote : Endpoint)
  | file
  | pipe
  | epoll
deriving DecidableEq

/-- `struct fd_state` with what the handlers read of the socket around it. -/
structure FdState where
  kind : FdKind
  scriptFd : Int
  liveFd : Int
  isClosed : Bool
deriving DecidableEq

/-- `state->fds`, latest entry first. -/
abbrev Fds := List FdState

def foundFd (found : Option FdState) : Run (Option FdState) :=
  match found with
  | none => .ok none
  | some fd => do
    assertThat (0 ≤ fd.liveFd)
    assertThat (0 ≤ fd.scriptFd)
    return some fd

/-- The search does not look at `is_closed`. -/
def findByScriptFd (fds : Fds) (scriptFd : Int) : Run (Option FdState) :=
  foundFd (fds.find? fun fd => fd.scriptFd == scriptFd)

def findByLiveFd (fds : Fds) (liveFd : Int) : Run (Option FdState) :=
  foundFd (fds.find? fun fd => !fd.isClosed && fd.liveFd == liveFd)

def checkDuplicateFd (fds : Fds) (scriptFd liveFd : Int) : Run (Option String) := do
  if (← findByScriptFd fds scriptFd).isSome then return some s!"duplicate fd {scriptFd} in script"
  if (← findByLiveFd fds liveFd).isSome then return some s!"duplicate live fd {liveFd}"
  return none

abbrev FdHandler := Run (Except String Fds)

def createFd (kind : FdKind) (fds : Fds) (scriptFd liveFd : Int) : FdHandler := do
  match ← checkDuplicateFd fds scriptFd liveFd with
  | some error => return .error error
  | none => return .ok (⟨kind, scriptFd, liveFd, false⟩ :: fds)

def runSyscallOpen : Fds → Int → Int → FdHandler := createFd .file

def runSyscallEpollCreate : Fds → Int → Int → FdHandler := createFd .epoll

def noEndpoint : Endpoint := ⟨Vector.replicate 16 0, 0⟩

def runSyscallSocket (fds : Fds) (scriptFd liveFd : Int) : FdHandler :=
  if scriptFd < 0 then .ok (.error s!"invalid socket fd {scriptFd} in script")
  else if liveFd < 0 then .ok (.error s!"invalid live socket fd {liveFd}")
  else createFd (.socket .new noEndpoint) fds scriptFd liveFd

def runSyscallPipe (fds : Fds) (script live : Int × Int) : FdHandler := do
  match ← checkDuplicateFd fds script.1 live.1 with
  | some error => return .error error
  | none =>
    match ← checkDuplicateFd fds script.2 live.2 with
    | some error => return .error error
    | none => return .ok (⟨.pipe, script.2, live.2, false⟩ :: ⟨.pipe, script.1, live.1, false⟩ :: fds)

def runSyscallClose (fds : Fds) (scriptFd liveFd : Int) : FdHandler := do
  let missing := Except.error s!"unable to find fd with script fd {scriptFd} and live fd {liveFd}"
  match ← findByScriptFd fds scriptFd with
  | none => return missing
  | some fd =>
    if fd.liveFd ≠ liveFd then return missing
    else return .ok (fds.replaceF fun fd => if fd.scriptFd = scriptFd then some { fd with isClosed := true } else none)

def acceptable (fd : FdState) : Option Endpoint :=
  match fd.kind with
  | .socket .passiveSynackSent remote | .socket .passiveSynackAcked remote => some remote
  | _ => none

def acceptFd (scriptFd liveFd : Int) (fd : FdState) : Option FdState :=
  (acceptable fd).map fun _ => { fd with scriptFd, liveFd }

def runSyscallAccept (isWireClient : Bool) (fds : Fds) (scriptFd liveFd : Int) (peer : Endpoint) : FdHandler :=
  match fds.findSome? acceptable with
  | some remote => do
    assertThat (remote = peer)
    return .ok (fds.replaceF (acceptFd scriptFd liveFd))
  | none =>
    if !isWireClient then .ok (.error "unable to find socket matching accept() call")
    else .ok (.ok (⟨.socket .init peer, scriptFd, liveFd, false⟩ :: fds))

/-- A call of a handler, or what packets and other calls do to the sockets of the table. -/
inductive FdOp where
  | socket (scriptFd liveFd : Int)
  | open (scriptFd liveFd : Int)
  | accept (scriptFd liveFd : Int) (peer : Endpoint)
  | epollCreate (scriptFd liveFd : Int)
  | pipe (script live : Int × Int)
  | close (scriptFd liveFd : Int)
  | incomingSyn (remote : Endpoint)
  | setPhase (index : Nat) (state : SocketPhase)

def FdState.setPhase (state : SocketPhase) (fd : FdState) : FdState :=
  match fd.kind with
  | .socket _ remote => { fd with kind := .socket state remote }
  | _ => fd

def fdStep (isWireClient : Bool) (fds : Fds) : FdOp → FdHandler
  | .socket scriptFd liveFd => runSyscallSocket fds scriptFd liveFd
  | .open scriptFd liveFd => runSyscallOpen fds scriptFd liveFd
  | .accept scriptFd liveFd peer => runSyscallAccept isWireClient fds scriptFd liveFd peer
  | .epollCreate scriptFd liveFd => runSyscallEpollCreate fds scriptFd liveFd
  | .pipe script live => runSyscallPipe fds script live
  | .close scriptFd liveFd => runSyscallClose fds scriptFd liveFd
  | .incomingSyn remote => .ok (.ok (⟨.socket .passivePacketReceived remote, -1, -1, false⟩ :: fds))
  | .setPhase index state => .ok (.ok (fds.modify index (FdState.setPhase state)))

def runFdStep (isWireClient : Bool) (fds : Fds) (op : FdOp) : Run Fds := do
  match ← fdStep isWireClient fds op with
  | .ok fds => return fds
  | .error _ => return fds

/-- Two entries share no non-negative script fd, and no non-negative live fd while both are open. -/
def FdState.Apart (a b : FdState) : Prop :=
  (0 ≤ a.scriptFd → a.scriptFd ≠ b.scriptFd) ∧
  (a.isClosed = false → b.isClosed = false → 0 ≤ a.liveFd → a.liveFd ≠ b.liveFd)

theorem FdState.Apart.symm {a b : FdState} (apart : a.Apart b) : b.Apart a := by
  obtain ⟨script, live⟩ := apart
  constructor
  · intro valid same
    exact script (same ▸ valid) same.symm
  · intro openB openA valid same
    exact live openA openB (same ▸ valid) same.symm

abbrev Fds.Apart (fds : Fds) : Prop := fds.Pairwise FdState.Apart

def Fds.Free (fds : Fds) (scriptFd liveFd : Int) : Prop :=
  (∀ fd ∈ fds, fd.scriptFd ≠ scriptFd) ∧ ∀ fd ∈ fds, fd.isClosed = false → fd.liveFd ≠ liveFd

theorem Fds.Free.apart {fds : Fds} (free : fds.Free scriptFd liveFd) (kind : FdKind) (isClosed : Bool) :
    ∀ fd ∈ fds, FdState.Apart ⟨kind, scriptFd, liveFd, isClosed⟩ fd := by
  intro fd listed
  refine ⟨fun _ same => free.1 fd listed same.symm, ?_⟩
  intro _ stillOpen _ same
  exact free.2 fd listed stillOpen same.symm

theorem Fds.Apart.exchange {front back : Fds} {fd fd' : FdState} (apart : Fds.Apart (front ++ fd :: back))
    (keeps : ∀ other ∈ front ++ back, fd.Apart other → fd'.Apart other) : Fds.Apart (front ++ fd' :: back) := by
  have middle (fd : FdState) : Fds.Apart (front ++ fd :: back) ↔ Fds.Apart (fd :: (front ++ back)) :=
    List.pairwise_middle FdState.Apart.symm
  rw [middle, Fds.Apart, List.pairwise_cons] at apart ⊢
  exact ⟨fun other listed => keeps other listed (apart.1 other listed), apart.2⟩

theorem Fds.Apart.replaceF {fds : Fds} (apart : fds.Apart) {change : FdState → Option FdState}
    (keeps : ∀ a a', a ∈ fds → change a = some a' → ∀ b ∈ fds, a.Apart b → a'.Apart b) :
    Fds.Apart (fds.replaceF change) := by
  by_cases found : ∃ a ∈ fds, ∃ a', change a = some a'
  · obtain ⟨a, listed, a', changed⟩ := found
    obtain ⟨b, b', front, back, -, changed, split, replaced⟩ := List.exists_of_replaceF listed changed
    rw [replaced]
    rw [split] at apart keeps
    apply apart.exchange
    intro c other
    apply keeps b b' (by simp) changed c
    simp only [List.mem_append, List.mem_cons] at other ⊢
    tauto
  · have none : ∀ a ∈ fds, change a = none := by
      intro a listed
      by_contra some
      exact found ⟨a, listed, Option.ne_none_iff_exists'.mp some⟩
    rw [List.replaceF_of_forall_none none]
    exact apart

theorem foundFd_ok {found result : Option FdState} (ok : foundFd found = .ok result) : result = found := by
  cases found with
  | none => exact (Except.ok.inj ok).symm
  | some fd =>
    simp only [foundFd, assertThat] at ok
    split at ok
    · rw [ok_bind] at ok
      split at ok
      · exact (Except.ok.inj ok).symm
      · cases ok
    · cases ok

theorem checkDuplicateFd_none {fds : Fds} (fresh : checkDuplicateFd fds scriptFd liveFd = .ok none) :
    fds.Free scriptFd liveFd := by
  unfold checkDuplicateFd at fresh
  cases byScript : findByScriptFd fds scriptFd with
  | error => rw [byScript] at fresh; cases fresh
  | ok script =>
    cases byLive : findByLiveFd fds liveFd with
    | error =>
      cases script <;> simp [byScript, byLive] at fresh
    | ok live =>
      have scriptFound := foundFd_ok byScript
      have liveFound := foundFd_ok byLive
      cases script with
      | some fd => simp [byScript] at fresh
      | none =>
        cases live with
        | some fd => simp [byScript, byLive] at fresh
        | none =>
          refine ⟨?_, ?_⟩
          · intro fd listed same
            exact absurd (List.find?_eq_none.mp scriptFound.symm fd listed) (by simp [same])
          · intro fd listed stillOpen same
            exact absurd (List.find?_eq_none.mp liveFound.symm fd listed) (by simp [stillOpen, same])

theorem createFd_ok {kind : FdKind} {fds fds' : Fds}
    (ok : createFd kind fds scriptFd liveFd = .ok (.ok fds')) :
    fds.Free scriptFd liveFd ∧ fds' = ⟨kind, scriptFd, liveFd, false⟩ :: fds := by
  unfold createFd at ok
  cases checked : checkDuplicateFd fds scriptFd liveFd with
  | error => rw [checked] at ok; cases ok
  | ok error =>
    rw [checked, ok_bind] at ok
    cases error with
    | some => cases ok
    | none => exact ⟨checkDuplicateFd_none checked, (Except.ok.inj (Except.ok.inj ok)).symm⟩

theorem runSyscallSocket_ok {fds fds' : Fds} (ok : runSyscallSocket fds scriptFd liveFd = .ok (.ok fds')) :
    fds.Free scriptFd liveFd ∧ fds' = ⟨.socket .new noEndpoint, scriptFd, liveFd, false⟩ :: fds := by
  unfold runSyscallSocket at ok
  split at ok
  · cases ok
  · split at ok
    · cases ok
    · exact createFd_ok ok

theorem runSyscallPipe_ok {fds fds' : Fds} {script live : Int × Int} (ok : runSyscallPipe fds script live = .ok (.ok fds')) :
    fds.Free script.1 live.1 ∧ fds.Free script.2 live.2 ∧
      fds' = ⟨.pipe, script.2, live.2, false⟩ :: ⟨.pipe, script.1, live.1, false⟩ :: fds := by
  unfold runSyscallPipe at ok
  cases first : checkDuplicateFd fds script.1 live.1 with
  | error => rw [first] at ok; cases ok
  | ok error =>
    rw [first, ok_bind] at ok
    cases error with
    | some => cases ok
    | none =>
      cases second : checkDuplicateFd fds script.2 live.2 with
      | error => simp [second] at ok
      | ok error =>
        simp only [second, ok_bind] at ok
        cases error with
        | some => cases ok
        | none => exact ⟨checkDuplicateFd_none first, checkDuplicateFd_none second, (Except.ok.inj (Except.ok.inj ok)).symm⟩

theorem runSyscallClose_ok {fds fds' : Fds} (ok : runSyscallClose fds scriptFd liveFd = .ok (.ok fds')) :
    fds' = fds.replaceF fun fd => if fd.scriptFd = scriptFd then some { fd with isClosed := true } else none := by
  unfold runSyscallClose at ok
  cases found : findByScriptFd fds scriptFd with
  | error => simp [found] at ok
  | ok found' =>
    simp only [found, ok_bind] at ok
    cases found' with
    | none => cases ok
    | some fd =>
      simp only at ok
      split at ok
      · cases ok
      · exact (Except.ok.inj (Except.ok.inj ok)).symm

/-- `accept` binds its numbers to the latest connection that it finds, accepted already or not, or to
the socket that it adds. -/
def Fds.Accepted (isWireClient : Bool) (fds : Fds) (scriptFd liveFd : Int) (peer : Endpoint) (fds' : Fds) : Prop :=
  (∃ front fd back, fds = front ++ fd :: back ∧ (∀ other ∈ front, acceptable other = none) ∧ acceptable fd = some peer ∧
    fds' = front ++ { fd with scriptFd, liveFd } :: back) ∨
  isWireClient = true ∧ (∀ fd ∈ fds, acceptable fd = none) ∧ fds' = ⟨.socket .init peer, scriptFd, liveFd, false⟩ :: fds

theorem runSyscallAccept_ok {fds fds' : Fds} {peer : Endpoint}
    (ok : runSyscallAccept isWireClient fds scriptFd liveFd peer = .ok (.ok fds')) :
    fds.Accepted isWireClient scriptFd liveFd peer fds' := by
  unfold runSyscallAccept at ok
  split at ok
  · rename_i remote found
    unfold assertThat at ok
    split at ok
    · rename_i same
      subst same
      obtain ⟨front, fd, back, rfl, accepts, others⟩ := List.findSome?_eq_some_iff.mp found
      have changed : acceptFd scriptFd liveFd fd = some { fd with scriptFd, liveFd } := by rw [acceptFd, accepts]; rfl
      refine .inl ⟨front, fd, back, rfl, others, accepts, ?_⟩
      rw [← Except.ok.inj (Except.ok.inj ok)]
      clear ok found
      induction front with
      | nil => exact List.replaceF_cons_of_some _ changed
      | cons first rest ih =>
        have kept : acceptFd scriptFd liveFd first = none := by rw [acceptFd, others first List.mem_cons_self]; rfl
        rw [List.cons_append, List.cons_append, List.replaceF_cons_of_none _ kept]
        exact congrArg _ (ih fun other listed => others other (List.mem_cons_of_mem _ listed))
    · cases ok
  · split at ok
    · cases ok
    · rename_i none client
      refine .inr ⟨by simpa using client, List.findSome?_eq_none_iff.mp none, ?_⟩
      exact (Except.ok.inj (Except.ok.inj ok)).symm

/-- What `accept` and `pipe` leave to the script: numbers of an accepted connection that are free,
and two ends of a pipe that differ. -/
def FdOp.Proper (fds : Fds) : FdOp → Prop
  | .accept scriptFd liveFd _ => fds.Free scriptFd liveFd
  | .pipe script live => script.1 ≠ script.2 ∧ live.1 ≠ live.2
  | _ => True

theorem FdState.Apart.setPhase {a b : FdState} {state : SocketPhase} (apart : a.Apart b) : (a.setPhase state).Apart b := by
  unfold FdState.setPhase
  split <;> exact apart

theorem Fds.Apart.setPhase {fds : Fds} (apart : fds.Apart) (index : Nat) (state : SocketPhase) :
    Fds.Apart (fds.modify index (FdState.setPhase state)) := by
  refine List.pairwise_iff_getElem.mpr ?_
  intro i j inside inside' before
  rw [List.length_modify] at inside inside'
  have each := List.pairwise_iff_getElem.mp apart i j inside inside' before
  rw [List.getElem_modify, List.getElem_modify]
  split <;> split
  · omega
  · exact FdState.Apart.setPhase each
  · exact (FdState.Apart.setPhase each.symm).symm
  · exact each

theorem fdStep_apart {fds fds' : Fds} {op : FdOp} (apart : fds.Apart) (proper : op.Proper fds)
    (ok : fdStep isWireClient fds op = .ok (.ok fds')) : fds'.Apart := by
  cases op with
  | socket scriptFd liveFd =>
    obtain ⟨free, rfl⟩ := runSyscallSocket_ok ok
    exact List.pairwise_cons.mpr ⟨free.apart _ _, apart⟩
  | «open» scriptFd liveFd =>
    obtain ⟨free, rfl⟩ := createFd_ok ok
    exact List.pairwise_cons.mpr ⟨free.apart _ _, apart⟩
  | epollCreate scriptFd liveFd =>
    obtain ⟨free, rfl⟩ := createFd_ok ok
    exact List.pairwise_cons.mpr ⟨free.apart _ _, apart⟩
  | accept scriptFd liveFd peer =>
    obtain ⟨front, fd, back, rfl, -, -, rfl⟩ | ⟨-, -, rfl⟩ := runSyscallAccept_ok ok
    · refine apart.exchange fun other listed _ => Fds.Free.apart proper _ _ other ?_
      simp only [List.mem_append, List.mem_cons] at listed ⊢
      tauto
    · exact List.pairwise_cons.mpr ⟨Fds.Free.apart proper _ _, apart⟩
  | pipe script live =>
    obtain ⟨first, second, rfl⟩ := runSyscallPipe_ok ok
    refine List.pairwise_cons.mpr ⟨?_, List.pairwise_cons.mpr ⟨first.apart _ _, apart⟩⟩
    intro fd listed
    rcases List.mem_cons.mp listed with rfl | listed
    · exact ⟨fun _ same => proper.1 same.symm, fun _ _ _ same => proper.2 same.symm⟩
    · exact second.apart _ _ fd listed
  | close scriptFd liveFd =>
    obtain rfl := runSyscallClose_ok ok
    apply apart.replaceF
    intro a a' listed closed b other before
    rw [Option.ite_none_right_eq_some, Option.some.injEq] at closed
    obtain ⟨-, rfl⟩ := closed
    exact ⟨before.1, fun stillOpen => absurd stillOpen (by simp)⟩
  | incomingSyn remote =>
    obtain rfl := Except.ok.inj (Except.ok.inj ok)
    refine List.pairwise_cons.mpr ⟨?_, apart⟩
    intro fd listed
    exact ⟨fun valid => absurd valid (by simp), fun _ _ valid => absurd valid (by simp)⟩
  | setPhase index state =>
    obtain rfl := Except.ok.inj (Except.ok.inj ok)
    exact apart.setPhase index state

theorem runFdStep_apart {fds fds' : Fds} {op : FdOp} (apart : fds.Apart) (proper : op.Proper fds)
    (ok : runFdStep isWireClient fds op = .ok fds') : fds'.Apart := by
  unfold runFdStep at ok
  cases result : fdStep isWireClient fds op with
  | error => rw [result] at ok; cases ok
  | ok result' =>
    rw [result, ok_bind] at ok
    cases result' with
    | error => obtain rfl := Except.ok.inj ok; exact apart
    | ok fds'' => obtain rfl := Except.ok.inj ok; exact fdStep_apart apart proper result

/-- The tables that proper operations reach. -/
inductive FdReachable (isWireClient : Bool) : Fds → Prop where
  | start : FdReachable isWireClient []
  | step {fds fds' : Fds} (op : FdOp) (reached : FdReachable isWireClient fds) (proper : op.Proper fds)
      (ok : runFdStep isWireClient fds op = .ok fds') : FdReachable isWireClient fds'

theorem FdReachable.apart {fds : Fds} (reached : FdReachable isWireClient fds) : fds.Apart := by
  induction reached with
  | start => exact List.Pairwise.nil
  | step op _ proper ok ih => exact runFdStep_apart ih proper ok

theorem Fds.Apart.unique {fds : Fds} (apart : fds.Apart) {a b : FdState} (listed : a ∈ fds) (other : b ∈ fds)
    (valid : 0 ≤ a.scriptFd) (same : a.scriptFd = b.scriptFd) : a = b := by
  by_contra different
  have symmetric : Std.Symm FdState.Apart := ⟨fun _ _ => FdState.Apart.symm⟩
  exact (apart.forall listed other different).1 valid same

theorem findByScriptFd_some {fds : Fds} {fd : FdState} (found : findByScriptFd fds scriptFd = .ok (some fd)) :
    fd ∈ fds ∧ fd.scriptFd = scriptFd := by
  have same := foundFd_ok found
  exact ⟨List.mem_of_find?_eq_some same.symm, by simpa using List.find?_some same.symm⟩

theorem foundFd_some {fd : FdState} (script : 0 ≤ fd.scriptFd) (live : 0 ≤ fd.liveFd) : foundFd (some fd) = .ok (some fd) := by
  simp [foundFd, assertThat_ok script, assertThat_ok live]

theorem Fds.Apart.findByScriptFd {fds : Fds} (apart : fds.Apart) {fd : FdState} (listed : fd ∈ fds) (script : 0 ≤ fd.scriptFd)
    (live : 0 ≤ fd.liveFd) : findByScriptFd fds fd.scriptFd = .ok (some fd) := by
  have found : (fds.find? fun other => other.scriptFd == fd.scriptFd).isSome := by
    rw [List.find?_isSome]
    exact ⟨fd, listed, by simp⟩
  obtain ⟨first, isFirst⟩ := Option.isSome_iff_exists.mp found
  have same : first.scriptFd = fd.scriptFd := by simpa using List.find?_some isFirst
  obtain rfl := apart.unique listed (List.mem_of_find?_eq_some isFirst) script same.symm
  rw [TcpFuzz.findByScriptFd, isFirst, foundFd_some script live]

def FdOp.Creates (scriptFd : Int) : FdOp → Prop
  | .socket script _ | .open script _ | .epollCreate script _ => script = scriptFd
  | .pipe script _ => script.1 = scriptFd ∨ script.2 = scriptFd
  | _ => False

theorem fdStep_creates {fds fds' : Fds} {op : FdOp} (creates : op.Creates scriptFd)
    (ok : fdStep isWireClient fds op = .ok (.ok fds')) : ∀ fd ∈ fds, fd.scriptFd ≠ scriptFd := by
  cases op with
  | socket script live => rw [← creates]; exact (runSyscallSocket_ok ok).1.1
  | «open» script live => rw [← creates]; exact (createFd_ok ok).1.1
  | epollCreate script live => rw [← creates]; exact (createFd_ok ok).1.1
  | pipe script live =>
    obtain ⟨first, second, -⟩ := runSyscallPipe_ok ok
    obtain rfl | rfl := creates
    · exact first.1
    · exact second.1
  | accept | close | incomingSyn | setPhase => exact creates.elim

/-- In a reachable table script fds are unique among all entries and live fds among the open ones;
the search by script fd returns the entry with the number, open or closed; `accept` binds its numbers
to one connection; and a number that an entry has, open or closed, is not created again. -/
theorem fdTable_reachable (isWireClient : Bool) (fds : Fds) (reached : FdReachable isWireClient fds) :
    fds.Apart ∧
    (∀ fd ∈ fds, 0 ≤ fd.scriptFd → 0 ≤ fd.liveFd → findByScriptFd fds fd.scriptFd = .ok (some fd)) ∧
    (∀ scriptFd fd, findByScriptFd fds scriptFd = .ok (some fd) → fd ∈ fds ∧ fd.scriptFd = scriptFd) ∧
    (∀ scriptFd liveFd peer fds', fdStep isWireClient fds (.accept scriptFd liveFd peer) = .ok (.ok fds') →
      fds.Accepted isWireClient scriptFd liveFd peer fds') ∧
    ∀ fd ∈ fds, ∀ op : FdOp, op.Creates fd.scriptFd → ∀ fds', fdStep isWireClient fds op ≠ .ok (.ok fds') := by
  refine ⟨reached.apart, ?_, fun scriptFd fd found => findByScriptFd_some found,
    fun scriptFd liveFd peer fds' ok => runSyscallAccept_ok ok, ?_⟩
  · intro fd listed script live
    exact reached.apart.findByScriptFd listed script live
  · intro fd listed op creates fds' ok
    exact fdStep_creates creates ok fd listed rfl

def runFdSteps (isWireClient : Bool) (ops : List FdOp) : Run Fds := ops.foldlM (runFdStep isWireClient) []

/-- A closed entry is found and keeps its number from being created again; a second `accept` takes the
connection of the first; and `accept` and `pipe` give a number to two open entries. -/
theorem closedFd_found :
    (runFdSteps false [.socket 3 5, .close 3 5] = .ok [⟨.socket .new noEndpoint, 3, 5, true⟩] ∧
      findByScriptFd [⟨.socket .new noEndpoint, 3, 5, true⟩] 3 = .ok (some ⟨.socket .new noEndpoint, 3, 5, true⟩) ∧
      fdStep false [⟨.socket .new noEndpoint, 3, 5, true⟩] (.socket 3 6) = .ok (.error "duplicate fd 3 in script")) ∧
    (runFdSteps false [.incomingSyn noEndpoint, .setPhase 0 .passiveSynackAcked, .accept 4 6 noEndpoint] =
        .ok [⟨.socket .passiveSynackAcked noEndpoint, 4, 6, false⟩] ∧
      fdStep false [⟨.socket .passiveSynackAcked noEndpoint, 4, 6, false⟩] (.accept 5 7 noEndpoint) =
        .ok (.ok [⟨.socket .passiveSynackAcked noEndpoint, 5, 7, false⟩])) ∧
    runFdSteps false [.socket 3 5, .incomingSyn noEndpoint, .setPhase 0 .passiveSynackAcked, .accept 3 5 noEndpoint] =
      .ok [⟨.socket .passiveSynackAcked noEndpoint, 3, 5, false⟩, ⟨.socket .new noEndpoint, 3, 5, false⟩] ∧
    runFdSteps false [.pipe (4, 4) (6, 6)] = .ok [⟨.pipe, 4, 6, false⟩, ⟨.pipe, 4, 6, false⟩] :=
  ⟨⟨rfl, rfl, rfl⟩, ⟨rfl, rfl⟩, rfl, rfl⟩

/-- A socket that is closed, and a connection that is accepted beside it. -/
theorem fdTable_reachable_closed :
    FdReachable false [⟨.socket .passiveSynackAcked noEndpoint, -1, -1, false⟩, ⟨.socket .new noEndpoint, 3, 5, true⟩] ∧
    findByScriptFd [⟨.socket .passiveSynackAcked noEndpoint, -1, -1, false⟩, ⟨.socket .new noEndpoint, 3, 5, true⟩] 3 =
      .ok (some ⟨.socket .new noEndpoint, 3, 5, true⟩) ∧
    Fds.Accepted false [⟨.socket .passiveSynackAcked noEndpoint, -1, -1, false⟩, ⟨.socket .new noEndpoint, 3, 5, true⟩] 4 6
      noEndpoint [⟨.socket .passiveSynackAcked noEndpoint, 4, 6, false⟩, ⟨.socket .new noEndpoint, 3, 5, true⟩] := by
  have opened : FdReachable false [⟨.socket .new noEndpoint, 3, 5, false⟩] := .step (.socket 3 5) .start trivial rfl
  have closed : FdReachable false [⟨.socket .new noEndpoint, 3, 5, true⟩] := .step (.close 3 5) opened trivial rfl
  have reached : FdReachable false
      [⟨.socket .passiveSynackAcked noEndpoint, -1, -1, false⟩, ⟨.socket .new noEndpoint, 3, 5, true⟩] :=
    .step (.setPhase 0 .passiveSynackAcked) (.step (.incomingSyn noEndpoint) closed trivial rfl) trivial rfl
  obtain ⟨-, finds, -, accepts, -⟩ := fdTable_reachable false _ reached
  exact ⟨reached, finds ⟨.socket .new noEndpoint, 3, 5, true⟩ (by simp) (by simp) (by simp), accepts 4 6 noEndpoint _ rfl⟩

end TcpFuzz
