import TcpFuzz.Wire.Stages

/-! The two sides of a remote run stay in lock step, and come to the end of the script. -/

namespace TcpFuzz.Wire

variable {scriptPath : String} {script : List Event} {s : System}

/-! ### What holds at every stage -/

def System.clientProcessed (s : System) : Nat :=
  match s.clientPhase with
  | .process _ => s.client.numEvents - 1
  | _ => s.client.numEvents

def System.serverCompleted (s : System) : Nat :=
  match s.serverPhase with
  | .run _ => s.server.numEvents - 1
  | _ => s.server.numEvents

theorem System.clientProcessed_ge (s : System) : s.client.numEvents - 1 ≤ s.clientProcessed := by
  unfold System.clientProcessed
  split <;> omega

theorem Inv.not_bad (inv : Inv script s) : s.clientPhase ≠ .badServer ∧ s.serverPhase ≠ .badClient := by
  constructor
  · intro bad
    rcases bad ▸ inv.stage.clientSide with client | ⟨a, -, -, phase | ⟨_, phase⟩ | ⟨phase, -⟩⟩ | ⟨error, phase⟩
    · obtain phase | ⟨_, phase⟩ | phase := client.phases <;> cases phase
    all_goals cases phase
  · intro bad
    rcases bad ▸ inv.stage.serverSide with server | ⟨a, -, -, phase | ⟨_, phase⟩⟩ | phase
    · obtain phase | ⟨_, phase⟩ | phase := server.phases <;> cases phase
    all_goals cases phase

theorem Inv.server_runs (inv : Inv script s) {e : Event} (pc : s.serverPhase = .run e)
    (before : j < s.server.numEvents - 1) (other : isPacket script[j]? = false) : j < s.clientProcessed := by
  obtain ⟨a, client, server, -⟩ := inv.stage.served (pc ▸ ServerOut.not_run) (by simp [pc])
  have outside : j < a := by
    by_contra inside
    have packet := server.2.1 j (by omega) (by omega)
    rw [other] at packet
    cases packet
  have place := client.1
  have processed := s.clientProcessed_ge
  omega

theorem Inv.client_processes (inv : Inv script s) {e : Event} (pc : s.clientPhase = .process e)
    (here : isPacket script[s.client.numEvents - 1]? = false)
    (before : j < s.client.numEvents - 1) (packet : isPacket script[j]? = true) : j < s.serverCompleted := by
  have shut : ¬ Open script s.client.numEvents := by
    intro ⟨_, packet⟩
    rw [here] at packet
    cases packet
  obtain ⟨-, server, -, behind, -⟩ := inv.stage.between (fun a client => shut client.isOpen) (by simp [pc])
  have idle : s.serverCompleted = s.server.numEvents := by
    unfold System.serverCompleted
    split
    · rename_i e' running
      exact absurd (running ▸ server) ServerOut.not_run
    · rfl
  rw [idle]
  by_contra late
  have gap := behind j (by omega) (by omega)
  rw [packet] at gap
  cases gap

theorem Inv.answers (inv : Inv script s) : s.started = s.answered ∨ s.started = s.answered + 1 := by
  cases inv.stage with
  | closed _ _ _ _ _ _ count | answered _ _ _ _ _ _ _ _ _ _ _ _ _ count | failed _ _ _ _ _ _ _ _ _ count | died _ _ _ _ _ count =>
    exact .inl count
  | requested _ _ _ _ _ _ _ count | serving _ _ _ _ _ count => exact .inr count

theorem Inv.toClient_shape (inv : Inv script s) :
    ∃ warnings answer, s.toClient = warnings ++ answer ∧ Warnings warnings ∧
      (answer = [] ∨ ∃ failed n error, answer = [.done failed n error]) := by
  have none : Warnings [] := fun _ listed => by cases listed
  cases inv.stage with
  | closed _ _ _ _ _ toClient | requested _ _ _ _ _ _ toClient | died _ _ _ _ toClient => exact ⟨[], [], toClient, none, .inl rfl⟩
  | serving _ _ _ _ toClient => exact ⟨s.toClient, [], (List.append_nil _).symm, toClient, .inl rfl⟩
  | answered _ _ warnings _ _ _ _ _ _ _ _ warned toClient => exact ⟨warnings, _, toClient, warned, .inr ⟨_, _, _, rfl⟩⟩
  | failed _ warnings _ _ _ _ _ warned toClient => exact ⟨warnings, _, toClient, warned, .inr ⟨_, _, _, rfl⟩⟩

/-! ### Progress -/

def ClientPhase.rank : ClientPhase → Nat
  | .loop => 1
  | .process _ => 2
  | _ => 0

def ServerPhase.rank : ServerPhase → Nat
  | .loop => 2
  | .awaitStart _ => 1
  | .run _ => 4
  | _ => 0

def System.remaining (script : List Event) (s : System) : Nat :=
  3 * (script.length - s.client.numEvents) + s.clientPhase.rank +
    (4 * (script.length - s.server.numEvents) + s.serverPhase.rank) + s.toClient.length

theorem System.clientReturn_remaining {event : Option Event} (bound : (s.clientReturn event).client.numEvents ≤ script.length) :
    (s.clientReturn event).remaining script + s.clientPhase.rank ≤ s.remaining script := by
  cases event with
  | none => simp [remaining, clientReturn, Peer.count, ClientPhase.rank]; omega
  | some e =>
    simp only [clientReturn, Peer.count] at bound
    simp only [remaining, clientReturn, Peer.count, ClientPhase.rank]
    omega

theorem System.serverReturn_remaining {event : Option Event} (bound : (s.serverReturn event).server.numEvents ≤ script.length) :
    (s.serverReturn event).remaining script + s.serverPhase.rank ≤ s.remaining script := by
  cases event with
  | none => simp [remaining, serverReturn, Peer.count, ServerPhase.rank]; omega
  | some e =>
    simp only [serverReturn, Peer.count] at bound
    simp only [remaining, serverReturn, Peer.count]
    split <;> simp only [ServerPhase.rank] <;> omega

theorem Inv.step_remaining {s' : System} (inv : Inv script s) (step : System.Step scriptPath script s s') :
    s'.remaining script < s.remaining script := by
  have after := inv.step step
  have clientBound := after.client.1
  have serverBound := after.server.1
  cases step with
  | clientFetch event pc next =>
    have bound : (s.client.count event).numEvents ≤ script.length := getNextEvent_eq next ▸ inv.client.count.1
    have returns := System.clientReturn_remaining (s := s) bound
    have starts := System.clientReturn_remaining (s := s.sendPacketsStart) bound
    unfold System.clientNextEvent
    split
    · simp only [System.sendPacketsStart, System.remaining, pc, ClientPhase.rank] at starts ⊢
      omega
    split
    · simp [System.remaining, pc, ClientPhase.rank]
    · simp only [pc, ClientPhase.rank] at returns
      omega
  | clientRead event m rest pc arrived =>
    have shorter : ({ s with toClient := rest } : System).remaining script + 1 = s.remaining script := by
      simp only [System.remaining, arrived, List.length_cons]
      omega
    cases m with
    | warn text => simp only [System.clientReceive]; omega
    | start n =>
      simp only [System.clientReceive, System.remaining, pc, ClientPhase.rank] at shorter ⊢
      omega
    | done failed n error =>
      cases failed with
      | true =>
        simp only [System.clientReceive, System.remaining, pc, ClientPhase.rank] at shorter ⊢
        omega
      | false =>
        simp only [System.clientReceive] at clientBound ⊢
        split
        · rename_i same
          rw [if_pos same] at clientBound
          have less := System.clientReturn_remaining clientBound
          omega
        · simp only [System.remaining, pc, ClientPhase.rank] at shorter ⊢
          omega
  | clientDone e pc => simp [System.remaining, pc, ClientPhase.rank]
  | serverFetch event pc next =>
    have bound : (s.server.count event).numEvents ≤ script.length := getNextEvent_eq next ▸ inv.server.count.1
    have rank : s.serverPhase.rank = 2 := by rw [pc]; rfl
    have returns := System.serverReturn_remaining (s := s) bound
    have answers := System.serverReturn_remaining (s := s.sendPacketsDone false "") bound
    have answering : (s.sendPacketsDone false "").remaining script = s.remaining script + 1 := by
      simp only [System.remaining, System.sendPacketsDone, List.length_append, List.length_singleton]
      omega
    rw [answering, show (s.sendPacketsDone false "").serverPhase = s.serverPhase from rfl] at answers
    cases event with
    | none =>
      simp only [System.serverNextEvent]
      split <;> omega
    | some e =>
      simp only [System.serverNextEvent]
      split
      · simp [System.remaining, pc, ServerPhase.rank]
      · split <;> omega
  | serverRead e m rest pc arrived =>
    have rank : s.serverPhase.rank = 1 := by rw [pc]; rfl
    have bad : ({ s with toServer := rest, serverPhase := .badClient } : System).remaining script < s.remaining script := by
      simp [System.remaining, pc, ServerPhase.rank]
    cases m with
    | start n =>
      simp only [System.serverReceive] at serverBound ⊢
      split
      · rename_i same
        rw [if_pos same] at serverBound
        have less := System.serverReturn_remaining serverBound
        simp only [System.remaining] at less rank ⊢
        omega
      · exact bad
    | warn text => exact bad
    | done failed n error => exact bad
  | serverRan e outcome pc =>
    cases outcome <;> simp [System.serverRan, System.sendPacketsDone, System.remaining, pc, ServerPhase.rank] <;> omega

theorem Inv.progress (inv : Inv script s) (accepted : Accepted scriptPath script) (fine : s.serverPhase ≠ .failed) :
    (s.clientPhase = .finished ∧ s.serverPhase = .finished ∧ s.toServer = [] ∧ s.toClient = [] ∧ s.started = s.answered) ∨
      ∃ s', System.Step scriptPath script s s' := by
  have clientNext := accepted s.client.numEvents inv.client.1
  have serverNext := accepted s.server.numEvents inv.server.1
  have serverMoves : s.serverPhase = .loop ∨ (∃ e, s.serverPhase = .run e) → ∃ s', System.Step scriptPath script s s' := by
    rintro (pc | ⟨e, pc⟩)
    · exact ⟨_, .serverFetch _ pc serverNext⟩
    · exact ⟨_, .serverRan e .ok pc⟩
  cases phase : s.clientPhase with
  | loop => exact .inr ⟨_, .clientFetch _ phase clientNext⟩
  | process e => exact .inr ⟨_, .clientDone e phase⟩
  | badServer => exact absurd phase inv.not_bad.1
  | awaitDone event =>
    right
    cases inv.stage with
    | closed client =>
      obtain other | ⟨_, other⟩ | other := (phase ▸ client).phases <;> cases other
    | requested a client server before gap toServer =>
      obtain ⟨-, pc | ⟨e, pc, -⟩⟩ | ⟨-, ended⟩ := server
      · exact serverMoves (.inl pc)
      · exact ⟨_, .serverRead e _ _ pc toServer⟩
      · have inside := client.1
        have bound := inv.client.1
        omega
    | serving a client server => exact serverMoves server.2.2
    | answered a b warnings client server span last inside past gap toServer warned toClient =>
      cases warnings with
      | nil => exact ⟨_, .clientRead event _ _ phase toClient⟩
      | cons w warnings => exact ⟨_, .clientRead event _ _ phase toClient⟩
    | failed a warnings n error client server => exact absurd server fine
    | died error client server => exact absurd server fine
  | finished =>
    have outside (a : Nat) : ¬ ClientIn script a s.client s.clientPhase := by
      rw [phase]
      rintro ⟨-, -, other | ⟨_, other⟩ | ⟨other, -⟩⟩ <;> cases other
    obtain ⟨client, server, -, behind, toServer, toClient, count⟩ := inv.stage.between outside (by simp [phase])
    obtain ⟨-, pc | ⟨e, pc, here, type⟩⟩ | ⟨pc, -⟩ := server
    · exact .inr (serverMoves (.inl pc))
    · -- no packet event is left for a server that waits
      rw [phase] at client
      obtain ⟨-, other | ⟨_, other⟩⟩ | ⟨-, ended⟩ := client
      · cases other
      · cases other
      · have inside := (List.getElem?_eq_some_iff.mp here).1
        have gap := behind s.server.numEvents (Nat.le_refl _) (by omega)
        simp [here, isPacket, type] at gap
    · exact .inl ⟨rfl, pc, toServer, toClient, count⟩
  | died error =>
    cases inv.stage with
    | died error client server => exact absurd server fine
    | failed a warnings n error client server => exact absurd server fine
    | closed client =>
      obtain other | ⟨_, other⟩ | other := (phase ▸ client).phases <;> cases other
    | requested a client | serving a client | answered a b warnings client =>
      obtain ⟨-, -, other | ⟨_, other⟩ | ⟨other, -⟩⟩ := client <;> rw [phase] at other <;> cases other

/-- In every interleaving neither side sees a bad count or an unexpected message; every start of a
run is answered once, behind warnings; each side executes its events after those of the other side
that come before; and as long as no packet event fails, both sides go on until both are at the end
with no message left. -/
theorem wire_lock_step (scriptPath : String) (script : List Event) (accepted : Accepted scriptPath script) (s : System)
    (run : System.Run scriptPath script System.new s) :
    (s.clientPhase ≠ .badServer ∧ s.serverPhase ≠ .badClient) ∧
    (s.started = s.answered ∨ s.started = s.answered + 1) ∧
    (∃ warnings answer, s.toClient = warnings ++ answer ∧ Warnings warnings ∧
      (answer = [] ∨ ∃ failed n error, answer = [.done failed n error])) ∧
    (∀ e j, s.serverPhase = .run e → j < s.server.numEvents - 1 → isPacket script[j]? = false → j < s.clientProcessed) ∧
    (∀ e j, s.clientPhase = .process e → isPacket script[s.client.numEvents - 1]? = false →
      j < s.client.numEvents - 1 → isPacket script[j]? = true → j < s.serverCompleted) ∧
    (∀ s', System.Step scriptPath script s s' → s'.remaining script < s.remaining script) ∧
    (s.serverPhase ≠ .failed →
      (s.clientPhase = .finished ∧ s.serverPhase = .finished ∧ s.toServer = [] ∧ s.toClient = [] ∧ s.started = s.answered) ∨
        ∃ s', System.Step scriptPath script s s') := by
  have inv := (Inv.new script).run run
  refine ⟨inv.not_bad, inv.answers, inv.toClient_shape, ?_, ?_, fun s' step => inv.step_remaining step, inv.progress accepted⟩
  · intro e j pc before other
    exact inv.server_runs pc before other
  · intro e j pc here before packet
    exact inv.client_processes pc here before packet

theorem wire_lock_step_two :
    Accepted "a.pkt" [⟨.syscall, 1, .absolute, 0⟩, ⟨.packet, 2, .absolute, 5⟩] ∧
    ∀ s, System.Run "a.pkt" [⟨.syscall, 1, .absolute, 0⟩, ⟨.packet, 2, .absolute, 5⟩] System.new s → s.clientPhase ≠ .badServer := by
  have accepted : Accepted "a.pkt" [⟨.syscall, 1, .absolute, 0⟩, ⟨.packet, 2, .absolute, 5⟩] := by
    intro n bound
    have few : n = 0 ∨ n = 1 ∨ n = 2 := by simp at bound; omega
    obtain rfl | rfl | rfl := few <;> rfl
  exact ⟨accepted, fun s run => (wire_lock_step _ _ accepted s run).1.1⟩

end TcpFuzz.Wire
