import TcpFuzz.Wire.System

/-! Where the client and the server stand to each other at every point of a run. -/

namespace TcpFuzz.Wire

variable {n a b j : Nat} {packets : Bool} {scriptPath : String} {script : List Event}

def ClientOut (script : List Event) (p : Peer) (phase : ClientPhase) : Prop :=
  ¬ Open script p.numEvents ∧ (phase = .loop ∨ ∃ e, phase = .process e) ∨
    phase = .finished ∧ p.numEvents = script.length

def ClientIn (script : List Event) (a : Nat) (p : Peer) (phase : ClientPhase) : Prop :=
  a < p.numEvents ∧ Span script true a p.numEvents ∧
    (phase = .loop ∨ (∃ e, phase = .process e) ∨
      phase = .awaitDone script[p.numEvents]? ∧ isPacket script[p.numEvents]? = false)

def ServerOut (script : List Event) (p : Peer) (phase : ServerPhase) : Prop :=
  ¬ Open script p.numEvents ∧ (phase = .loop ∨ ∃ e, phase = .awaitStart e ∧ script[p.numEvents]? = some e ∧ e.type = .packet) ∨
    phase = .finished ∧ p.numEvents = script.length

def ServerIn (script : List Event) (a : Nat) (p : Peer) (phase : ServerPhase) : Prop :=
  a < p.numEvents ∧ Span script true a p.numEvents ∧ (phase = .loop ∨ ∃ e, phase = .run e)

def Warnings (messages : List Message) : Prop := ∀ m ∈ messages, ∃ text, m = .warn text

inductive Stage (script : List Event) (s : System) : Prop where
  /-- No run is: one side may be ahead of the other, but not by a packet event. -/
  | closed (client : ClientOut script s.client s.clientPhase) (server : ServerOut script s.server s.serverPhase)
      (ahead : Span script false s.client.numEvents s.server.numEvents)
      (behind : Span script false s.server.numEvents s.client.numEvents)
      (toServer : s.toServer = []) (toClient : s.toClient = []) (count : s.started = s.answered)
  /-- The server has not seen the start of the run at `a`. -/
  | requested (a : Nat) (client : ClientIn script a s.client s.clientPhase) (server : ServerOut script s.server s.serverPhase)
      (before : s.server.numEvents ≤ a) (gap : Span script false s.server.numEvents a)
      (toServer : s.toServer = [.start (UInt32.ofNat a)]) (toClient : s.toClient = []) (count : s.started = s.answered + 1)
  /-- The server executes the run at `a`. -/
  | serving (a : Nat) (client : ClientIn script a s.client s.clientPhase) (server : ServerIn script a s.server s.serverPhase)
      (toServer : s.toServer = []) (toClient : Warnings s.toClient) (count : s.started = s.answered + 1)
  /-- The server has left the run from `a` to `b`. -/
  | answered (a b : Nat) (warnings : List Message) (client : ClientIn script a s.client s.clientPhase)
      (server : ServerOut script s.server s.serverPhase) (span : Span script true a b) (last : isPacket script[b]? = false)
      (inside : s.client.numEvents ≤ b) (past : b ≤ s.server.numEvents) (gap : Span script false b s.server.numEvents)
      (toServer : s.toServer = []) (warned : Warnings warnings)
      (toClient : s.toClient = warnings ++ [.done false (UInt32.ofNat b) ""]) (count : s.started = s.answered)
  /-- A packet event of the run at `a` has failed. -/
  | failed (a : Nat) (warnings : List Message) (n : UInt32) (error : String) (client : ClientIn script a s.client s.clientPhase)
      (server : s.serverPhase = .failed) (toServer : s.toServer = []) (warned : Warnings warnings)
      (toClient : s.toClient = warnings ++ [.done true n error]) (count : s.started = s.answered)
  | died (error : String) (client : s.clientPhase = .died error) (server : s.serverPhase = .failed)
      (toServer : s.toServer = []) (toClient : s.toClient = []) (count : s.started = s.answered)

structure Inv (script : List Event) (s : System) : Prop where
  client : s.client.Tracks script
  server : s.server.Tracks script
  stage : Stage script s

theorem Inv.new (script : List Event) : Inv script System.new := by
  have tracks : Peer.Tracks script ⟨none, 0⟩ := ⟨Nat.zero_le _, by simp [Open]⟩
  refine ⟨tracks, tracks, .closed (.inl ⟨?_, .inl rfl⟩) (.inl ⟨?_, .inl rfl⟩) (Span.empty (Nat.le_refl _)) (Span.empty (Nat.le_refl _)) rfl rfl rfl⟩
  · simp [Open, System.new]
  · simp [Open, System.new]

variable {s : System}

theorem ClientIn.isOpen {p : Peer} {phase : ClientPhase} (client : ClientIn script a p phase) : Open script p.numEvents :=
  .of_span client.1 client.2.1

theorem ServerIn.isOpen {p : Peer} {phase : ServerPhase} (server : ServerIn script a p phase) : Open script p.numEvents :=
  .of_span server.1 server.2.1

theorem ClientOut.loop {p : Peer} (client : ClientOut script p .loop) : ¬ Open script p.numEvents := by
  obtain ⟨closed, -⟩ | ⟨phase, -⟩ := client
  · exact closed
  · cases phase

theorem ServerOut.loop {p : Peer} (server : ServerOut script p .loop) : ¬ Open script p.numEvents := by
  obtain ⟨closed, -⟩ | ⟨phase, -⟩ := server
  · exact closed
  · cases phase

theorem ClientIn.take {p : Peer} {phase : ClientPhase} {e : Event} (client : ClientIn script a p phase)
    (here : script[p.numEvents]? = some e) (packet : isPacket (some e) = true) :
    ClientIn script a (p.count (some e)) (.process e) := by
  refine ⟨Nat.lt_succ_of_lt client.1, client.2.1.snoc ?_, .inr (.inl ⟨e, rfl⟩)⟩
  rw [here]
  exact packet

theorem eq_length (bound : n ≤ script.length) (ended : script[n]? = none) : n = script.length :=
  Nat.le_antisymm bound (List.getElem?_eq_none_iff.mp ended)

theorem ClientOut.phases {p : Peer} {phase : ClientPhase} (client : ClientOut script p phase) :
    phase = .loop ∨ (∃ e, phase = .process e) ∨ phase = .finished := by
  obtain ⟨-, loop | process⟩ | ⟨finished, -⟩ := client
  · exact .inl loop
  · exact .inr (.inl process)
  · exact .inr (.inr finished)

theorem ServerOut.phases {p : Peer} {phase : ServerPhase} (server : ServerOut script p phase) :
    phase = .loop ∨ (∃ e, phase = .awaitStart e) ∨ phase = .finished := by
  obtain ⟨-, loop | ⟨e, waits, -⟩⟩ | ⟨finished, -⟩ := server
  · exact .inl loop
  · exact .inr (.inl ⟨e, waits⟩)
  · exact .inr (.inr finished)

theorem ServerOut.not_run {p : Peer} {e : Event} : ¬ ServerOut script p (.run e) := by
  intro server
  obtain phase | ⟨_, phase⟩ | phase := server.phases <;> cases phase

theorem Stage.clientSide (stage : Stage script s) :
    ClientOut script s.client s.clientPhase ∨ (∃ a, ClientIn script a s.client s.clientPhase) ∨
      ∃ error, s.clientPhase = .died error := by
  cases stage with
  | closed client => exact .inl client
  | requested a client | serving a client | answered a b warnings client | failed a warnings n error client =>
    exact .inr (.inl ⟨a, client⟩)
  | died error client => exact .inr (.inr ⟨error, client⟩)

theorem Stage.serverSide (stage : Stage script s) :
    ServerOut script s.server s.serverPhase ∨ (∃ a, ServerIn script a s.server s.serverPhase) ∨ s.serverPhase = .failed := by
  cases stage with
  | closed client server | requested a client server | answered a b warnings client server => exact .inl server
  | serving a client server => exact .inr (.inl ⟨a, server⟩)
  | failed a warnings n error client server => exact .inr (.inr server)
  | died error client server => exact .inr (.inr server)

/-- No run is under way where the client is in none. -/
theorem Stage.between (stage : Stage script s) (outside : ∀ a, ¬ ClientIn script a s.client s.clientPhase)
    (alive : ∀ error, s.clientPhase ≠ .died error) :
    ClientOut script s.client s.clientPhase ∧ ServerOut script s.server s.serverPhase ∧
      Span script false s.client.numEvents s.server.numEvents ∧ Span script false s.server.numEvents s.client.numEvents ∧
      s.toServer = [] ∧ s.toClient = [] ∧ s.started = s.answered := by
  cases stage with
  | closed client server ahead behind toServer toClient count =>
    exact ⟨client, server, ahead, behind, toServer, toClient, count⟩
  | requested a client | serving a client | answered a b warnings client | failed a warnings n error client =>
    exact absurd client (outside a)
  | died error client => exact absurd client (alive error)

/-- The server is in a run only while the client is in the same one. -/
theorem Stage.served (stage : Stage script s) (inside : ¬ ServerOut script s.server s.serverPhase)
    (alive : s.serverPhase ≠ .failed) :
    ∃ a, ClientIn script a s.client s.clientPhase ∧ ServerIn script a s.server s.serverPhase ∧ s.toServer = [] ∧
      Warnings s.toClient ∧ s.started = s.answered + 1 := by
  cases stage with
  | serving a client server toServer toClient count => exact ⟨a, client, server, toServer, toClient, count⟩
  | closed client server | requested a client server | answered a b warnings client server => exact absurd server inside
  | failed a warnings n error client server => exact absurd server alive
  | died error client server => exact absurd server alive

/-- A client that is in a run may go on in it, but not past its end. -/
theorem Stage.goOn {client : Peer} {phase : ClientPhase} (stage : Stage script s)
    (inside : ¬ ClientOut script s.client s.clientPhase) (alive : ∀ error, s.clientPhase ≠ .died error)
    (goes : ∀ a, ClientIn script a s.client s.clientPhase → ClientIn script a client phase)
    (short : ∀ b, isPacket script[b]? = false → s.client.numEvents ≤ b → client.numEvents ≤ b) :
    Stage script { s with client, clientPhase := phase } := by
  cases stage with
  | closed client => exact absurd client inside
  | requested a client server before gap toServer toClient count =>
    exact .requested a (goes a client) server before gap toServer toClient count
  | serving a client server toServer toClient count => exact .serving a (goes a client) server toServer toClient count
  | answered a b warnings client server span last inside past gap toServer warned toClient count =>
    exact .answered a b warnings (goes a client) server span last (short b last inside) past gap toServer warned toClient count
  | failed a warnings n error client server toServer warned toClient count =>
    exact .failed a warnings n error (goes a client) server toServer warned toClient count
  | died error client => exact absurd client (alive error)

theorem isPacket_some {event : Option Event} (packet : isPacket event = true) : ∃ e, event = some e := by
  cases event with
  | none => cases packet
  | some e => exact ⟨e, rfl⟩

theorem Inv.clientFetch (inv : Inv script s) (pc : s.clientPhase = .loop) :
    Inv script (s.clientNextEvent script[s.client.numEvents]?) := by
  obtain ⟨tracks, serverTracks, stage⟩ := inv
  have starts := tracks.starts script[s.client.numEvents]?
  have ends := tracks.ends script[s.client.numEvents]?
  have alive (error : String) : s.clientPhase ≠ .died error := by simp [pc]
  have inRun (opened : Open script s.client.numEvents) : ¬ ClientOut script s.client s.clientPhase :=
    fun client => (pc ▸ client).loop opened
  unfold System.clientNextEvent
  split
  · -- a run begins, so none was under way
    rename_i starting
    obtain ⟨packet, closed⟩ := starts.mp starting
    refine ⟨tracks.count, serverTracks, ?_⟩
    obtain ⟨e, here⟩ := isPacket_some packet
    obtain ⟨-, server, ahead, behind, toServer, toClient, count⟩ := stage.between (fun a client => closed client.isOpen) alive
    have before := ahead.le packet (Nat.le_refl _)
    refine .requested s.client.numEvents ?_ server before behind ?_ toClient ?_
    · rw [here] at packet ⊢
      exact ⟨Nat.lt_succ_self _, Span.single (by rw [here]; exact packet), .inr (.inl ⟨e, rfl⟩)⟩
    · simp [System.clientReturn, System.sendPacketsStart, toServer]
    · simp [System.clientReturn, System.sendPacketsStart, count]
  · rename_i starting
    split
    · -- the client waits for the answer
      rename_i ending
      obtain ⟨other, opened⟩ := ends.mp ending
      exact ⟨tracks, serverTracks, stage.goOn (inRun opened) alive
        (fun a client => ⟨client.1, client.2.1, .inr (.inr ⟨rfl, other⟩)⟩) fun _ _ inside => inside⟩
    · rename_i ending
      refine ⟨tracks.count, serverTracks, ?_⟩
      by_cases packet : isPacket script[s.client.numEvents]? = true
      · -- another event of the run
        have opened : Open script s.client.numEvents := by
          by_contra closed
          exact starting (starts.mpr ⟨packet, closed⟩)
        obtain ⟨e, here⟩ := isPacket_some packet
        rw [here]
        refine stage.goOn (inRun opened) alive (fun a client => client.take here (here ▸ packet)) fun b last inside => ?_
        have more : s.client.numEvents ≠ b := by
          intro same
          rw [same, last] at packet
          cases packet
        exact Nat.lt_of_le_of_ne inside more
      · -- an event between runs, or the end
        have other : isPacket script[s.client.numEvents]? = false := by simpa using packet
        have closed : ¬ Open script s.client.numEvents := fun opened => ending (ends.mpr ⟨other, opened⟩)
        obtain ⟨-, server, ahead, behind, toServer, toClient, count⟩ := stage.between (fun a client => closed client.isOpen) alive
        cases here : script[s.client.numEvents]? with
        | none => exact .closed (.inr ⟨rfl, eq_length tracks.1 here⟩) server ahead behind toServer toClient count
        | some e =>
          exact .closed (.inl ⟨not_open_succ other, .inr ⟨e, rfl⟩⟩) server ahead.tail (behind.snoc other) toServer toClient count

theorem ClientIn.awaits {p : Peer} {event : Option Event} (client : ClientIn script a p (.awaitDone event)) :
    event = script[p.numEvents]? ∧ isPacket script[p.numEvents]? = false := by
  obtain ⟨-, -, phase | ⟨e, phase⟩ | ⟨phase, other⟩⟩ := client
  · cases phase
  · cases phase
  · exact ⟨ClientPhase.awaitDone.inj phase, other⟩

theorem Inv.clientRead {event : Option Event} {m : Message} {rest : List Message} (inv : Inv script s)
    (pc : s.clientPhase = .awaitDone event) (arrived : s.toClient = m :: rest) :
    Inv script (({ s with toClient := rest } : System).clientReceive event m) := by
  obtain ⟨tracks, serverTracks, stage⟩ := inv
  cases stage with
  | closed _ _ _ _ _ toClient | requested _ _ _ _ _ _ toClient => rw [toClient] at arrived; cases arrived
  | serving a client server toServer toClient count =>
    rw [arrived] at toClient
    obtain ⟨text, rfl⟩ := toClient m (by simp)
    exact ⟨tracks, serverTracks, .serving a client server toServer (fun m' later => toClient m' (List.mem_cons_of_mem _ later)) count⟩
  | answered a b warnings client server span last inside past gap toServer warned toClient count =>
    rw [arrived] at toClient
    cases warnings with
    | cons w warnings =>
      obtain ⟨text, rfl⟩ := warned w (by simp)
      obtain ⟨rfl, rfl⟩ := List.cons.inj toClient
      exact ⟨tracks, serverTracks, .answered a b warnings client server span last inside past gap toServer
        (fun m' later => warned m' (List.mem_cons_of_mem _ later)) rfl count⟩
    | nil =>
      obtain ⟨rfl, rfl⟩ := List.cons.inj toClient
      have place := client.1
      rw [pc] at client
      obtain ⟨rfl, other⟩ := client.awaits
      -- the client waits behind the same run, so the counts agree
      obtain rfl : s.client.numEvents = b := Nat.le_antisymm inside (span.le other (Nat.le_of_lt place))
      simp only [System.clientReceive, if_true]
      refine ⟨tracks.count, serverTracks, ?_⟩
      cases here : script[s.client.numEvents]? with
      | none => exact .closed (.inr ⟨rfl, eq_length tracks.1 here⟩) server gap (Span.empty past) toServer rfl count
      | some e =>
        exact .closed (.inl ⟨not_open_succ other, .inr ⟨e, rfl⟩⟩) server gap.tail ((Span.empty past).snoc other) toServer rfl count
  | failed a warnings n error client server toServer warned toClient count =>
    rw [arrived] at toClient
    cases warnings with
    | cons w warnings =>
      obtain ⟨text, rfl⟩ := warned w (by simp)
      obtain ⟨rfl, rfl⟩ := List.cons.inj toClient
      exact ⟨tracks, serverTracks, .failed a warnings n error client server toServer (fun m' later => warned m' (List.mem_cons_of_mem _ later))
        rfl count⟩
    | nil =>
      obtain ⟨rfl, rfl⟩ := List.cons.inj toClient
      exact ⟨tracks, serverTracks, .died error rfl server toServer rfl count⟩
  | died error client => rw [pc] at client; cases client

theorem ClientIn.done {p : Peer} {phase : ClientPhase} (client : ClientIn script a p phase) : ClientIn script a p .loop :=
  ⟨client.1, client.2.1, .inl rfl⟩

theorem Inv.clientDone {e : Event} (inv : Inv script s) (pc : s.clientPhase = .process e) :
    Inv script { s with clientPhase := .loop } := by
  obtain ⟨tracks, serverTracks, stage⟩ := inv
  refine ⟨tracks, serverTracks, ?_⟩
  have alive (error : String) : s.clientPhase ≠ .died error := by simp [pc]
  by_cases opened : Open script s.client.numEvents
  · have inside : ¬ ClientOut script s.client s.clientPhase := by
      rw [pc]
      rintro (⟨closed, -⟩ | ⟨phase, -⟩)
      · exact closed opened
      · cases phase
    exact stage.goOn inside alive (fun _ client => client.done) fun _ _ inside => inside
  · obtain ⟨-, server, ahead, behind, toServer, toClient, count⟩ := stage.between (fun a client => opened client.isOpen) alive
    exact .closed (.inl ⟨opened, .inl rfl⟩) server ahead behind toServer toClient count

theorem Stage.answer {server : Peer} {phase : ServerPhase} (client : ClientIn script a s.client s.clientPhase)
    (inRun : ServerIn script a s.server s.serverPhase) (toServer : s.toServer = []) (toClient : Warnings s.toClient)
    (count : s.started = s.answered + 1) (last : isPacket script[s.server.numEvents]? = false)
    (out : ServerOut script server phase) (past : s.server.numEvents ≤ server.numEvents)
    (gap : Span script false s.server.numEvents server.numEvents) :
    Stage script { s.sendPacketsDone false "" with server, serverPhase := phase } := by
  have inside := client.2.1.le last (Nat.le_of_lt inRun.1)
  exact .answered a s.server.numEvents s.toClient client out inRun.2.1 last inside past gap toServer toClient rfl count

theorem Stage.skip {phase : ServerPhase} {server : Peer} (stage : Stage script s) (pc : s.serverPhase = .loop)
    (closed : ¬ Open script s.server.numEvents) (out : ServerOut script server phase)
    (past : s.server.numEvents ≤ server.numEvents) (gap : Span script false s.server.numEvents server.numEvents) :
    Stage script { s with server, serverPhase := phase } := by
  cases stage with
  | closed client _ ahead behind toServer toClient count =>
    refine .closed client out ?_ ?_ toServer toClient count
    · intro j lower upper
      by_cases before : j < s.server.numEvents
      · exact ahead j lower before
      · exact gap j (by omega) upper
    · intro j lower upper
      exact behind j (by simp only at lower; omega) upper
  | requested a client _ before gap' toServer toClient count =>
    have packet : isPacket script[a]? = true := client.2.1 a (Nat.le_refl _) client.1
    have ahead := gap.le packet before
    exact .requested a client out ahead (fun j lower => gap' j (Nat.le_trans past lower)) toServer toClient count
  | serving a client server => exact absurd server.isOpen closed
  | answered a b warnings client _ span last inside past' gap' toServer warned toClient count =>
    refine .answered a b warnings client out span last inside (Nat.le_trans past' past) ?_ toServer warned toClient count
    intro j lower upper
    by_cases before : j < s.server.numEvents
    · exact gap' j lower before
    · exact gap j (by omega) upper
  | failed a warnings n error client server => rw [pc] at server; cases server
  | died error client server => rw [pc] at server; cases server

theorem Inv.serverFetch (inv : Inv script s) (pc : s.serverPhase = .loop) :
    Inv script (s.serverNextEvent script[s.server.numEvents]?) := by
  obtain ⟨tracks, serverTracks, stage⟩ := inv
  have starts := serverTracks.starts script[s.server.numEvents]?
  have ends := serverTracks.ends script[s.server.numEvents]?
  have counted := serverTracks.count
  have serving (opened : Open script s.server.numEvents) :=
    stage.served (fun server => (pc ▸ server).loop opened) (by simp [pc])
  cases here : script[s.server.numEvents]? with
  | none =>
    rw [here] at ends counted
    have ended := eq_length serverTracks.1 here
    have last : isPacket script[s.server.numEvents]? = false := by rw [here]; rfl
    simp only [System.serverNextEvent]
    split
    · rename_i ending
      obtain ⟨a, client, server, toServer, toClient, count⟩ := serving (ends.mp ending).2
      exact ⟨tracks, counted, .answer client server toServer toClient count last (.inr ⟨rfl, ended⟩) (Nat.le_refl _)
        (Span.empty (Nat.le_refl _))⟩
    · rename_i ending
      have closed : ¬ Open script s.server.numEvents := fun opened => ending (ends.mpr ⟨rfl, opened⟩)
      exact ⟨tracks, counted, stage.skip pc closed (.inr ⟨rfl, ended⟩) (Nat.le_refl _) (Span.empty (Nat.le_refl _))⟩
  | some e =>
    rw [here] at starts ends counted
    simp only [System.serverNextEvent]
    split
    · -- the server waits for the start of the run
      rename_i starting
      obtain ⟨packet, closed⟩ := starts.mp starting
      refine ⟨tracks, serverTracks, ?_⟩
      have out : ServerOut script s.server (.awaitStart e) := .inl ⟨closed, .inr ⟨e, rfl, here, by simpa [isPacket] using packet⟩⟩
      exact stage.skip pc closed out (Nat.le_refl _) (Span.empty (Nat.le_refl _))
    · rename_i starting
      by_cases packet : isPacket (some e) = true
      · -- another event of the run
        have opened : Open script s.server.numEvents := by
          by_contra closed
          exact starting (starts.mpr ⟨packet, closed⟩)
        have going : ¬ s.server.ends (some e) = true := by
          intro ending
          rw [(ends.mp ending).1] at packet
          cases packet
        have type : e.type = .packet := by simpa [isPacket] using packet
        obtain ⟨a, client, server, toServer, toClient, count⟩ := serving opened
        rw [if_neg going]
        refine ⟨tracks, counted, .serving a client ⟨Nat.lt_succ_of_lt server.1, server.2.1.snoc (by rw [here]; exact packet),
          .inr ⟨e, ?_⟩⟩ toServer toClient count⟩
        simp [System.serverReturn, type]
      · have other : isPacket script[s.server.numEvents]? = false := by rw [here]; simpa using packet
        have type : e.type ≠ .packet := by simpa [isPacket] using packet
        have out : ServerOut script (s.server.count (some e)) .loop := .inl ⟨not_open_succ other, .inl rfl⟩
        have phase : (if e.type = .packet then ServerPhase.run e else .loop) = .loop := if_neg type
        simp only [System.serverReturn, phase]
        split
        · -- the run has ended
          rename_i ending
          obtain ⟨a, client, server, toServer, toClient, count⟩ := serving (ends.mp ending).2
          exact ⟨tracks, counted, .answer client server toServer toClient count other out (Nat.le_succ _) (Span.single other)⟩
        · rename_i ending
          have closed : ¬ Open script s.server.numEvents := by
            intro opened
            exact ending (ends.mpr ⟨by simpa using packet, opened⟩)
          exact ⟨tracks, counted, stage.skip pc closed out (Nat.le_succ _) (Span.single other)⟩

theorem ServerOut.awaits {p : Peer} {e : Event} (server : ServerOut script p (.awaitStart e)) :
    script[p.numEvents]? = some e ∧ e.type = .packet := by
  obtain ⟨-, phase | ⟨e', phase, here, packet⟩⟩ | ⟨phase, -⟩ := server
  · cases phase
  · cases phase
    exact ⟨here, packet⟩
  · cases phase

theorem Inv.serverRead {e : Event} {m : Message} {rest : List Message} (inv : Inv script s)
    (pc : s.serverPhase = .awaitStart e) (arrived : s.toServer = m :: rest) :
    Inv script (({ s with toServer := rest } : System).serverReceive e m) := by
  obtain ⟨tracks, serverTracks, stage⟩ := inv
  have counted := serverTracks.count
  cases stage with
  | requested a client server before gap toServer toClient count =>
    rw [arrived] at toServer
    obtain ⟨rfl, rfl⟩ := List.cons.inj toServer
    rw [pc] at server
    obtain ⟨here, type⟩ := server.awaits
    have packet : isPacket script[s.server.numEvents]? = true := by simp [here, isPacket, type]
    -- only events of the client lie between the server and the run
    obtain rfl : s.server.numEvents = a := Nat.le_antisymm before (gap.le packet (Nat.le_refl _))
    simp only [System.serverReceive, if_true]
    refine ⟨tracks, here ▸ counted, .serving s.server.numEvents client ⟨Nat.lt_succ_self _, Span.single packet, .inr ⟨e, ?_⟩⟩ rfl ?_ count⟩
    · simp [System.serverReturn, type]
    · intro m listed
      rw [System.serverReturn, toClient] at listed
      cases listed
  | closed _ _ _ _ toServer | serving _ _ _ toServer | answered _ _ _ _ _ _ _ _ _ _ toServer | failed _ _ _ _ _ _ toServer
  | died _ _ _ toServer =>
    rw [toServer] at arrived
    cases arrived

theorem Inv.serverRan {e : Event} (inv : Inv script s) (pc : s.serverPhase = .run e) (outcome : System.Outcome) :
    Inv script (s.serverRan outcome) := by
  obtain ⟨tracks, serverTracks, stage⟩ := inv
  obtain ⟨a, client, server, toServer, toClient, count⟩ := stage.served (pc ▸ ServerOut.not_run) (by simp [pc])
  have loops : ServerIn script a s.server .loop := ⟨server.1, server.2.1, .inl rfl⟩
  cases outcome with
  | ok => exact ⟨tracks, serverTracks, .serving a client loops toServer toClient count⟩
  | warn warning =>
    refine ⟨tracks, serverTracks, .serving a client loops toServer ?_ count⟩
    intro m listed
    rcases List.mem_append.mp listed with earlier | last
    · exact toClient m earlier
    · exact ⟨warning, List.mem_singleton.mp last⟩
  | err error => exact ⟨tracks, serverTracks, .failed a s.toClient _ error client rfl toServer toClient rfl count⟩

theorem Inv.step {s' : System} (inv : Inv script s) (step : System.Step scriptPath script s s') : Inv script s' := by
  cases step with
  | clientFetch event pc next => rw [getNextEvent_eq next]; exact inv.clientFetch pc
  | clientRead event m rest pc arrived => exact inv.clientRead pc arrived
  | clientDone e pc => exact inv.clientDone pc
  | serverFetch event pc next => rw [getNextEvent_eq next]; exact inv.serverFetch pc
  | serverRead e m rest pc arrived => exact inv.serverRead pc arrived
  | serverRan e outcome pc => exact inv.serverRan pc outcome

theorem Inv.run {s' : System} (inv : Inv script s) (run : System.Run scriptPath script s s') : Inv script s' := by
  induction run with
  | refl => exact inv
  | tail _ step ih => exact ih.step step

end TcpFuzz.Wire
