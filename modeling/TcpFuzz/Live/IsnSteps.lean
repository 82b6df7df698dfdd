import TcpFuzz.Live.SocketSteps

/-! What each step leaves known of the initial sequence numbers of the sockets. -/

namespace TcpFuzz
open Bytes Mem

variable {s : TestSocket} {p live : Packet} {script : Option Packet} {i : Nat} {received : List Packet}

section States

variable {st st' : LiveState} {i : Nat} {f : TestSocket → TestSocket}

theorem LiveState.Known.modify (known : st.Known) (kept : ∀ s, st.sockets[i]? = some s → IsnKnown s → IsnKnown (f s)) :
    (st.modify i f).Known := by
  intro t member
  obtain ⟨j, inside, rfl⟩ := List.getElem_of_mem member
  have bound : j < st.sockets.length := by simpa [LiveState.modify] using inside
  have before := known _ (List.getElem_mem bound)
  simp only [LiveState.modify, List.getElem_modify]
  split
  · rename_i same
    subst same
    exact kept _ (List.getElem?_eq_getElem bound) before
  · exact before

theorem LiveState.Known.add (known : st.Known) (here : IsnKnown s) : (st.add s).Known := by
  intro t member
  rcases List.mem_append.mp member with old | new
  · exact known t old
  · rw [List.mem_singleton.mp new]
    exact here

theorem LiveState.Known.modifyUnderTest (known : st.Known)
    (kept : ∀ s, st.underTest = some s → IsnKnown s → IsnKnown (f s)) : (st.modifyUnderTest f).Known := by
  unfold LiveState.modifyUnderTest
  cases under : st.socketUnderTest with
  | none => exact known
  | some i =>
    refine known.modify fun s here => kept s ?_
    rw [LiveState.underTest, under]
    exact here

theorem LiveState.modifyUnderTest_twice (st : LiveState) (f g : TestSocket → TestSocket) :
    (st.modifyUnderTest f).modifyUnderTest g = st.modifyUnderTest (g ∘ f) := by
  unfold LiveState.modifyUnderTest
  cases under : st.socketUnderTest with
  | none => simp only [under]
  | some i => simp only [LiveState.modify, under, List.modify_modify_eq]

/-! ### Finding the socket of a script packet -/

theorem findSocketForScriptPacket_state {r : Lookup} (returned : findSocketForScriptPacket st p = .ok r) :
    r.state = st := by
  unfold findSocketForScriptPacket at returned
  obtain ⟨matched, -, returned⟩ := run_bind_ok returned
  repeat' split at returned
  all_goals
    cases returned
    rfl

theorem IsnKnown.synSent (opening : isOpening p) (tuple : Tuple) :
    IsnKnown (s.synSent p tuple (segmentSeq p)) := by
  constructor
  · intro late
    simp [TestSocket.synSent] at late
  · intro _
    refine ⟨p, opening, rfl, rfl, ?_⟩
    rintro ⟨q, member, -⟩
    cases member

theorem connectSocket_known (known : st.Known) (connected : connectSocket st p = .ok st') : st'.Known := by
  unfold connectSocket at connected
  split at connected
  · cases connected
    exact known
  · obtain ⟨s, created, connected⟩ := run_bind_ok connected
    obtain ⟨protocol, -, created⟩ := run_bind_ok created
    cases connected
    cases created
    exact known.add (.early (.inl rfl))

theorem lookup_known {ephemeral : UInt16} {d : Direction} {r : Lookup} (known : st.Known)
    (returned : findOrCreateSocketForScriptPacket ephemeral st p d = .ok r) : r.state.Known := by
  unfold findOrCreateSocketForScriptPacket at returned
  cases segment : p.tcp with
  | none =>
    rw [segment] at returned
    exact findSocketForScriptPacket_state returned ▸ known
  | some tcp =>
    rw [segment] at returned
    obtain ⟨⟨st₁, child⟩, listened, returned⟩ := run_bind_ok returned
    rcases handleListenForScriptPacket_ok listened with ⟨-, -, s, fresh, sockets, -, rfl, -⟩ | ⟨-, rfl, rfl⟩
    · cases returned
      intro t member
      rw [sockets] at member
      rcases List.mem_append.mp member with old | new
      · exact known t old
      · rw [List.mem_singleton.mp new]
        exact .early (.inr (.inr (.inr (.inl fresh.state))))
    obtain ⟨⟨st₂, connecting⟩, connected, returned⟩ := run_bind_ok returned
    rcases handleConnectForScriptPacket_ok segment connected with ⟨sends, before, i, tuple, created, -, rfl, rfl⟩ | ⟨-, rfl, rfl⟩
    · cases returned
      refine (connectSocket_known known created).modify fun s _ _ => ?_
      have opening : isOpening p := by
        simp [isOpening, segment, sends.2.1, sends.2.2.1]
      have seq : segmentSeq p = UInt32.ofNat (tcpSeq p.buffer tcp) := by
        rw [segmentSeq, segment]
        rfl
      rw [← seq]
      exact .synSent opening tuple
    · exact findSocketForScriptPacket_state returned ▸ known

/-! ### Sniffed packets -/

/-- A packet is sniffed for the socket under test, by the tuple of the socket or because the socket is
connecting, or it changes nothing. -/
theorem sniffReceived_ok {sniff : Option Sniff}
    (ran : sniffReceived script st live = .ok (st', sniff)) :
    (sniff = none ∧ st' = st) ∨ ∃ s tuple, st.underTest = some s ∧ sniff = some ⟨s, script, live⟩ ∧
      getPacketTuple live = .ok tuple ∧
      (s.isTuple live tuple (socketGetOutbound s.live) ∧ st' = st.modifyUnderTest (.keep live) ∨
        s.wouldSend live tuple ∧ st' = st.modifyUnderTest (TestSocket.keep live ∘ .learn live tuple)) := by
  unfold sniffReceived at ran
  obtain ⟨direction, found, ran⟩ := run_bind_ok ran
  split at ran
  · rename_i outbound
    subst outbound
    cases ran
    unfold findSocketForLivePacket at found
    cases under : st.underTest with
    | none => rw [under] at found; cases found
    | some s =>
      rw [under] at found
      obtain ⟨tuple, hasTuple, found⟩ := run_bind_ok found
      split at found
      · cases found
      · split at found
        · rename_i outbound
          exact .inr ⟨s, tuple, rfl, rfl, hasTuple, .inl ⟨outbound, rfl⟩⟩
        · cases found
  · obtain ⟨⟨st₁, connecting⟩, connected, ran⟩ := run_bind_ok ran
    unfold findConnectForLivePacket at connected
    obtain ⟨tuple, hasTuple, connected⟩ := run_bind_ok connected
    split at connected
    · rename_i sends
      cases connected
      cases ran
      cases under : st.underTest with
      | none => simp [under] at sends
      | some s =>
        rw [under] at sends
        exact .inr ⟨s, tuple, rfl, rfl, hasTuple, .inr ⟨sends, st.modifyUnderTest_twice _ _⟩⟩
    · cases connected
      cases ran
      exact .inl ⟨rfl, rfl⟩

theorem Learned.keep {script q : Packet} (learned : Learned s script q) (live : Packet) :
    Learned (s.keep live) script q :=
  ⟨learned.opened, learned.scriptIsn, List.mem_append_left _ learned.sniffed, learned.syn, learned.liveIsn⟩

theorem IsnKnown.keep (known : IsnKnown s)
    (later : s.state = .activeSynSent ∨ s.state = .activeSynAcked → isSyn live → ∃ q ∈ s.sniffed, isSyn q) :
    IsnKnown (s.keep live) := by
  constructor
  · intro late
    obtain ⟨script, q, synack, learned⟩ := known.passive late
    exact ⟨script, q, synack, learned.keep live⟩
  · intro late
    obtain ⟨script, opening, opened, isn, first⟩ := known.active late
    refine ⟨script, opening, opened, isn, ?_⟩
    rintro ⟨q, member, syn⟩
    have earlier : ∃ q ∈ s.sniffed, isSyn q := by
      rcases List.mem_append.mp member with old | new
      · exact ⟨q, old, syn⟩
      · rw [List.mem_singleton.mp new] at syn
        exact later late syn
    obtain ⟨live', learned⟩ := first earlier
    exact ⟨live', learned.keep live⟩

theorem TestSocket.wouldSend_cases {tuple : Tuple} (sends : s.wouldSend live tuple) :
    s.state = .activeConnecting ∨ s.state = .activeSynSent ∧ isOpening live := by
  simp only [wouldSend, Bool.and_eq_true, Bool.or_eq_true, decide_eq_true_eq] at sends
  obtain ⟨(⟨-, state⟩ | ⟨⟨opening, -⟩, state⟩) | ⟨-, state⟩, -⟩ := sends
  · exact .inl state
  · exact .inr ⟨state, opening⟩
  · exact .inl state

theorem isSyn_of_isOpening (opening : isOpening p) : isSyn p ∧ p.tcp.isSome := by
  cases segment : p.tcp with
  | none => simp [isOpening, segment] at opening
  | some tcp =>
    simp only [isOpening, segment, Option.any_some, Bool.and_eq_true] at opening
    exact ⟨by simp [isSyn, segment, opening.1], rfl⟩

theorem IsnKnown.learn {tuple : Tuple} (known : IsnKnown s)
    (sends : s.wouldSend live tuple) : IsnKnown ((s.learn live tuple).keep live) := by
  rcases s.wouldSend_cases sends with state | ⟨state, opening⟩
  · exact .early (.inr (.inr (.inr (.inr state))))
  obtain ⟨syn, segment⟩ := isSyn_of_isOpening opening
  constructor
  · intro late
    rcases late with other | other
    all_goals cases state.symm.trans other
  · intro _
    obtain ⟨script, opened, isOpened, isn, -⟩ := known.active (.inl state)
    refine ⟨script, opened, isOpened, isn, fun _ => ⟨live, isOpened, isn, ?_, syn, if_pos segment⟩⟩
    exact List.mem_append_right _ (List.mem_singleton_self live)

theorem sniffReceived_known {sniff : Option Sniff} (known : st.Known)
    (ran : sniffReceived script st live = .ok (st', sniff)) (telling : ∀ e, sniff = some e → e.Telling) : st'.Known := by
  rcases sniffReceived_ok ran with ⟨-, rfl⟩ | ⟨s, tuple, under, rfl, hasTuple, ⟨ours, rfl⟩ | ⟨sends, rfl⟩⟩
  · exact known
  · refine known.modifyUnderTest fun t here before => before.keep fun late syn => ?_
    cases here.symm.trans under
    by_contra none
    push Not at none
    apply (telling _ rfl).first late syn fun q member => by simpa using none q member
    rw [hasTuple]
    exact ours
  · refine known.modifyUnderTest fun t here before => ?_
    cases here.symm.trans under
    exact before.learn sends

/-! ### Outbound script packets -/

/-- The script packet that is being run is the one stored, as long as its SYN/ACK is expected. -/
def LiveState.Expects (st : LiveState) (i : Nat) (p : Packet) : Prop :=
  ∀ s, st.sockets[i]? = some s → s.expectsSynack p → s.opened = some p ∧ s.script.localIsn = segmentSeq p

theorem LiveState.getElem?_modifyUnderTest (st : LiveState) (f : TestSocket → TestSocket) (i : Nat) :
    (st.modifyUnderTest f).sockets[i]? = if st.socketUnderTest = some i then st.sockets[i]?.map f else st.sockets[i]? := by
  unfold LiveState.modifyUnderTest
  cases under : st.socketUnderTest with
  | none => rfl
  | some j =>
    simp only [LiveState.modify, List.getElem?_modify, Option.some.injEq]
    split
    · rfl
    · exact congrFun Option.map_id_fun' _

theorem LiveState.socketUnderTest_modifyUnderTest (st : LiveState) (f : TestSocket → TestSocket) :
    (st.modifyUnderTest f).socketUnderTest = st.socketUnderTest := by
  unfold LiveState.modifyUnderTest
  split <;> rfl

theorem sniffReceived_socket {sniff : Option Sniff}
    (ran : sniffReceived script st live = .ok (st', sniff)) :
    st'.socketUnderTest = st.socketUnderTest ∧ ∀ i s', st'.sockets[i]? = some s' → ∃ s, st.sockets[i]? = some s ∧
      s'.state = s.state ∧ s'.opened = s.opened ∧ s'.script = s.script ∧
      (∀ e, sniff = some e → st.socketUnderTest = some i → e = ⟨s, script, live⟩ ∧ live ∈ s'.sniffed) := by
  have changed {s : TestSocket} (under : st.underTest = some s) {f : TestSocket → TestSocket}
      (same : st' = st.modifyUnderTest f)
      (fields : ∀ t, (f t).state = t.state ∧ (f t).opened = t.opened ∧ (f t).script = t.script ∧ live ∈ (f t).sniffed)
      (sniffed : sniff = some ⟨s, script, live⟩) :
      st'.socketUnderTest = st.socketUnderTest ∧ ∀ i s', st'.sockets[i]? = some s' → ∃ s, st.sockets[i]? = some s ∧
        s'.state = s.state ∧ s'.opened = s.opened ∧ s'.script = s.script ∧
        (∀ e, sniff = some e → st.socketUnderTest = some i → e = ⟨s, script, live⟩ ∧ live ∈ s'.sniffed) := by
    subst same
    refine ⟨st.socketUnderTest_modifyUnderTest f, fun i s' found => ?_⟩
    rw [st.getElem?_modifyUnderTest] at found
    split at found
    · rename_i here
      obtain ⟨t, old, rfl⟩ := Option.map_eq_some_iff.mp found
      obtain ⟨state, opened, numbers, kept⟩ := fields t
      have same : s = t := by
        rw [LiveState.underTest, here] at under
        exact Option.some.inj (under.symm.trans old)
      refine ⟨t, old, state, opened, numbers, fun e told _ => ⟨?_, kept⟩⟩
      rw [sniffed, same] at told
      exact (Option.some.inj told).symm
    · rename_i other
      exact ⟨s', found, rfl, rfl, rfl, fun e told here => absurd here other⟩
  rcases sniffReceived_ok ran with ⟨rfl, rfl⟩ | ⟨s, tuple, under, sniffed, -, ⟨-, same⟩ | ⟨-, same⟩⟩
  · exact ⟨rfl, fun i s' found => ⟨s', found, rfl, rfl, rfl, fun e told => by cases told⟩⟩
  · exact changed under same (fun t => ⟨rfl, rfl, rfl, List.mem_append_right _ (List.mem_singleton_self live)⟩) sniffed
  · exact changed under same (fun t => ⟨rfl, rfl, rfl, List.mem_append_right _ (List.mem_singleton_self live)⟩) sniffed

theorem synackSniffed_known (known : st.Known) (expects : st.Expects i p)
    (kept : ∀ s, st.sockets[i]? = some s → s.expectsSynack p → live ∈ s.sniffed ∧ isSyn live)
    (ran : synackSniffed i p live st = .ok st') : st'.Known ∧ st'.Expects i p := by
  unfold synackSniffed at ran
  split at ran
  · obtain ⟨tcp, -, ran⟩ := run_bind_ok ran
    cases ran
    rename_i expected
    have expectedHere {s : TestSocket} (here : st.sockets[i]? = some s) : s.expectsSynack p := by
      rwa [here] at expected
    refine ⟨known.modify fun s here _ => ?_, fun s' found => ?_⟩
    · obtain ⟨opened, isn⟩ := expects s here (expectedHere here)
      obtain ⟨member, syn⟩ := kept s here (expectedHere here)
      have synack : isSynack p := by
        have := expectedHere here
        simp only [TestSocket.expectsSynack, Bool.and_eq_true] at this
        exact this.2
      constructor
      · intro _
        exact ⟨p, live, synack, opened, isn, member, syn, rfl⟩
      · intro late
        simp [TestSocket.synackSent] at late
    · have moved : (st.modify i (.synackSent live)).sockets[i]? = st.sockets[i]?.map (.synackSent live) := by
        simp [LiveState.modify]
      rw [moved] at found
      obtain ⟨s, -, rfl⟩ := Option.map_eq_some_iff.mp found
      intro impossible
      simp [TestSocket.expectsSynack, TestSocket.synackSent] at impossible
  · cases ran
    exact ⟨known, expects⟩

theorem outboundLoop_known {sniffs : List Sniff} (known : st.Known)
    (expects : st.Expects i p) (ran : outboundLoop i p st received = .ok (st', sniffs)) (telling : ∀ e ∈ sniffs, e.Telling) :
    st'.Known := by
  induction received generalizing st sniffs with
  | nil =>
    cases ran
    exact known
  | cons live received ih =>
    rw [outboundLoop] at ran
    obtain ⟨⟨st₁, sniff⟩, sniffed, ran⟩ := run_bind_ok ran
    obtain ⟨under, sockets⟩ := sniffReceived_socket sniffed
    have expects₁ : st₁.Expects i p := by
      intro s' found expected
      obtain ⟨s, old, state, opened, numbers, -⟩ := sockets i s' found
      rw [TestSocket.expectsSynack, state] at expected
      obtain ⟨isOpened, isn⟩ := expects s old expected
      exact ⟨opened.trans isOpened, (congrArg SocketState.localIsn numbers).trans isn⟩
    cases sniff with
    | none => exact ih (sniffReceived_known known sniffed fun e told => by cases told) expects₁ ran telling
    | some e =>
      -- the packet is told of in every way out of the loop
      have continued (here : e ∈ sniffs) : st₁.Known := by
        refine sniffReceived_known known sniffed fun e' told => ?_
        cases told
        exact telling e here
      dsimp only at ran
      split at ran
      · cases ran
        exact continued (List.mem_singleton_self e)
      rename_i ours
      obtain ⟨_, -, ran⟩ := run_bind_ok ran
      obtain ⟨st₂, answered, ran⟩ := run_bind_ok ran
      have taken (here : e ∈ sniffs) : st₂.Known ∧ st₂.Expects i p := by
        refine synackSniffed_known (continued here) expects₁ (fun s' found expected => ?_) answered
        obtain ⟨s, -, state, -, -, kept⟩ := sockets i s' found
        obtain ⟨rfl, member⟩ := kept e rfl (under ▸ not_not.mp ours)
        simp only [TestSocket.expectsSynack, state, Bool.and_eq_true, decide_eq_true_eq] at expected
        exact ⟨member, (telling _ here).synack expected.1 expected.2⟩
      obtain ⟨converted, -, ran⟩ := run_bind_ok ran
      cases converted with
      | error message =>
        cases ran
        exact (taken (List.mem_singleton_self e)).1
      | ok mapped =>
        obtain ⟨⟨st₃, others⟩, rest, ran⟩ := run_bind_ok ran
        cases ran
        obtain ⟨known₂, expects₂⟩ := taken List.mem_cons_self
        exact ih known₂ expects₂ rest fun e' member => telling e' (List.mem_cons_of_mem _ member)

theorem doOutboundScriptPacket_known {sniffs : List Sniff} (known : st.Known)
    (ran : doOutboundScriptPacket i p st received = .ok (st', sniffs)) (telling : ∀ e ∈ sniffs, e.Telling) : st'.Known := by
  unfold doOutboundScriptPacket at ran
  obtain ⟨_, -, ran⟩ := run_bind_ok ran
  refine outboundLoop_known (known.modify fun s _ before => ?_) ?_ ran telling
  · unfold TestSocket.expectSynack
    split
    · rename_i expected
      simp only [TestSocket.expectsSynack, Bool.and_eq_true, decide_eq_true_eq] at expected
      exact .early (.inr (.inr (.inr (.inl expected.1))))
    · exact before
  · intro s' found
    have moved : (st.modify i (.expectSynack p)).sockets[i]? = st.sockets[i]?.map (.expectSynack p) := by
      simp [LiveState.modify]
    rw [moved] at found
    obtain ⟨s, -, rfl⟩ := Option.map_eq_some_iff.mp found
    unfold TestSocket.expectSynack
    split
    · intro _
      exact ⟨rfl, rfl⟩
    · rename_i other
      intro expected
      exact absurd expected other

/-! ### Inbound script packets -/

theorem rememberInjected_fields {s s' : Socket} (ran : rememberInjected s live = .ok s') :
    s'.state = s.state ∧ s'.script = s.script ∧ s'.live = s.live := by
  unfold rememberInjected at ran
  split at ran
  · cases ran
    exact ⟨rfl, rfl, rfl⟩
  · obtain ⟨_, -, ran⟩ := run_bind_ok ran
    cases ran
    exact ⟨rfl, rfl, rfl⟩

theorem doInboundScriptPacket_socket {allocated : Mem} {config : Config} {s : Socket} {r : Injection}
    (ran : doInboundScriptPacket allocated config s p = .ok r) :
    r.socket.state = (inboundHandshake s p).state ∧ r.socket.script.localIsn = s.script.localIsn ∧
      r.socket.live.localIsn = s.live.localIsn := by
  have followed : (inboundHandshake s p).script.localIsn = s.script.localIsn ∧
      (inboundHandshake s p).live.localIsn = s.live.localIsn := by
    unfold inboundHandshake
    repeat' split
    all_goals exact ⟨rfl, rfl⟩
  have filled : (fillAnyip config (inboundHandshake s p) p).state = (inboundHandshake s p).state ∧
      (fillAnyip config (inboundHandshake s p) p).script.localIsn = s.script.localIsn ∧
      (fillAnyip config (inboundHandshake s p) p).live.localIsn = s.live.localIsn := by
    unfold fillAnyip
    split
    all_goals exact ⟨rfl, followed⟩
  unfold doInboundScriptPacket at ran
  obtain ⟨_, -, ran⟩ := run_bind_ok ran
  obtain ⟨_, -, ran⟩ := run_bind_ok ran
  obtain ⟨mapped, -, ran⟩ := run_bind_ok ran
  cases mapped with
  | error e =>
    cases ran
    exact filled
  | ok live =>
    obtain ⟨s', remembered, ran⟩ := run_bind_ok ran
    obtain ⟨_, -, ran⟩ := run_bind_ok ran
    cases ran
    obtain ⟨state, script, live⟩ := rememberInjected_fields remembered
    exact ⟨state.trans filled.1, (congrArg _ script).trans filled.2.1, (congrArg _ live).trans filled.2.2⟩

theorem inboundHandshake_state (s : Socket) (p : Packet) :
    (inboundHandshake s p).state = s.state ∨
      s.state = .passiveSynackSent ∧ (inboundHandshake s p).state = .passiveSynackAcked ∨
      s.state = .activeSynSent ∧ (inboundHandshake s p).state = .activeSynAcked := by
  unfold inboundHandshake
  split
  · exact .inl rfl
  · split
    · rename_i sent
      exact .inr (.inl ⟨sent.1, rfl⟩)
    · split
      · rename_i sent
        exact .inr (.inr ⟨sent.1, rfl⟩)
      · exact .inl rfl

theorem IsnKnown.advance {t : TestSocket} (known : IsnKnown s)
    (moved : t.state = s.state ∨ s.state = .passiveSynackSent ∧ t.state = .passiveSynackAcked ∨
      s.state = .activeSynSent ∧ t.state = .activeSynAcked) (opened : t.opened = s.opened) (sniffed : t.sniffed = s.sniffed)
    (scriptIsn : t.script.localIsn = s.script.localIsn) (liveIsn : t.live.localIsn = s.live.localIsn) : IsnKnown t := by
  have back : IsnKnown { t with state := s.state } := known.congr rfl opened sniffed scriptIsn liveIsn
  constructor
  · intro late
    obtain ⟨script, live, synack, learned⟩ := back.passive (by
      rcases moved with same | ⟨sent, -⟩ | ⟨-, acked⟩
      · exact same ▸ late
      · exact .inl sent
      · simp [acked] at late)
    exact ⟨script, live, synack, learned.opened, learned.scriptIsn, learned.sniffed, learned.syn, learned.liveIsn⟩
  · intro late
    obtain ⟨script, opening, isOpened, isn, first⟩ := back.active (by
      rcases moved with same | ⟨-, acked⟩ | ⟨sent, -⟩
      · exact same ▸ late
      · simp [acked] at late
      · exact .inl sent)
    refine ⟨script, opening, isOpened, isn, fun some => ?_⟩
    obtain ⟨live, learned⟩ := first some
    exact ⟨live, learned.opened, learned.scriptIsn, learned.sniffed, learned.syn, learned.liveIsn⟩

theorem injectInbound_known {allocated : Mem} (known : st.Known)
    (ran : injectInbound allocated i p st = .ok st') : st'.Known := by
  unfold injectInbound at ran
  split at ran
  · cases ran
    exact known
  · rename_i s here
    obtain ⟨injection, injected, ran⟩ := run_bind_ok ran
    cases ran
    refine known.modify fun t found before => ?_
    cases found.symm.trans here
    obtain ⟨state, scriptIsn, liveIsn⟩ := doInboundScriptPacket_socket injected
    refine before.advance ?_ rfl rfl scriptIsn liveIsn
    show injection.socket.state = _ ∨ _ ∧ injection.socket.state = _ ∨ _ ∧ injection.socket.state = _
    rw [state]
    exact inboundHandshake_state _ _

end States

end TcpFuzz
