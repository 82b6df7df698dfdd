import TcpFuzz.Live.IsnSteps

/-! The script's initial sequence number of a connection comes from a script packet and the live one from a sniffed
packet, at different steps. Here is what holds of the two numbers in every state of a run. -/

namespace TcpFuzz
open Bytes Mem

variable {s : TestSocket} {p live : Packet}

section States

variable {st st' : LiveState}

/-! ### Runs -/

theorem acceptSocket_known {scriptFd liveFd : Int} {peer : Endpoint} {family : AddressFamily} (known : st.Known)
    (ran : acceptSocket st scriptFd liveFd peer family = .ok st') : st'.Known := by
  unfold acceptSocket at ran
  split at ran
  · obtain ⟨_, -, ran⟩ := run_bind_ok ran
    cases ran
    exact known.modify fun s _ before => before.congr rfl rfl rfl rfl rfl
  · split at ran
    · cases ran
      exact known.add (.early (.inl rfl))
    · cases ran
      exact known

theorem IsnKnown.connect (known : IsnKnown s) (config : RunConfig) (unspec : Bool) :
    IsnKnown (s.connect config unspec) := by
  unfold TestSocket.connect
  split
  · exact .early (.inr (.inl rfl))
  · split
    · exact .early (.inr (.inr (.inr (.inr rfl))))
    · exact known

theorem sniffFirst_known {sniffs : List Sniff} (known : st.Known)
    (ran : sniffFirst st received = .ok (st', sniffs)) (telling : ∀ e ∈ sniffs, e.Telling) : st'.Known := by
  induction received generalizing st with
  | nil =>
    cases ran
    exact known
  | cons live received ih =>
    rw [sniffFirst] at ran
    obtain ⟨⟨st₁, sniff⟩, sniffed, ran⟩ := run_bind_ok ran
    cases sniff with
    | none => exact ih (sniffReceived_known known sniffed fun e told => by cases told) ran
    | some e =>
      cases ran
      refine sniffReceived_known known sniffed fun e' told => ?_
      cases told
      exact telling e (List.mem_singleton_self e)

theorem liveStep_known {action : LiveAction} {sniffs : List Sniff} (known : st.Known)
    (ran : liveStep st action = .ok (st', sniffs)) (telling : ∀ e ∈ sniffs, e.Telling) : st'.Known := by
  cases action with
  | socket family protocol scriptFd liveFd =>
    cases ran
    exact known.add (.early (.inr (.inl rfl)))
  | listen i =>
    cases ran
    exact known.modify fun s _ _ => .early (.inr (.inr (.inl rfl)))
  | accept scriptFd liveFd peer family =>
    obtain ⟨st₁, accepted, ran⟩ := run_bind_ok ran
    cases ran
    exact acceptSocket_known known accepted
  | connect i unspec =>
    cases ran
    exact known.modify fun s _ before => before.connect st.config unspec
  | inbound ephemeral allocated p =>
    obtain ⟨found, lookup, ran⟩ := run_bind_ok ran
    obtain ⟨answer, -, ran⟩ := run_bind_ok ran
    have known₁ := lookup_known known lookup
    cases answer with
    | error e =>
      cases ran
      exact known₁
    | ok i =>
      obtain ⟨st₁, injected, ran⟩ := run_bind_ok ran
      cases ran
      exact injectInbound_known known₁ injected
  | outbound ephemeral p received =>
    obtain ⟨found, lookup, ran⟩ := run_bind_ok ran
    obtain ⟨answer, -, ran⟩ := run_bind_ok ran
    have known₁ := lookup_known known lookup
    cases answer with
    | error e =>
      cases ran
      exact known₁
    | ok i => exact doOutboundScriptPacket_known known₁ ran telling
  | validate ephemeral p received =>
    obtain ⟨found, lookup, ran⟩ := run_bind_ok ran
    exact sniffFirst_known (lookup_known known lookup) ran telling

theorem liveRun_known {actions : List LiveAction} {sniffs : List Sniff} (known : st.Known)
    (ran : liveRun st actions = .ok (st', sniffs)) (telling : ∀ e ∈ sniffs, e.Telling) : st'.Known := by
  induction actions generalizing st sniffs with
  | nil =>
    cases ran
    exact known
  | cons action actions ih =>
    rw [liveRun] at ran
    obtain ⟨⟨st₁, first⟩, stepped, ran⟩ := run_bind_ok ran
    obtain ⟨⟨st₂, others⟩, rest, ran⟩ := run_bind_ok ran
    cases ran
    have known₁ := liveStep_known known stepped fun e member => telling e (List.mem_append_left _ member)
    exact ih known₁ rest fun e member => telling e (List.mem_append_right _ member)

end States

/-- The conversion of a sniffed packet to script values maps it onto a script packet. -/
def MapsOnto (s : TestSocket) (live script : Packet) : Prop :=
  ∀ q, tcpConvertSeqNumber s.toSocket live = .ok (.ok q) → segmentSeq q = segmentSeq script

theorem Learned.mapsOnto {script : Packet} (learned : Learned s script live) : MapsOnto s live script := by
  intro q converted
  have syn := learned.syn
  have isn := learned.liveIsn
  unfold tcpConvertSeqNumber at converted
  cases segment : live.tcp with
  | none => simp [isSyn, segment] at syn
  | some tcp =>
    rw [isSyn, segment, Option.any_some] at syn
    rw [segment] at converted
    simp only [deref, ok_bind, syn] at converted
    obtain ⟨found, seq⟩ := offsetSeqNumbers_seq segment converted
    rw [segmentSeq, segment, Option.elim] at isn
    rw [← learned.scriptIsn, segmentSeq, found, Option.elim, seq]
    have wrapped (n : Nat) : UInt32.ofNat (n % 2 ^ 32) = UInt32.ofNat n :=
      UInt32.toNat_inj.mp (by simp only [UInt32.toNat_ofNat', Nat.mod_mod])
    rw [wrapped, UInt32.ofNat_add, UInt32.ofNat_toNat, ← isn, localSeqLiveToScriptOffset, localSeqScriptToLiveOffset, if_pos rfl]
    grind

/-- In every run whose sniffed packets are telling, the numbers of a connection are those of its script
packet and of a live SYN of its own, onto each other. -/
theorem isn_learned {st₀ st : LiveState} {actions : List LiveAction} {sniffs : List Sniff} (fresh : st₀.sockets = [])
    (ran : liveRun st₀ actions = .ok (st, sniffs)) (telling : ∀ e ∈ sniffs, e.Telling) {s : TestSocket} (member : s ∈ st.sockets) :
    (s.state = .passiveSynackSent ∨ s.state = .passiveSynackAcked →
        ∃ script live, isSynack script ∧ Learned s script live ∧ MapsOnto s live script) ∧
      (s.state = .activeSynAcked → (∃ q ∈ s.sniffed, isSyn q) →
        ∃ script live, isOpening script ∧ Learned s script live ∧ MapsOnto s live script) := by
  have started : st₀.Known := by
    intro s member
    rw [fresh] at member
    cases member
  have known := liveRun_known started ran telling s member
  constructor
  · intro late
    obtain ⟨script, live, synack, learned⟩ := known.passive late
    exact ⟨script, live, synack, learned, learned.mapsOnto⟩
  · intro late sniffed
    obtain ⟨script, opening, -, -, first⟩ := known.active (.inr late)
    obtain ⟨live, learned⟩ := first sniffed
    exact ⟨script, live, opening, learned, learned.mapsOnto⟩

def bareSegment (seq flags : UInt8) : Packet :=
  let bytes := [0x45, 0, 0, 40, 0, 0, 0, 0, 255, 6, 0, 0, 1, 1, 1, 1, 2, 2, 2, 2,
    0, 7, 0, 8, 0, 0, 0, seq, 0, 0, 0, 1, 0x50, flags, 1, 0, 0, 0, 0, 0]
  { packetNew (.ofList bytes) bytes.length with
    ipBytes := bytes.length
    headers := (Vector.replicate packetMaxHeaders Header.unused).setIfInBounds 0 ⟨.ipv4, 20, 40, some 0⟩
    ipv4 := some 0
    tcp := some 20 }

/-- A SYN arrives at a listening socket, and the script expects a SYN/ACK with number five. -/
def passiveOpen (answer : Packet) : List LiveAction :=
  [.socket .inet 6 3 3, .listen 0, .inbound 9 (fun _ => 0) (bareSegment 0 2), .outbound 9 (bareSegment 5 0x12) [answer]]

theorem isn_learned_passive :
    ∃ st sniffs s, liveRun (initialState plainConfig) (passiveOpen (bareSegment 9 0x12)) = .ok (st, sniffs) ∧ s ∈ st.sockets ∧
      s.state = .passiveSynackSent ∧ ∃ script live, isSynack script ∧ Learned s script live ∧ MapsOnto s live script := by
  have evaluated : (liveRun (initialState plainConfig) (passiveOpen (bareSegment 9 0x12))).toOption.map (fun r =>
      ((r.1.sockets[1]?).map (·.state), decide (∀ e ∈ r.2, e.Telling))) = some (some .passiveSynackSent, true) := by decide +kernel
  obtain ⟨⟨st, sniffs⟩, ran, facts⟩ := ok_of_toOption evaluated
  obtain ⟨state, telling⟩ := Prod.mk.inj facts
  obtain ⟨s, found, state⟩ := Option.map_eq_some_iff.mp state
  have member := List.mem_of_getElem? found
  exact ⟨st, sniffs, s, ran, member, state, (isn_learned rfl ran (of_decide_eq_true telling) member).1 (.inl state)⟩

/-- The stack answers the SYN with a reset, whose number is taken for the one of a SYN/ACK. -/
theorem reset_learned :
    ∃ st sniffs s, liveRun (initialState plainConfig) (passiveOpen (bareSegment 9 0x14)) = .ok (st, sniffs) ∧ s ∈ st.sockets ∧
      s.state = .passiveSynackSent ∧ s.live.localIsn = 9 ∧ ¬∃ script live, Learned s script live := by
  have evaluated : (liveRun (initialState plainConfig) (passiveOpen (bareSegment 9 0x14))).toOption.map (fun r =>
      (r.1.sockets[1]?).map fun s => (s.state, s.live.localIsn, s.sniffed.any isSyn)) =
        some (some (.passiveSynackSent, 9, false)) := by decide +kernel
  obtain ⟨⟨st, sniffs⟩, ran, facts⟩ := ok_of_toOption evaluated
  obtain ⟨s, found, facts⟩ := Option.map_eq_some_iff.mp facts
  simp only [Prod.mk.injEq] at facts
  obtain ⟨state, isn, syn⟩ := facts
  refine ⟨st, sniffs, s, ran, List.mem_of_getElem? found, state, isn, ?_⟩
  rintro ⟨script, live, learned⟩
  have sniffed : s.sniffed.any isSyn = true := List.any_eq_true.mpr ⟨live, learned.sniffed, learned.syn⟩
  rw [syn] at sniffed
  cases sniffed

end TcpFuzz
