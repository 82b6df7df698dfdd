import TcpFuzz.Packet.Parser
import TcpFuzz.Packet.IpHeader
import TcpFuzz.Packet.Encapsulate

/-! `verify_outbound_live_ipv6_flowlabel` of `run_packet.c`: the kernel picks the labels, and only where they change
is checked. -/

namespace TcpFuzz
open Bytes

/-- The labels of the last accepted packet that the script labels; zero before there is one. -/
structure FlowlabelMap where
  flowlabelScript : Nat := 0
  flowlabelLive : Nat := 0
deriving DecidableEq, Repr

def ipv6FlowLabel (p : Packet) : Run Nat := do
  let ipv6 ← deref p.ipv6
  return flowLabelField p.buffer ipv6

def checkFlowlabel (map : FlowlabelMap) (scriptFlowlabel liveFlowlabel : Nat) : Except String Unit × FlowlabelMap :=
  if scriptFlowlabel = 0 then (.ok (), map)
  else if liveFlowlabel = 0 then (.error "flowlabel unmarked in the live packet", map)
  else if map.flowlabelScript = 0 then (.ok (), ⟨scriptFlowlabel, liveFlowlabel⟩)
  else if scriptFlowlabel ≠ map.flowlabelScript then
    if liveFlowlabel ≠ map.flowlabelLive then (.ok (), ⟨scriptFlowlabel, liveFlowlabel⟩)
    else (.error "expected a different flowlabel but got the same", map)
  else if liveFlowlabel = map.flowlabelLive then (.ok (), map)
  else (.error ("inconsistent flowlabels for this packet: expected: 0x" ++ hexPadded 0 map.flowlabelLive ++
    " vs actual: 0x" ++ hexPadded 0 liveFlowlabel), map)

def verifyOutboundLiveIpv6Flowlabel (map : FlowlabelMap) (actual script : Packet) :
    Run (Except String Unit × FlowlabelMap) := do
  let scriptFlowlabel ← ipv6FlowLabel script
  let liveFlowlabel ← ipv6FlowLabel actual
  return checkFlowlabel map scriptFlowlabel liveFlowlabel

/-- The map holds the labels of the last labelled packet that was accepted, if there is one. -/
def FlowlabelMap.Remembers (map : FlowlabelMap) : Option (Nat × Nat) → Prop
  | none => map.flowlabelScript = 0
  | some (script, live) => script ≠ 0 ∧ map = ⟨script, live⟩

def ChangeTogether (a b : Nat × Nat) : Prop := a.1 = b.1 ↔ a.2 = b.2

theorem checkFlowlabel_cases {map : FlowlabelMap} {last : Option (Nat × Nat)} (remembers : map.Remembers last)
    (script live : Nat) (labelled : script ≠ 0) :
    (checkFlowlabel map script live = (.ok (), ⟨script, live⟩) ∧ live ≠ 0 ∧
        ∀ l ∈ last, ChangeTogether l (script, live)) ∨
      (∃ message, checkFlowlabel map script live = (.error message, map)) ∧
        (live = 0 ∨ ∃ l ∈ last, ¬ChangeTogether l (script, live)) := by
  rw [checkFlowlabel, if_neg labelled]
  by_cases unmarked : live = 0
  · rw [if_pos unmarked]
    exact .inr ⟨⟨_, rfl⟩, .inl unmarked⟩
  rw [if_neg unmarked]
  cases last with
  | none =>
    have fresh : map.flowlabelScript = 0 := remembers
    rw [if_pos fresh]
    exact .inl ⟨rfl, unmarked, nofun⟩
  | some l =>
    obtain ⟨known, rfl⟩ := remembers
    rw [if_neg known]
    by_cases changed : script ≠ l.1
    · rw [if_pos changed]
      by_cases moved : live ≠ l.2
      · rw [if_pos moved]
        refine .inl ⟨rfl, unmarked, fun k at_k => ?_⟩
        cases at_k
        exact iff_of_false (Ne.symm changed) (Ne.symm moved)
      · rw [if_neg moved]
        refine .inr ⟨⟨_, rfl⟩, .inr ⟨l, rfl, fun together => changed ?_⟩⟩
        exact (together.mpr (not_not.mp moved).symm).symm
    · rw [if_neg changed]
      have same : script = l.1 := not_not.mp changed
      by_cases kept : live = l.2
      · rw [if_pos kept]
        refine .inl ⟨by rw [same, kept], unmarked, fun k at_k => ?_⟩
        cases at_k
        exact iff_of_true same.symm kept.symm
      · rw [if_neg kept]
        exact .inr ⟨⟨_, rfl⟩, .inr ⟨l, rfl, fun together => kept (together.mp same.symm).symm⟩⟩

/-- An outbound packet, the packet of the script that it is held against, and the verdict. -/
structure FlowVerdict where
  actual : Packet
  script : Packet
  verdict : Except String Unit

namespace FlowVerdict

def labels (v : FlowVerdict) : Nat × Nat :=
  ((v.script.ipv6.map (flowLabelField v.script.buffer)).getD 0,
    (v.actual.ipv6.map (flowLabelField v.actual.buffer)).getD 0)

def tracked (v : FlowVerdict) : Bool := v.verdict.isOk && v.labels.1 != 0

end FlowVerdict

def verifyFlowlabels (map : FlowlabelMap) : List (Packet × Packet) → Run (List FlowVerdict)
  | [] => return []
  | (actual, script) :: packets => do
    let (verdict, map) ← verifyOutboundLiveIpv6Flowlabel map actual script
    let later ← verifyFlowlabels map packets
    return ⟨actual, script, verdict⟩ :: later

def lastTracked (last : Option (Nat × Nat)) (verdicts : List FlowVerdict) : Option (Nat × Nat) :=
  ((verdicts.filter (·.tracked)).getLast?.map (·.labels)).or last

/-- Whether the verdicts follow the changes of the labels, behind a packet with the last labels. -/
structure FollowsFlow (last : Option (Nat × Nat)) (verdicts : List FlowVerdict) : Prop where
  marked : ∀ v ∈ verdicts, v.tracked → v.labels.2 ≠ 0
  together : (last.toList ++ (verdicts.filter (·.tracked)).map (·.labels)).IsChain ChangeTogether
  rejected : ∀ before v later, verdicts = before ++ v :: later → v.labels.1 ≠ 0 → ¬v.verdict.isOk →
    v.labels.2 = 0 ∨ ∃ l ∈ lastTracked last before, ¬ChangeTogether l v.labels

theorem FollowsFlow.nil (last : Option (Nat × Nat)) : FollowsFlow last [] where
  marked := by simp
  together := by cases last <;> simp
  rejected := by
    intro before v later split
    have := congrArg List.length split
    simp at this

theorem FollowsFlow.skip {last : Option (Nat × Nat)} {v : FlowVerdict} {verdicts : List FlowVerdict}
    (untracked : v.tracked = false)
    (fair : v.labels.1 ≠ 0 → ¬v.verdict.isOk → v.labels.2 = 0 ∨ ∃ l ∈ last, ¬ChangeTogether l v.labels)
    (follows : FollowsFlow last verdicts) : FollowsFlow last (v :: verdicts) where
  marked := by
    intro w at_w tracked
    rcases List.mem_cons.mp at_w with rfl | at_w
    · rw [untracked] at tracked
      cases tracked
    · exact follows.marked w at_w tracked
  together := by
    rw [List.filter_cons_of_neg (by simp [untracked])]
    exact follows.together
  rejected := by
    intro before w later split labelled bad
    cases before with
    | nil =>
      cases split
      exact fair labelled bad
    | cons first before =>
      cases split
      have skipped : lastTracked last (v :: before) = lastTracked last before := by
        rw [lastTracked, List.filter_cons_of_neg (by simp [untracked]), lastTracked]
      rw [skipped]
      exact follows.rejected before w later rfl labelled bad

theorem FollowsFlow.track {last : Option (Nat × Nat)} {v : FlowVerdict} {verdicts : List FlowVerdict}
    (accepted : v.verdict.isOk) (labelled : v.labels.1 ≠ 0) (marked : v.labels.2 ≠ 0)
    (together : ∀ l ∈ last, ChangeTogether l v.labels) (follows : FollowsFlow (some v.labels) verdicts) :
    FollowsFlow last (v :: verdicts) := by
  have tracked : v.tracked = true := by simp [FlowVerdict.tracked, accepted, labelled]
  refine ⟨?_, ?_, ?_⟩
  · intro w at_w of_w
    rcases List.mem_cons.mp at_w with rfl | at_w
    · exact marked
    · exact follows.marked w at_w of_w
  · rw [List.filter_cons_of_pos tracked, List.map_cons]
    cases last with
    | none => exact follows.together
    | some l => exact .cons_cons (together l rfl) follows.together
  · intro before w later split labelled' bad
    cases before with
    | nil =>
      cases split
      exact absurd accepted bad
    | cons first before =>
      cases split
      have moved : lastTracked last (v :: before) = lastTracked (some v.labels) before := by
        rw [lastTracked, List.filter_cons_of_pos tracked, lastTracked, List.getLast?_cons]
        cases (before.filter (·.tracked)).getLast? <;> rfl
      rw [moved]
      exact follows.rejected before w later rfl labelled' bad

theorem ipv6FlowLabel_eq {p : Packet} (ipv6 : p.ipv6.isSome) :
    ipv6FlowLabel p = .ok ((p.ipv6.map (flowLabelField p.buffer)).getD 0) := by
  obtain ⟨ip, at_ip⟩ := Option.isSome_iff_exists.mp ipv6
  rw [ipv6FlowLabel, at_ip]
  rfl

theorem verifyFlowlabels_follows (packets : List (Packet × Packet))
    (ipv6 : ∀ pair ∈ packets, pair.1.ipv6.isSome ∧ pair.2.ipv6.isSome) (map : FlowlabelMap)
    (last : Option (Nat × Nat)) (remembers : map.Remembers last) :
    ∃ verdicts, verifyFlowlabels map packets = .ok verdicts ∧
      verdicts.map (fun v => (v.actual, v.script)) = packets ∧ FollowsFlow last verdicts := by
  induction packets generalizing map last with
  | nil => exact ⟨[], rfl, rfl, .nil last⟩
  | cons pair packets ih =>
    obtain ⟨actual, script⟩ := pair
    obtain ⟨hasActual, hasScript⟩ := ipv6 (actual, script) (.head _)
    have rest := ih fun pair at_pair => ipv6 pair (.tail _ at_pair)
    rw [verifyFlowlabels, verifyOutboundLiveIpv6Flowlabel, ipv6FlowLabel_eq hasScript, ipv6FlowLabel_eq hasActual]
    simp only [ok_bind, run_pure]
    generalize hs : (script.ipv6.map (flowLabelField script.buffer)).getD 0 = s
    generalize hl : (actual.ipv6.map (flowLabelField actual.buffer)).getD 0 = l
    have labels (verdict : Except String Unit) : (⟨actual, script, verdict⟩ : FlowVerdict).labels = (s, l) := by
      rw [FlowVerdict.labels, hs, hl]
    by_cases labelled : s = 0
    · obtain ⟨verdicts, run, pairs, follows⟩ := rest map last remembers
      rw [checkFlowlabel, if_pos labelled]
      simp only [run, ok_bind]
      refine ⟨_, rfl, by rw [List.map_cons, pairs], follows.skip ?_ ?_⟩
      · simp [FlowVerdict.tracked, labels, labelled]
      · intro isLabelled
        rw [labels] at isLabelled
        exact absurd labelled isLabelled
    rcases checkFlowlabel_cases remembers s l labelled with ⟨accepts, marked, together⟩ | ⟨⟨message, rejects⟩, why⟩
    · obtain ⟨verdicts, run, pairs, follows⟩ := rest ⟨s, l⟩ (some (s, l)) ⟨labelled, rfl⟩
      simp only [accepts, run, ok_bind]
      refine ⟨_, rfl, by rw [List.map_cons, pairs], ?_⟩
      apply FollowsFlow.track
      · rfl
      · rwa [labels]
      · rwa [labels]
      · rwa [labels]
      · rwa [labels]
    · obtain ⟨verdicts, run, pairs, follows⟩ := rest map last remembers
      simp only [rejects, run, ok_bind]
      refine ⟨_, rfl, by rw [List.map_cons, pairs], follows.skip rfl ?_⟩
      rw [labels]
      exact fun _ _ => why

theorem flowlabels_followed (packets : List (Packet × Packet))
    (ipv6 : ∀ pair ∈ packets, pair.1.ipv6.isSome ∧ pair.2.ipv6.isSome) :
    ∃ verdicts, verifyFlowlabels {} packets = .ok verdicts ∧
      verdicts.map (fun v => (v.actual, v.script)) = packets ∧ FollowsFlow none verdicts :=
  verifyFlowlabels_follows packets ipv6 {} none rfl

def labelledPacket (label : Nat) : Packet where
  buffer := Mem.putBe16 (fun _ => 0) 2 label
  bufferBytes := 40
  ipBytes := 40
  ipv6 := some 0

theorem flowlabels_followed_changes :
    ∃ verdicts, verifyFlowlabels {} [(labelledPacket 5, labelledPacket 1), (labelledPacket 6, labelledPacket 1),
        (labelledPacket 7, labelledPacket 0), (labelledPacket 8, labelledPacket 2)] = .ok verdicts ∧
      verdicts.map (fun v => (v.actual, v.script)) = [(labelledPacket 5, labelledPacket 1),
        (labelledPacket 6, labelledPacket 1), (labelledPacket 7, labelledPacket 0),
        (labelledPacket 8, labelledPacket 2)] ∧ FollowsFlow none verdicts :=
  flowlabels_followed _ (by simp [labelledPacket])

example : (verifyFlowlabels {} [(labelledPacket 5, labelledPacket 1), (labelledPacket 6, labelledPacket 1),
    (labelledPacket 7, labelledPacket 0), (labelledPacket 8, labelledPacket 2)]).toOption.map
      (fun verdicts => verdicts.map (·.verdict.isOk)) = some [true, false, true, true] := by decide

end TcpFuzz
