import TcpFuzz.Packet.Finish

/-! The checks of `run_packet.c` that compare two packets layer by layer: a sniffed packet with the one of the
script, or less strictly two sniffed packets that are to be aggregated. -/

namespace TcpFuzz
open Bytes

def differs (message : String) : Check Unit := throw message

def checkField (name : String) (expected actual : Nat) : Check Unit :=
  if actual ≠ expected then
    differs ("live packet field " ++ name ++ ": expected: " ++ toString expected ++ " (0x" ++ hexPadded 0 expected ++
      ") vs actual: " ++ toString actual ++ " (0x" ++ hexPadded 0 actual ++ ")")
  else pure ()

def checkStrict (strict : Bool) (name : String) (expected actual : Nat) : Check Unit :=
  if strict then checkField name expected actual else pure ()

def verifyOutboundLiveTos (tosChk : TosChk) (actualTosByte scriptTosByte : Nat) : Check Unit :=
  match tosChk with
  | .ecn =>
    let actualEcnBits := actualTosByte % 4
    -- `ECN_ECT01` stands for both code points that announce ECN
    if scriptTosByte = 4 then
      if actualEcnBits ≠ 2 ∧ actualEcnBits ≠ 1 then
        differs ("live packet field ip_ecn: expected: 0x1 or 0x2 vs actual: 0x" ++ hexPadded 0 actualEcnBits)
      else pure ()
    else checkField "ip_ecn" scriptTosByte actualEcnBits
  | .tos => checkField "tos" scriptTosByte actualTosByte
  | .none => pure ()

def verifyOutboundLiveTtlOrHl (actualTtlByte scriptTtlByte : Nat) : Check Unit :=
  if scriptTtlByte ≠ ttlCheckNone then checkField "ttl" scriptTtlByte actualTtlByte else pure ()

def tcpOptionsAllowance (actual script : Packet) : Run Int :=
  if script.flags.optionsNocheck then packetTcpOptionsLen actual else pure 0

def headerAt (p : Packet) (layer : Nat) : Check Nat :=
  (deref (p.headers.toList[layer]?.bind Header.ptr) : Run Nat)

def verifyIpv4 (actual script : Packet) (layer : Nat) (strict : Bool) : Check Unit := do
  let a ← headerAt actual layer
  let s ← headerAt script layer
  checkField "ipv4_version" (ipVersion script.buffer s) (ipVersion actual.buffer a)
  checkField "ipv4_protocol" (ipv4Protocol script.buffer s) (ipv4Protocol actual.buffer a)
  checkField "ipv4_header_length" (script.buffer.get8 s % 16) (actual.buffer.get8 a % 16)
  if strict then
    let allowance ← tcpOptionsAllowance actual script
    checkField "ipv4_total_length" (u32 (ipv4TotLen script.buffer s + allowance)) (ipv4TotLen actual.buffer a)
  verifyOutboundLiveTos script.tosChk (tosField actual.buffer a .inet) (tosField script.buffer s .inet)
  verifyOutboundLiveTtlOrHl (ttlField actual.buffer a .inet) (ttlField script.buffer s .inet)

def verifyIpv6 (actual script : Packet) (layer : Nat) (strict : Bool) : Check Unit := do
  let a ← headerAt actual layer
  let s ← headerAt script layer
  checkField "ipv6_version" (ipVersion script.buffer s) (ipVersion actual.buffer a)
  if strict then
    let allowance ← tcpOptionsAllowance actual script
    checkField "ipv6_payload_len" (u32 (ipv6PayloadLen script.buffer s + allowance)) (ipv6PayloadLen actual.buffer a)
  checkField "ipv6_next_header" (ipv6NextHeader script.buffer s) (ipv6NextHeader actual.buffer a)
  verifyOutboundLiveTos script.tosChk (tosField actual.buffer a .inet6) (tosField script.buffer s .inet6)
  verifyOutboundLiveTtlOrHl (ttlField actual.buffer a .inet6) (ttlField script.buffer s .inet6)

def tcpFlag (m : Mem) (tcp bit : Nat) : Nat := m.get8 (tcp + 13) / 2 ^ bit % 2

def verifyTcp (actual script : Packet) (layer : Nat) (strict : Bool) : Check Unit := do
  let a ← headerAt actual layer
  let s ← headerAt script layer
  let scriptPayloadLen ← packetPayloadLen script
  let flag (name : String) (bit : Nat) := checkField name (tcpFlag script.buffer s bit) (tcpFlag actual.buffer a bit)
  let strictFlag (name : String) (bit : Nat) : Check Unit := if strict then flag name bit else pure ()
  let allowance ← tcpOptionsAllowance actual script
  checkField "tcp_data_offset" (u32 (tcpDoff script.buffer s + allowance / 4)) (tcpDoff actual.buffer a)
  strictFlag "tcp_fin" 0
  flag "tcp_syn" 1
  flag "tcp_rst" 2
  strictFlag "tcp_psh" 3
  flag "tcp_ack" 4
  flag "tcp_urg" 5
  flag "tcp_ece" 6
  strictFlag "tcp_cwr" 7
  checkField "tcp_reserved_bits" (script.buffer.get8 (s + 12) % 16) (actual.buffer.get8 (a + 12) % 16)
  -- the next fragment continues where the payload of the previous one ends
  let scriptSeq := script.buffer.be32 (s + 4)
  checkField "tcp_seq" (if strict then scriptSeq else u32 (scriptSeq + scriptPayloadLen)) (actual.buffer.be32 (a + 4))
  checkField "tcp_ack_seq" (script.buffer.be32 (s + 8)) (actual.buffer.be32 (a + 8))
  if ¬script.flags.winNocheck then
    checkField "tcp_window" (script.buffer.be16 (s + 14)) (actual.buffer.be16 (a + 14))
  checkField "tcp_urg_ptr" (script.buffer.be16 (s + 18)) (actual.buffer.be16 (a + 18))

def verifyUdp (actual script : Packet) (layer : Nat) (strict : Bool) : Check Unit := do
  let a ← headerAt actual layer
  let s ← headerAt script layer
  checkStrict strict "udp_len" (udpLen script.buffer s) (udpLen actual.buffer a)

def checkGre (name : String) (expected actual : Nat) : Check Unit :=
  if expected ≠ actual then differs ("mismatch in GRE " ++ name) else pure ()

def verifyGre (actual script : Packet) (layer : Nat) : Check Unit := do
  let a ← headerAt actual layer
  let s ← headerAt script layer
  let scriptLen ← greLen script.buffer s
  let actualLen ← greLen actual.buffer a
  checkField "gre_len" scriptLen actualLen
  checkGre "flags" (script.buffer.be16 s) (actual.buffer.be16 a)
  checkGre "proto" (greProto script.buffer s) (greProto actual.buffer a)
  let hasSum := greHasChecksum script.buffer s ∨ greHasRouting script.buffer s
  let i := if hasSum then 1 else 0
  if hasSum then
    checkGre "sum" (script.buffer.be16 (s + 4)) (actual.buffer.be16 (a + 4))
    checkGre "off" (script.buffer.be16 (s + 6)) (actual.buffer.be16 (a + 6))
  let hasKey := greHasKey script.buffer s
  if hasKey then
    checkGre "key" (script.buffer.be32 (s + 4 + 4 * i)) (actual.buffer.be32 (a + 4 + 4 * i))
  let i := if hasKey then i + 1 else i
  if greHasSeq script.buffer s then
    checkGre "seq" (script.buffer.be32 (s + 4 + 4 * i)) (actual.buffer.be32 (a + 4 + 4 * i))

def verifyLabels (actual script : Mem) (a s i : Nat) : Nat → Check Unit
  | 0 => pure ()
  | n + 1 => do
    if actual.be32 (a + 4 * i) ≠ script.be32 (s + 4 * i) then differs ("mismatch in MPLS label " ++ toString i)
    verifyLabels actual script a s (i + 1) n

def verifyMpls (actual script : Packet) (layer : Nat) : Check Unit := do
  let a ← headerAt actual layer
  let s ← headerAt script layer
  let actualBytes := (actual.headers.toList.getD layer .unused).headerBytes
  let scriptBytes := (script.headers.toList.getD layer .unused).headerBytes
  if scriptBytes ≠ actualBytes then differs "mismatch in MPLS label stack depth"
  verifyLabels actual.buffer script.buffer a s 0 (scriptBytes / 4)

def verifyIcmp (actual script : Packet) (layer : Nat) : Check Unit := do
  let a ← headerAt actual layer
  let s ← headerAt script layer
  checkField "icmp_type" (script.buffer.get8 s) (actual.buffer.get8 a)
  checkField "icmp_code" (script.buffer.get8 (s + 1)) (actual.buffer.get8 (a + 1))

def verifyIcmpv4 (actual script : Packet) (layer : Nat) : Check Unit := verifyIcmp actual script layer

def verifyIcmpv6 (actual script : Packet) (layer : Nat) : Check Unit := verifyIcmp actual script layer

def HeaderType.name : HeaderType → String
  | .none => "NONE"
  | .ipv4 => "IPV4"
  | .ipv6 => "IPV6"
  | .gre => "GRE"
  | .mpls => "MPLS"
  | .tcp => "TCP"
  | .udp => "UDP"
  | .icmpv4 => "ICMPV4"
  | .icmpv6 => "ICMPV6"

def verifyHeader (actual script : Packet) (layer : Nat) (strict : Bool) : Check Unit := do
  let actualType := (actual.headers.toList.getD layer .unused).type
  let scriptType := (script.headers.toList.getD layer .unused).type
  if scriptType ≠ actualType then
    let expected ← headerTypeInfo scriptType
    let found ← headerTypeInfo actualType
    differs ("live packet header layer " ++ toString layer ++ ": expected: " ++ expected.name ++
      " header vs actual: " ++ found.name ++ " header")
  match scriptType with
  | .none => (Except.error .assertion : Run Unit)
  | .ipv4 => verifyIpv4 actual script layer strict
  | .ipv6 => verifyIpv6 actual script layer strict
  | .gre => verifyGre actual script layer
  | .mpls => verifyMpls actual script layer
  | .tcp => verifyTcp actual script layer strict
  | .udp => verifyUdp actual script layer strict
  | .icmpv4 => verifyIcmpv4 actual script layer
  | .icmpv6 => verifyIcmpv6 actual script layer

/-- The loop over the table of the expected packet, up to its first unused entry. -/
def verifyLayers (actual script : Packet) (strict : Bool) (layer : Nat) : List Header → Check Unit
  | [] => pure ()
  | header :: headers =>
    if header.type = .none then pure ()
    else do
      verifyHeader actual script layer strict
      verifyLayers actual script strict (layer + 1) headers

def verifyOutboundLiveHeaders (actual script : Packet) (strict : Bool) : Check Unit := do
  let actualHeaders := packetHeaderCount actual
  let scriptHeaders := packetHeaderCount script
  assertThat (actual.ipv4 ≠ none ∨ actual.ipv6 ≠ none)
  assertThat (actual.tcp ≠ none ∨ actual.udp ≠ none ∨ actual.icmpv4 ≠ none ∨ actual.icmpv6 ≠ none)
  if actualHeaders ≠ scriptHeaders then
    differs ((if strict then "live" else "aggregate candidate") ++ " packet header layers: expected: " ++
      toString scriptHeaders ++ " headers vs actual: " ++ toString actualHeaders ++ " headers")
  verifyLayers actual script strict 0 script.headers.toList

def verifyPacketFragments (current previous : Packet) (currentPayload sniffedPayload expectedTotalPayload : Int) :
    Check Unit := do
  verifyOutboundLiveHeaders current previous false
  let previousPayload ← packetPayloadLen previous
  if currentPayload < expectedTotalPayload - sniffedPayload ∧ currentPayload ≠ previousPayload then
    differs ("fragment payload: expected " ++ toString previousPayload ++ " bytes vs actual " ++
      toString currentPayload ++ " bytes; total payload: expected " ++ toString expectedTotalPayload ++
      " bytes vs actual " ++ toString (currentPayload + sniffedPayload) ++ " bytes")

theorem verifyHeader_type {actual script : Packet} {layer : Nat} {strict : Bool}
    (passed : verifyHeader actual script layer strict = pure ()) :
    (actual.headers.toList.getD layer .unused).type = (script.headers.toList.getD layer .unused).type := by
  by_contra differ
  unfold verifyHeader at passed
  simp only [if_pos (Ne.symm differ)] at passed
  obtain ⟨_, _, passed⟩ := Check.bind_passed passed
  obtain ⟨_, _, passed⟩ := Check.bind_passed passed
  cases passed

theorem verifyLayers_type {actual script : Packet} {strict : Bool} {layer : Nat} {hs rest : List Header}
    (used : ∀ h ∈ hs, h.type ≠ .none) (passed : verifyLayers actual script strict layer (hs ++ rest) = pure ()) :
    ∀ i < hs.length, (actual.headers.toList.getD (layer + i) .unused).type =
      (script.headers.toList.getD (layer + i) .unused).type := by
  induction hs generalizing layer with
  | nil => simp
  | cons h hs ih =>
    obtain ⟨here, others⟩ := List.forall_mem_cons.mp used
    rw [List.cons_append, verifyLayers, if_neg here] at passed
    obtain ⟨_, first, remaining⟩ := Check.bind_passed passed
    intro i inside
    cases i with
    | zero => exact verifyHeader_type first
    | succ i =>
      have found := ih others remaining i (by simpa using inside)
      rwa [Nat.add_right_comm, Nat.add_assoc] at found

theorem verifyPacketFragments_types {current previous : Packet} {cs ps : List Extent}
    {currentPayload sniffedPayload expectedTotalPayload : Int} (layout : Layout current (cs.map Extent.header))
    (layout' : Layout previous (ps.map Extent.header))
    (passed : verifyPacketFragments current previous currentPayload sniffedPayload expectedTotalPayload = pure ()) :
    cs.map Extent.type = ps.map Extent.type := by
  obtain ⟨_, compared, -⟩ := Check.bind_passed passed
  obtain ⟨_, -, compared⟩ := Check.bind_passed compared
  obtain ⟨_, -, compared⟩ := Check.bind_passed compared
  have count : cs.length = ps.length := by
    by_contra differ
    have counts : packetHeaderCount current ≠ packetHeaderCount previous := by
      rw [layout.count, layout'.count]
      simpa using differ
    rw [if_pos counts] at compared
    obtain ⟨_, failed, -⟩ := Check.bind_passed compared
    cases failed
  have counts : ¬packetHeaderCount current ≠ packetHeaderCount previous := by
    rw [layout.count, layout'.count]
    simpa using count
  rw [if_neg counts, layout'.table] at compared
  have types := verifyLayers_type layout'.used compared
  apply List.ext_getElem
  · simpa using count
  · intro i inside inside'
    rw [List.length_map] at inside inside'
    have same := types i (by simpa using inside')
    rw [Nat.zero_add, layout.table, layout'.table, getD_append_replicate, getD_append_replicate] at same
    rw [List.getD_eq_getElem _ _ (by simpa using inside), List.getD_eq_getElem _ _ (by simpa using inside')] at same
    simpa [Extent.header] using same

end TcpFuzz
