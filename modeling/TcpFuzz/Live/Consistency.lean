import TcpFuzz.Live.Stream
import TcpFuzz.Packet.RoundTrip

/-! The byte sent at a script sequence number should be that number modulo ten, so that overlapping segments agree.
The filling loop reads the number without `ntohl`, and SACK blocks and timestamps may reach into the payload. -/

namespace TcpFuzz
open Bytes Mem

def streamBytes (seq n : Nat) : List UInt8 := (List.range n).map fun k => UInt8.ofNat ((seq + k) % 10)

/-- The packet `live` is handed to the device when `p` is injected, for some socket and configuration. -/
def SentCopy (p live : Packet) : Prop :=
  ∃ allocated config s r, doInboundScriptPacket allocated config s p = .ok r ∧ r.sent = .ok live

def CarriesStream (p : Packet) : Prop :=
  ∀ live, SentCopy p live → packetPayloadBytes live = .ok (streamBytes (scriptSeq p) (payloadLen p))

/-- Two packets carry the same bytes wherever their sequence ranges overlap, and these are the bytes
of the stream. -/
structure StreamConsistent (p q : Packet) : Prop where
  first : CarriesStream p
  second : CarriesStream q
  overlap : ∀ live live' bytes bytes', SentCopy p live → SentCopy q live' →
    packetPayloadBytes live = .ok bytes → packetPayloadBytes live' = .ok bytes' →
    ∀ i j, i < payloadLen p → j < payloadLen q → scriptSeq p + i = scriptSeq q + j → bytes[i]? = bytes'[j]?

def walkedOptions (p : Packet) : List Nat := optionOffsets p.buffer (payloadStart p) 40

/-- A SACK option that keeps the packet from being sent. The length byte of an option in the last byte
of the header is the first byte of the payload as it is filled. -/
def TooShort (p : Packet) (o : Nat) : Prop :=
  p.buffer.get8 o = tcpoptSack ∧ (if o + 1 < payloadStart p then p.buffer.get8 (o + 1) else rawSeq p % 10) ≤ 2

/-- What keeps the bytes of the stream in a packet that is sent. -/
structure StreamKept (p : Packet) : Prop where
  sameDigit : rawSeq p % 10 = scriptSeq p % 10
  noWrap : rawSeq p + payloadLen p ≤ 2 ^ 32
  sacks : ∀ o ∈ walkedOptions p, o + 1 < payloadStart p → o + 2 + 8 * sackBlocks p.buffer o ≤ payloadStart p
  timestamp : tcpAck p.buffer 20 → ∀ o, lastTimestamp p.buffer (payloadStart p) 40 = some o →
    o + 10 ≤ payloadStart p ∨ payloadStart p + payloadLen p ≤ o + 6

def KeepsStream (p : Packet) : Prop :=
  payloadLen p = 0 ∨ (∃ o ∈ walkedOptions p, TooShort p o) ∨ StreamKept p

structure Prepared (p : Packet) (m : Mem) : Prop where
  header : ∀ j, 32 ≤ j → j < payloadStart p → m.get8 j = p.buffer.get8 j
  payload : ∀ k < payloadLen p, m.get8 (payloadStart p + k) = (rawSeq p + k) % 2 ^ 32 % 10

section Prepared

variable {p : Packet} {m m' : Mem}

theorem PlainTcp.prepared (plain : PlainTcp p)
    (frame : ∀ j, 32 ≤ j → j < p.ipBytes → m.get8 j = (TcpFuzz.filled p).buffer.get8 j) : Prepared p m := by
  have := plain.lower
  have := plain.upper
  refine ⟨fun j lower upper => ?_, fun k inside => ?_⟩
  · rw [frame j lower (by omega), get8_filled_ne upper]
  · rw [frame _ (by omega) (by omega), plain.get8_filled inside]

theorem Prepared.walk (prepared : Prepared p m) : optionOffsets m (payloadStart p) 40 = walkedOptions p := by
  apply optionOffsets_congr
  intro o member
  have := optionOffsets_bounds o member
  exact ⟨prepared.header o (by omega) (by omega), fun inside => prepared.header (o + 1) (by omega) inside⟩

theorem Prepared.lastTimestamp (prepared : Prepared p m) :
    lastTimestamp m (payloadStart p) 40 = lastTimestamp p.buffer (payloadStart p) 40 := by
  unfold TcpFuzz.lastTimestamp
  rw [prepared.walk]
  congr 1
  apply List.filter_congr
  intro o member
  have := optionOffsets_bounds o member
  rw [prepared.header o (by omega) (by omega)]

theorem Prepared.first (prepared : Prepared p m) (some : 0 < payloadLen p) :
    m.get8 (payloadStart p) = rawSeq p % 10 := by
  have small : rawSeq p < 4294967296 := le32_lt p.buffer 24
  have first := prepared.payload 0 some
  rw [Nat.add_zero] at first
  omega

theorem Prepared.short_iff (prepared : Prepared p m) (some : 0 < payloadLen p) {o : Nat} (member : o ∈ walkedOptions p) :
    ShortSack m o ↔ TooShort p o := by
  have := optionOffsets_bounds o member
  unfold ShortSack TooShort
  rw [prepared.header o (by omega) (by omega)]
  by_cases inside : o + 1 < payloadStart p
  · rw [if_pos inside, prepared.header (o + 1) (by omega) inside]
  · have last : o + 1 = payloadStart p := by omega
    rw [if_neg inside, last, prepared.first some]

theorem Prepared.sackBlocks (prepared : Prepared p m) (some : 0 < payloadLen p) {o : Nat} (member : o ∈ walkedOptions p) :
    sackBlocks m o = if o + 1 < payloadStart p then sackBlocks p.buffer o else 0 := by
  have := optionOffsets_bounds o member
  have kind := prepared.header o (by omega) (by omega)
  by_cases inside : o + 1 < payloadStart p
  · rw [if_pos inside, sackBlocks_congr kind (prepared.header (o + 1) (by omega) inside)]
  · have last : o + 1 = payloadStart p := by omega
    rw [if_neg inside, TcpFuzz.sackBlocks, last, prepared.first some]
    split <;> omega

end Prepared

section Keeps

variable {p : Packet} {m m' : Mem} {s : Socket} {offset : UInt32}

theorem bytes_eq_streamBytes {seq start n : Nat} :
    m.bytes start n = streamBytes seq n ↔ ∀ k < n, m.get8 (start + k) = (seq + k) % 10 := by
  unfold bytes streamBytes get8
  rw [List.map_inj_left]
  simp only [List.mem_range]
  refine forall₂_congr fun k inside => ?_
  rw [← UInt8.toNat_inj, UInt8.toNat_ofNat_of_lt' (show (seq + k) % 10 < 256 by omega)]

theorem StreamKept.sack_frame (kept : StreamKept p) (prepared : Prepared p m) (some : 0 < payloadLen p)
    (offsets : SacksOffset m (payloadStart p) 40 offset m') {j : Nat} (behind : payloadStart p ≤ j) :
    m'.get8 j = m.get8 j := by
  apply offsets.frame
  intro o member block
  rw [prepared.walk] at member
  obtain ⟨lower, upper⟩ := block
  rw [prepared.sackBlocks some member] at upper
  split at upper
  next inside =>
    have := kept.sacks o member inside
    omega
  next => omega

theorem SacksOffset.flags (prepared : Prepared p m) (plain : PlainTcp p)
    (offsets : SacksOffset m (payloadStart p) 40 offset m') : m'.get8 33 = p.buffer.get8 33 := by
  have := plain.lower
  rw [offsets.header (by omega), prepared.header 33 (by omega) (by omega)]

theorem StreamKept.timestamp_frame (kept : StreamKept p) (prepared : Prepared p m) (plain : PlainTcp p)
    (offsets : SacksOffset m (payloadStart p) 40 offset m') {k : Nat} (inside : k < payloadLen p) :
    (timestampMapped s m' (payloadStart p)).get8 (payloadStart p + k) = m'.get8 (payloadStart p + k) := by
  have ack : tcpAck m' 20 = tcpAck p.buffer 20 := by
    unfold tcpAck
    rw [offsets.flags prepared plain]
  unfold timestampMapped
  split
  next o found =>
    split
    next acked =>
      have last : TcpFuzz.lastTimestamp p.buffer (payloadStart p) 40 = some o := by
        rw [← prepared.lastTimestamp, ← offsets.lastTimestamp]
        unfold echoedTimestamp at found
        split at found
        · exact found
        · cases found
      rw [ack] at acked
      have := kept.timestamp acked o last
      exact get8_putBe32_ne _ _ (by omega)
    next => rfl
  next => rfl

theorem StreamKept.digit (kept : StreamKept p) (prepared : Prepared p m) {k : Nat} (inside : k < payloadLen p) :
    m.get8 (payloadStart p + k) = (scriptSeq p + k) % 10 := by
  have := kept.sameDigit
  have := kept.noWrap
  rw [prepared.payload k inside]
  omega

theorem KeepsStream.carriesStream (keeps : KeepsStream p) (plain : PlainInbound p) : CarriesStream p := by
  intro live ⟨allocated, config, s, r, ran, sent⟩
  obtain ⟨m, frame, -, injects⟩ := doInboundScriptPacket_plain plain allocated config s
  have prepared := plain.prepared frame
  rcases injects with ⟨_, r', ran', failed⟩ | ⟨long, m', r', live', offsets, ran', sent', carried⟩
  · cases ran.symm.trans ran'
    cases sent.symm.trans failed
  cases ran.symm.trans ran'
  cases sent.symm.trans sent'
  rw [carried]
  congr 1
  rw [bytes_eq_streamBytes]
  intro k inside
  rcases keeps with empty | ⟨o, member, short⟩ | kept
  · omega
  · exact absurd ((prepared.short_iff (by omega) member).mpr short) (long o (prepared.walk ▸ member))
  · rw [kept.timestamp_frame prepared plain.toPlainTcp offsets inside, kept.sack_frame prepared (by omega) offsets (by omega),
      kept.digit prepared inside]

end Keeps

/-! ### Packets that carry the stream for every socket

Each condition is necessary: a socket whose initial sequence numbers or timestamps differ by one unit
of a byte changes that byte of the payload. -/

section Carries

variable {p : Packet} {m m' : Mem} {offset : UInt32}

def anyAddress : Endpoint := ⟨Vector.replicate 16 0, 0⟩

def quietConfig : Config := ⟨false, anyAddress.ip, anyAddress.ip, 0, 0⟩

def probe (localIsn remoteIsn : UInt32) (tsValMap : UInt32 → Option UInt32) : Socket where
  state := .new
  script := ⟨anyAddress, 0, anyAddress, 0⟩
  live := ⟨anyAddress, localIsn, anyAddress, remoteIsn⟩
  tsValMap := tsValMap
  lastInjectedTcpHeader := []
  lastInjectedTcpPayloadLen := 0

theorem mappingSocket_probe (localIsn remoteIsn : UInt32) (tsValMap : UInt32 → Option UInt32) (p : Packet) :
    mappingSocket quietConfig (probe localIsn remoteIsn tsValMap) p = probe localIsn remoteIsn tsValMap := by
  unfold mappingSocket inboundHandshake fillAnyip
  cases p.tcp <;> simp [quietConfig, probe]

theorem CarriesStream.probed (carries : CarriesStream p) (plain : PlainInbound p) (some : 0 < payloadLen p)
    (long : ∀ o ∈ walkedOptions p, ¬TooShort p o) (localIsn remoteIsn : UInt32) (tsValMap : UInt32 → Option UInt32) :
    ∃ m m', Prepared p m ∧ SacksOffset m (payloadStart p) 40 localIsn m' ∧
      tcpSeq m' 20 = (scriptSeq p + if tcpSyn p.buffer 20 then 0 else remoteIsn.toNat) % 2 ^ 32 ∧
      ∀ k < payloadLen p, (timestampMapped (probe localIsn remoteIsn tsValMap) m' (payloadStart p)).get8
        (payloadStart p + k) = (scriptSeq p + k) % 10 := by
  obtain ⟨m, frame, moved, injects⟩ :=
    doInboundScriptPacket_plain plain (fun _ => 0) quietConfig (probe localIsn remoteIsn tsValMap)
  have prepared := plain.prepared frame
  rw [InjectsPlain, mappingSocket_probe] at injects
  rw [mappingSocket_probe] at moved
  rcases injects with ⟨⟨o, member, short⟩, _⟩ | ⟨_, m', r, live, offsets, ran, sent, carried⟩
  · rw [prepared.walk] at member
    exact absurd ((prepared.short_iff some member).mp short) (long o member)
  have offset : localSeqScriptToLiveOffset (probe localIsn remoteIsn tsValMap) (tcpSyn p.buffer 20) = localIsn := by
    cases tcpSyn p.buffer 20 <;> simp [localSeqScriptToLiveOffset, probe]
  rw [offset] at offsets
  refine ⟨m, m', prepared, offsets, ?_, ?_⟩
  · have same : tcpSeq m' 20 = tcpSeq m 20 := be32_of_get8 fun k _ _ => offsets.header (by omega)
    rw [same, moved]
    cases tcpSyn p.buffer 20 <;> rfl
  · have stream := carries live ⟨_, _, _, r, ran, sent⟩
    rw [carried] at stream
    exact bytes_eq_streamBytes.mp (Except.ok.inj stream)

theorem timestampMapped_id (localIsn remoteIsn : UInt32) (m : Mem) (stop j : Nat) :
    (timestampMapped (probe localIsn remoteIsn some) m stop).get8 j = m.get8 j := by
  unfold timestampMapped
  split
  next o _ =>
    split
    · have same : (getOutboundTsValMapping (probe localIsn remoteIsn some) (UInt32.ofNat (m.be32 (o + 6)))).2.toNat =
          m.be32 (o + 6) := UInt32.toNat_ofNat_of_lt' (be32_lt m _)
      rw [same, get8_putBe32_be32]
    · rfl
  next => rfl

theorem SacksOffset.zero {stop option : Nat} (offsets : SacksOffset m stop option 0 m') (j : Nat) :
    m'.get8 j = m.get8 j := by
  by_cases block : ∃ o ∈ optionOffsets m stop option, InSackBlocks m o j
  · obtain ⟨o, member, lower, upper⟩ := block
    obtain ⟨i, b, inside, rfl⟩ : ∃ i b, b < 4 ∧ j = o + 2 + 4 * i + b :=
      ⟨(j - (o + 2)) / 4, (j - (o + 2)) % 4, by omega, by omega⟩
    apply get8_of_be32 inside
    have field := be32_lt m (o + 2 + 4 * i)
    rw [offsets.edges o member i (by omega), show (0 : UInt32).toNat = 0 from rfl]
    omega
  · apply offsets.frame
    intro o member inside
    exact block ⟨o, member, inside⟩

theorem CarriesStream.digits (carries : CarriesStream p) (plain : PlainInbound p) (nonempty : 0 < payloadLen p)
    (long : ∀ o ∈ walkedOptions p, ¬TooShort p o) {k : Nat} (inside : k < payloadLen p) :
    (rawSeq p + k) % 2 ^ 32 % 10 = (scriptSeq p + k) % 10 := by
  obtain ⟨m, m', prepared, offsets, -, stream⟩ := carries.probed plain nonempty long 0 0 some
  rw [← stream k inside, timestampMapped_id, offsets.zero, prepared.payload k inside]

theorem unit_toNat {b : Nat} (byte : b < 4) : (UInt32.ofNat (256 ^ (3 - b))).toNat = 256 ^ (3 - b) := by
  obtain rfl | rfl | rfl | rfl : b = 0 ∨ b = 1 ∨ b = 2 ∨ b = 3 := by omega
  all_goals rfl

theorem CarriesStream.sacks (carries : CarriesStream p) (plain : PlainInbound p) (nonempty : 0 < payloadLen p)
    (long : ∀ o ∈ walkedOptions p, ¬TooShort p o) {o : Nat} (member : o ∈ walkedOptions p)
    (inside : o + 1 < payloadStart p) : o + 2 + 8 * sackBlocks p.buffer o ≤ payloadStart p := by
  by_contra reaches
  -- offset the edge that covers the first byte of the payload by one unit of that byte
  obtain ⟨i, b, byte, first⟩ : ∃ i b, b < 4 ∧ payloadStart p = o + 2 + 4 * i + b :=
    ⟨(payloadStart p - (o + 2)) / 4, (payloadStart p - (o + 2)) % 4, by omega, by omega⟩
  obtain ⟨m, m', prepared, offsets, -, stream⟩ :=
    carries.probed plain nonempty long (UInt32.ofNat (256 ^ (3 - b))) 0 some
  have blocks : sackBlocks m o = sackBlocks p.buffer o := by rw [prepared.sackBlocks nonempty member, if_pos inside]
  have edge := offsets.edges o (prepared.walk ▸ member) i (by rw [blocks]; omega)
  rw [unit_toNat byte] at edge
  have stepped := get8_of_be32_add byte edge
  have wanted := stream 0 nonempty
  rw [timestampMapped_id, Nat.add_zero, first, stepped, ← first, prepared.first nonempty] at wanted
  have digit := carries.digits plain nonempty long nonempty
  have small : rawSeq p < 4294967296 := le32_lt p.buffer 24
  omega

theorem echoedTimestamp_probe {o : Nat} (plain : PlainTcp p) (prepared : Prepared p m)
    (offsets : SacksOffset m (payloadStart p) 40 offset m')
    (seq : tcpSeq m' 20 = (scriptSeq p + if tcpSyn p.buffer 20 then 0 else (-UInt32.ofNat (scriptSeq p)).toNat) % 2 ^ 32)
    (last : lastTimestamp p.buffer (payloadStart p) 40 = some o) : echoedTimestamp m' (payloadStart p) = some o := by
  have syn : tcpSyn m' 20 = tcpSyn p.buffer 20 := by
    unfold tcpSyn
    rw [offsets.flags prepared plain]
  rw [echoedTimestamp, if_pos, offsets.lastTimestamp, prepared.lastTimestamp, last]
  rw [syn, seq]
  have small : scriptSeq p < 4294967296 := be32_lt p.buffer 24
  have back : (-UInt32.ofNat (scriptSeq p)).toNat = (4294967296 - scriptSeq p) % 4294967296 := by
    rw [UInt32.toNat_neg, UInt32.toNat_ofNat_of_lt' small]
  cases tcpSyn p.buffer 20 with
  | true => exact .inl rfl
  | false =>
    rw [back]
    simp only [Bool.false_eq_true, if_false, false_or]
    omega

theorem CarriesStream.timestamp (carries : CarriesStream p) (plain : PlainInbound p) (nonempty : 0 < payloadLen p)
    (long : ∀ o ∈ walkedOptions p, ¬TooShort p o) (ack : tcpAck p.buffer 20) {o : Nat}
    (last : lastTimestamp p.buffer (payloadStart p) 40 = some o) :
    o + 10 ≤ payloadStart p ∨ payloadStart p + payloadLen p ≤ o + 6 := by
  by_contra reaches
  -- a byte that the echoed timestamp shares with the payload
  obtain ⟨k, b, byte, inside, shared⟩ : ∃ k b, b < 4 ∧ k < payloadLen p ∧ payloadStart p + k = o + 6 + b :=
    ⟨o + 6 - payloadStart p, payloadStart p - (o + 6), by omega, by omega, by omega⟩
  let unit := UInt32.ofNat (256 ^ (3 - b))
  obtain ⟨m, m', prepared, offsets, seq, stream⟩ :=
    carries.probed plain nonempty long 0 (-UInt32.ofNat (scriptSeq p)) fun e => some (e + unit)
  have acked : tcpAck m' 20 = true := by
    unfold tcpAck
    rw [offsets.flags prepared plain.toPlainTcp]
    exact ack
  have wanted := stream k inside
  simp only [timestampMapped, echoedTimestamp_probe plain.toPlainTcp prepared offsets seq last, acked, if_true] at wanted
  have mapped : (UInt32.ofNat (m'.be32 (o + 6)) + unit).toNat = (m'.be32 (o + 6) + 256 ^ (3 - b)) % 4294967296 := by
    rw [UInt32.toNat_add, UInt32.toNat_ofNat_of_lt' (be32_lt m' _), unit_toNat byte]
  have field : (m'.putBe32 (o + 6) (UInt32.ofNat (m'.be32 (o + 6)) + unit).toNat).be32 (o + 6) =
      (m'.be32 (o + 6) + 256 ^ (3 - b)) % 4294967296 := by
    rw [be32_putBe32_self, mapped, Nat.mod_mod]
  have stepped := get8_of_be32_add byte field
  rw [← shared, offsets.zero, prepared.payload k inside, carries.digits plain nonempty long inside] at stepped
  have same : (getOutboundTsValMapping (probe 0 (-UInt32.ofNat (scriptSeq p)) fun e => some (e + unit))
      (UInt32.ofNat (m'.be32 (o + 6)))).2 = UInt32.ofNat (m'.be32 (o + 6)) + unit := rfl
  rw [same, stepped] at wanted
  omega

theorem CarriesStream.keepsStream (carries : CarriesStream p) (plain : PlainInbound p) : KeepsStream p := by
  by_cases empty : payloadLen p = 0
  · exact .inl empty
  by_cases short : ∃ o ∈ walkedOptions p, TooShort p o
  · exact .inr (.inl short)
  have nonempty : 0 < payloadLen p := by omega
  have long : ∀ o ∈ walkedOptions p, ¬TooShort p o := fun o member tooShort => short ⟨o, member, tooShort⟩
  have small : rawSeq p < 4294967296 := le32_lt p.buffer 24
  have sameDigit : rawSeq p % 10 = scriptSeq p % 10 := by
    have first := carries.digits plain nonempty long nonempty
    omega
  have noWrap : rawSeq p + payloadLen p ≤ 2 ^ 32 := by
    by_contra wraps
    -- at the wrap the digits start again
    obtain ⟨k, total⟩ : ∃ k, rawSeq p + k = 4294967296 := ⟨4294967296 - rawSeq p, by omega⟩
    have wrapped := carries.digits plain nonempty long (by omega : k < payloadLen p)
    rw [total] at wrapped
    omega
  refine .inr (.inr ⟨sameDigit, noWrap, ?_, ?_⟩)
  · intro o member inside
    exact carries.sacks plain nonempty long member inside
  · intro ack o last
    exact carries.timestamp plain nonempty long ack last

end Carries

/-- Injected packets agree with the stream, and with each other where they overlap, exactly when the
bytes of their sequence numbers can be swapped without changing the last digit and the rewriting of
options stays out of the payload, or nothing is sent. -/
theorem streamConsistent_iff {p q : Packet} (plainP : PlainInbound p) (plainQ : PlainInbound q) :
    StreamConsistent p q ↔ KeepsStream p ∧ KeepsStream q := by
  constructor
  · intro consistent
    exact ⟨consistent.first.keepsStream plainP, consistent.second.keepsStream plainQ⟩
  · intro ⟨keepsP, keepsQ⟩
    have carriesP := keepsP.carriesStream plainP
    have carriesQ := keepsQ.carriesStream plainQ
    refine ⟨carriesP, carriesQ, ?_⟩
    intro live live' bytes bytes' sent sent' payload payload' i j insideP insideQ common
    cases payload.symm.trans (carriesP live sent)
    cases payload'.symm.trans (carriesQ live' sent')
    simp [streamBytes, insideP, insideQ, common]

/-- The packets that `new_tcp_packet` builds over IPv4 are plain. -/
theorem tcpPacket_plainInbound {a : TcpArgs} (allocated : Mem) (inet : a.family = .inet) (accepted : a.Accepted)
    (short : a.ipBytes ≤ 65535) : PlainInbound (tcpPacket allocated a) := by
  have aligned : a.tcpHeaderBytes / 4 * 4 = a.tcpHeaderBytes := by
    have := accepted.padded
    unfold TcpArgs.tcpHeaderBytes
    omega
  have long : 20 ≤ a.tcpHeaderBytes := Nat.le_add_right _ _
  have minLen : ipHeaderMinLen a.family = 20 := by rw [inet]; rfl
  have total : a.ipBytes = 20 + a.tcpHeaderBytes + a.tcpPayloadBytes.toNat := by rw [TcpArgs.ipBytes, minLen]
  let m := ipMem allocated a.family a.ipInfo a.ipBytes 6
  have built : (tcpPacket allocated a).buffer = setTcpHeader m 20 a := by rw [← minLen]; rfl
  have fits : FitsIpHeader a.family a.ipBytes := by
    intro inet6
    cases inet.symm.trans inet6
  have header : IpHeaderAt (setTcpHeader m 20 a) 0 a.family (u16 a.ipBytes) 6 :=
    (ipHeaderMem_at (allocated.zero 0 a.ipBytes) 0 a.family a.ipBytes _ _ _ 6 fits (by decide)
      a.ipInfo.tos.value.toNat_lt).congr fun j _ inside => setTcpHeader_frame m 20 a (by omega)
  rw [inet] at header
  obtain ⟨version, headerLen, totLen, protocol⟩ := header
  have doff := setTcpHeader_doff m 20 a accepted.header
  have used : HeaderType.tcp ≠ .none := HeaderType.noConfusion
  have layout := transportPacket_layout allocated a.family a.direction a.ipInfo a.ipBytes 6 used a.tcpHeaderBytes
    (a.tcpHeaderBytes + a.tcpPayloadBytes.toNat) (fun m => setTcpHeader m (ipHeaderMinLen a.family) a)
  have first : (tcpPacket allocated a).headers.get ⟨0, by decide⟩ =
      ⟨a.family.headerType, ipHeaderMinLen a.family, u16 a.ipBytes, some 0⟩ := layout.get ⟨0, by decide⟩
  rw [minLen, show a.family.headerType = .ipv4 by rw [inet]; rfl] at first
  exact {
    ipv4 := if_pos inet
    tcp := congrArg some minLen
    icmpv4 := rfl
    icmpv6 := rfl
    outer := ⟨u16 a.ipBytes, first⟩
    headerLen := built ▸ headerLen
    totLen := (built ▸ totLen).trans (Nat.mod_eq_of_lt (by omega))
    doff := by rw [built, doff]; omega
    payload := by rw [built, doff, aligned]; show _ ≤ a.ipBytes; omega
    stored := Nat.le_refl _
    unseen := rfl }

def sentPayload (s : Socket) (p : Packet) : Option (List UInt8) :=
  (doInboundScriptPacket (fun _ => 0) quietConfig s p).toOption.bind fun r =>
    r.sent.toOption.bind fun live => (packetPayloadBytes live).toOption

theorem sentPayload_sent {s : Socket} {p : Packet} {bytes : List UInt8} (payload : sentPayload s p = some bytes) :
    ∃ live, SentCopy p live ∧ packetPayloadBytes live = .ok bytes := by
  obtain ⟨r, ran, rest⟩ := Option.bind_eq_some_iff.mp payload
  obtain ⟨live, sent, carried⟩ := Option.bind_eq_some_iff.mp rest
  exact ⟨live, ⟨_, _, _, r, eq_ok_of_toOption ran, eq_ok_of_toOption sent⟩, eq_ok_of_toOption carried⟩

def dataSegment (seq : UInt32) (len : UInt16) (options : List UInt8) : TcpArgs where
  family := .inet
  direction := .inbound
  ipInfo := { tos := ⟨.none, 0⟩, flowLabel := 0, ttl := 0 }
  srcPort := 0
  dstPort := 0
  flags := ['.']
  startSequence := seq
  tcpPayloadBytes := len
  ackSequence := 1
  window := 257
  urgPtr := 0
  tcpOptions := some options

/-- Two bytes from sequence number one on, and the second of them again: the first packet carries
seven at sequence number two, the second one carries two. -/
theorem retransmission_not_streamConsistent :
    PlainInbound (tcpPacket (fun _ => 0) (dataSegment 1 2 [])) ∧
    PlainInbound (tcpPacket (fun _ => 0) (dataSegment 2 1 [])) ∧
    sentPayload (probe 0 0 some) (tcpPacket (fun _ => 0) (dataSegment 1 2 [])) = some [6, 7] ∧
    sentPayload (probe 0 0 some) (tcpPacket (fun _ => 0) (dataSegment 2 1 [])) = some [2] ∧
    ¬StreamConsistent (tcpPacket (fun _ => 0) (dataSegment 1 2 [])) (tcpPacket (fun _ => 0) (dataSegment 2 1 [])) := by
  have first : sentPayload (probe 0 0 some) (tcpPacket (fun _ => 0) (dataSegment 1 2 [])) = some [6, 7] := by
    decide +kernel
  have second : sentPayload (probe 0 0 some) (tcpPacket (fun _ => 0) (dataSegment 2 1 [])) = some [2] := by
    decide +kernel
  refine ⟨tcpPacket_plainInbound _ rfl ⟨by decide, by decide, by decide, by decide⟩ (by decide),
    tcpPacket_plainInbound _ rfl ⟨by decide, by decide, by decide, by decide⟩ (by decide), first, second, ?_⟩
  intro consistent
  obtain ⟨live, sent, payload⟩ := sentPayload_sent first
  obtain ⟨live', sent', payload'⟩ := sentPayload_sent second
  have same := consistent.overlap live live' _ _ sent sent' payload payload' 1 0
    (by decide +kernel) (by decide +kernel) (by decide +kernel)
  exact absurd same (by decide)

/-- A sequence number that reads the same in both byte orders, with a timestamp in the options. -/
theorem streamConsistent_palindrome :
    StreamConsistent (tcpPacket (fun _ => 0) (dataSegment 0x01000001 2 [1, 1, 8, 10, 0, 0, 0, 1, 0, 0, 0, 1]))
      (tcpPacket (fun _ => 0) (dataSegment 0x01000001 3 [])) := by
  refine (streamConsistent_iff
    (tcpPacket_plainInbound _ rfl ⟨by decide, by decide, by decide, by decide⟩ (by decide))
    (tcpPacket_plainInbound _ rfl ⟨by decide, by decide, by decide, by decide⟩ (by decide))).mpr ⟨?_, ?_⟩
  · refine .inr (.inr ⟨by decide +kernel, by decide +kernel, by decide +kernel, ?_⟩)
    have last : lastTimestamp (tcpPacket (fun _ => 0)
        (dataSegment 0x01000001 2 [1, 1, 8, 10, 0, 0, 0, 1, 0, 0, 0, 1])).buffer 52 40 = some 42 := by
      decide +kernel
    intro _ o found
    cases last.symm.trans found
    exact .inl (by decide +kernel)
  · refine .inr (.inr ⟨by decide +kernel, by decide +kernel, by decide +kernel, ?_⟩)
    have none : lastTimestamp (tcpPacket (fun _ => 0) (dataSegment 0x01000001 3 [])).buffer 40 40 = none := by
      decide +kernel
    intro _ o found
    cases none.symm.trans found

end TcpFuzz
