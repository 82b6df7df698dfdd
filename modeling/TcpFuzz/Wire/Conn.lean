import Mathlib.Logic.Relation
import TcpFuzz.Lib.Bytes

/-! `wire_conn.c`. Each `write` and `read` of the socket moves some part of what is asked for, or is interrupted, so
the writer and the reader are state machines over a byte channel. -/

namespace TcpFuzz
open Bytes Bytes.Mem

structure WireMessage where
  op : UInt32
  payload : List UInt8
deriving DecidableEq, Repr

def maxMessageBytes : Nat := 10 * 1000 * 1000

def wireHeaderBytes : Nat := 8

def wireHeader (m : WireMessage) : List UInt8 :=
  be32Bytes (UInt32.ofNat (wireHeaderBytes + m.payload.length)) ++ be32Bytes m.op

def wireConnWrite (m : WireMessage) : List (List UInt8) := [wireHeader m, m.payload]

/-- What a call of `wire_conn_read` waits for. -/
inductive ReadPhase where
  | header (got : List UInt8)
  | payload (op : UInt32) (bufLen got : Nat)
  | failed
deriving DecidableEq, Repr

/-- A reader with the receive buffer of `conn->in`, and what its calls returned. -/
structure Reader where
  buf : Mem
  bufSpace : Nat
  phase : ReadPhase
  returned : List WireMessage

/-- `ntohl(header.length) - sizeof(header)`, a 64-bit unsigned difference stored in an `int`. -/
def wireBufLen (header : List UInt8) : Int :=
  (((ofList header).be32 0 : Int) - wireHeaderBytes).bmod (2 ^ 32)

def wireOp (header : List UInt8) : UInt32 := UInt32.ofNat ((ofList header).be32 4)

namespace Reader

def needed (r : Reader) : Nat :=
  match r.phase with
  | .header got => wireHeaderBytes - got.length
  | .payload _ bufLen got => bufLen - got
  | .failed => 0

/-- `STATUS_OK` with the message in the receive buffer; the next call starts at a header. -/
def deliver (r : Reader) (op : UInt32) (bufLen : Nat) : Reader :=
  { r with phase := .header [], returned := r.returned ++ [⟨op, r.buf.bytes 0 bufLen⟩] }

/-- The receive buffer once it has room for `bufLen` bytes; what `malloc` returns is arbitrary. -/
def grow (malloc : Nat → Mem) (r : Reader) (bufLen : Nat) : Reader :=
  if r.bufSpace < bufLen then { r with buf := malloc (2 * bufLen), bufSpace := 2 * bufLen } else r

/-- `wire_conn_read` after its header is complete. -/
def readHeader (malloc : Nat → Mem) (r : Reader) (header : List UInt8) : Reader :=
  let bufLen := wireBufLen header
  if bufLen < 0 ∨ bufLen > maxMessageBytes then { r with phase := .failed }
  else
    let r := r.grow malloc bufLen.toNat
    if bufLen = 0 then r.deliver (wireOp header) 0
    else { r with phase := .payload (wireOp header) bufLen.toNat 0 }

def receive (malloc : Nat → Mem) (r : Reader) (chunk : List UInt8) : Reader :=
  match r.phase with
  | .header got =>
    if (got ++ chunk).length < wireHeaderBytes then { r with phase := .header (got ++ chunk) }
    else r.readHeader malloc (got ++ chunk)
  | .payload op bufLen got =>
    let r := { r with buf := r.buf.write got chunk }
    if got + chunk.length < bufLen then { r with phase := .payload op bufLen (got + chunk.length) }
    else r.deliver op bufLen
  | .failed => r

end Reader

/-- The buffers that the writer has yet to write, the bytes in flight, the reader, and how often it
calls `wire_conn_read`. -/
structure WireConn where
  unsent : List (List UInt8)
  channel : List UInt8
  reader : Reader
  calls : Nat

namespace WireConn

def Reading (s : WireConn) : Prop := s.reader.returned.length < s.calls ∧ s.reader.phase ≠ .failed

/-- What can happen on the sockets: a whole buffer is written, the pending `write` or `read` moves
some bytes, or it ends in `EINTR` or `EAGAIN` and is tried again. -/
inductive Step (malloc : Nat → Mem) : WireConn → WireConn → Prop where
  | written (s : WireConn) (bufs : List (List UInt8)) (pending : s.unsent = [] :: bufs) :
      Step malloc s { s with unsent := bufs }
  | write (s : WireConn) (chunk left : List UInt8) (bufs : List (List UInt8))
      (pending : s.unsent = (chunk ++ left) :: bufs) (positive : chunk ≠ []) :
      Step malloc s { s with unsent := left :: bufs, channel := s.channel ++ chunk }
  | writeAgain (s : WireConn) (b : UInt8) (left : List UInt8) (bufs : List (List UInt8))
      (pending : s.unsent = (b :: left) :: bufs) : Step malloc s s
  | read (s : WireConn) (chunk left : List UInt8) (pending : s.Reading) (arrived : s.channel = chunk ++ left)
      (positive : chunk ≠ []) (asked : chunk.length ≤ s.reader.needed) :
      Step malloc s { s with channel := left, reader := s.reader.receive malloc chunk }
  | readAgain (s : WireConn) (pending : s.Reading) : Step malloc s s

abbrev Run (malloc : Nat → Mem) : WireConn → WireConn → Prop := Relation.ReflTransGen (Step malloc)

def coming (s : WireConn) : List UInt8 := s.channel ++ s.unsent.flatten

/-- What is left to do: every byte is written and read, and every buffer is completed. -/
def remaining (s : WireConn) : Nat := 2 * s.unsent.flatten.length + s.unsent.length + s.channel.length

theorem Step.moves_or_same {malloc : Nat → Mem} {s s' : WireConn} (step : Step malloc s s') :
    s' = s ∨ s'.remaining < s.remaining := by
  cases step with
  | written bufs pending => right; simp [remaining, pending]
  | write chunk left bufs pending positive =>
    right
    have := List.length_pos_iff.mpr positive
    simp [remaining, pending]
    omega
  | writeAgain => exact .inl rfl
  | read chunk left pending arrived positive =>
    right
    have := List.length_pos_iff.mpr positive
    simp [remaining, arrived]
    omega
  | readAgain => exact .inl rfl

end WireConn

@[simp] theorem wireHeader_length (m : WireMessage) : (wireHeader m).length = wireHeaderBytes := rfl

theorem wireOp_wireHeader (m : WireMessage) : wireOp (wireHeader m) = m.op := by
  have read := be32_be32Bytes (be32Bytes (UInt32.ofNat (wireHeaderBytes + m.payload.length))) m.op []
  rw [List.append_nil, be32Bytes_length] at read
  rw [wireOp, wireHeader, read, UInt32.ofNat_toNat]

theorem wireBufLen_wireHeader {m : WireMessage} (small : m.payload.length ≤ maxMessageBytes) :
    wireBufLen (wireHeader m) = m.payload.length := by
  have read := be32_be32Bytes [] (UInt32.ofNat (wireHeaderBytes + m.payload.length)) (be32Bytes m.op)
  rw [UInt32.toNat_ofNat_of_lt' (by simp [wireHeaderBytes, maxMessageBytes, UInt32.size] at *; omega)] at read
  rw [wireBufLen, wireHeader, ← List.nil_append (_ ++ _), ← List.length_nil, read]
  simp only [maxMessageBytes] at small
  rw [Int.bmod_eq_of_le] <;> simp [wireHeaderBytes] <;> omega

/-- The length field describes a payload that `wire_conn_read` takes exactly when it is neither
smaller than a header nor above the cap. -/
theorem wireBufLen_rejected {header : List UInt8}
    (wrong : ¬ ∃ n ≤ maxMessageBytes, (ofList header).be32 0 = wireHeaderBytes + n) :
    wireBufLen header < 0 ∨ wireBufLen header > maxMessageBytes := by
  have bound := be32_lt (ofList header) 0
  have outside : (ofList header).be32 0 < wireHeaderBytes ∨ wireHeaderBytes + maxMessageBytes < (ofList header).be32 0 := by
    by_contra inside
    exact wrong ⟨(ofList header).be32 0 - wireHeaderBytes, by omega, by omega⟩
  unfold wireBufLen
  simp only [wireHeaderBytes, maxMessageBytes, Int.bmod_def] at outside ⊢
  omega

/-- The reader has returned the first of `messages`, and `coming` is the rest of them from where
the reader stands. -/
def Delivers (messages : List WireMessage) (r : Reader) (coming : List UInt8) : Prop :=
  ∃ rest, messages = r.returned ++ rest ∧
    match r.phase with
    | .header got => got.length < wireHeaderBytes ∧ got ++ coming = (rest.flatMap wireConnWrite).flatten
    | .payload op bufLen got =>
      ∃ m later, rest = m :: later ∧ op = m.op ∧ bufLen = m.payload.length ∧ got < bufLen ∧ bufLen ≤ r.bufSpace ∧
        r.buf.bytes 0 got = m.payload.take got ∧ coming = m.payload.drop got ++ (later.flatMap wireConnWrite).flatten
    | .failed => False

theorem Reader.grow_room (malloc : Nat → Mem) (r : Reader) (bufLen : Nat) :
    bufLen ≤ (r.grow malloc bufLen).bufSpace ∧ (r.grow malloc bufLen).returned = r.returned := by
  unfold Reader.grow
  split
  · exact ⟨by simp only; omega, rfl⟩
  · exact ⟨by omega, rfl⟩

theorem readHeader_delivers (malloc : Nat → Mem) {messages later : List WireMessage} {r : Reader} {m : WireMessage}
    (small : m.payload.length ≤ maxMessageBytes) (split : messages = r.returned ++ m :: later) :
    Delivers messages (r.readHeader malloc (wireHeader m)) (m.payload ++ (later.flatMap wireConnWrite).flatten) := by
  obtain ⟨room, returned⟩ := r.grow_room malloc m.payload.length
  have valid : ¬ ((m.payload.length : Int) < 0 ∨ (m.payload.length : Int) > maxMessageBytes) := by omega
  simp only [Reader.readHeader, wireBufLen_wireHeader small, wireOp_wireHeader, if_neg valid, Int.toNat_natCast]
  split
  · rename_i empty
    have nothing : m.payload = [] := List.eq_nil_of_length_eq_zero (by omega)
    have same : (⟨m.op, []⟩ : WireMessage) = m := by rw [← nothing]
    refine ⟨later, ?_, by simp [wireHeaderBytes], by simp [nothing]⟩
    simp [Reader.deliver, bytes, returned, same, split]
  · rename_i full
    exact ⟨m :: later, returned ▸ split, m, later, rfl, rfl, rfl, by omega, room, by simp [bytes], by simp⟩

theorem Delivers.receive (malloc : Nat → Mem) {messages : List WireMessage} {r : Reader} {chunk coming : List UInt8}
    (small : ∀ m ∈ messages, m.payload.length ≤ maxMessageBytes) (positive : chunk ≠ [])
    (asked : chunk.length ≤ r.needed) (delivers : Delivers messages r (chunk ++ coming)) :
    Delivers messages (r.receive malloc chunk) coming := by
  obtain ⟨rest, split, stands⟩ := delivers
  obtain ⟨buf, bufSpace, phase, returned⟩ := r
  cases phase with
  | header got =>
    obtain ⟨short, stream⟩ := stands
    simp only [Reader.receive]
    split
    · rename_i more
      exact ⟨rest, split, more, by simpa using stream⟩
    · rename_i whole
      -- the chunk ends at the header's end, so the header belongs to the next message
      have full : (got ++ chunk).length = wireHeaderBytes := by
        simp only [Reader.needed, List.length_append] at asked whole ⊢
        omega
      cases rest with
      | nil =>
        have none : got ++ (chunk ++ coming) = [] := by simpa using stream
        simp only [List.append_eq_nil_iff] at none
        exact absurd none.2.1 positive
      | cons m later =>
        have whole : (got ++ chunk) ++ coming = wireHeader m ++ (m.payload ++ (later.flatMap wireConnWrite).flatten) := by
          simpa [wireConnWrite] using stream
        obtain ⟨header, left⟩ := List.append_inj whole (full.trans (wireHeader_length m).symm)
        rw [header, left]
        exact readHeader_delivers malloc (small m (by simp [split])) split
  | payload op bufLen got =>
    obtain ⟨m, later, rfl, rfl, rfl, unfinished, room, stored, stream⟩ := stands
    simp only [Reader.needed] at asked
    -- the chunk is the part of the payload from `got` on
    have piece : m.payload.drop got = chunk ++ m.payload.drop (got + chunk.length) ∧
        coming = m.payload.drop (got + chunk.length) ++ (later.flatMap wireConnWrite).flatten := by
      have cut := congrArg (List.take chunk.length) stream
      have after := congrArg (List.drop chunk.length) stream
      rw [List.take_left, List.take_append_of_le_length (by simpa using asked)] at cut
      rw [List.drop_left, List.drop_append_of_le_length (by simpa using asked), List.drop_drop] at after
      refine ⟨?_, after⟩
      conv_lhs => rw [← List.take_append_drop chunk.length (m.payload.drop got), ← cut, List.drop_drop]
    have filled : (buf.write got chunk).bytes 0 (got + chunk.length) = m.payload.take (got + chunk.length) := by
      rw [bytes_write_append, stored, List.take_add, piece.1, List.take_left]
    simp only [Reader.receive]
    split
    · rename_i more
      exact ⟨m :: later, split, m, later, rfl, rfl, rfl, more, room, filled, piece.2⟩
    · rename_i whole
      have complete : got + chunk.length = m.payload.length := by omega
      rw [complete, List.take_length] at filled
      rw [complete, List.drop_length, List.nil_append] at piece
      refine ⟨later, ?_, by simp [wireHeaderBytes], piece.2⟩
      simpa [Reader.deliver, filled] using split
  | failed => exact stands.elim

theorem Delivers.returned_prefix {messages : List WireMessage} {r : Reader} {coming : List UInt8}
    (delivers : Delivers messages r coming) : r.returned <+: messages := by
  obtain ⟨rest, split, -⟩ := delivers
  exact ⟨rest, split.symm⟩

theorem Delivers.not_failed {messages : List WireMessage} {r : Reader} {coming : List UInt8}
    (delivers : Delivers messages r coming) : r.phase ≠ .failed := by
  obtain ⟨rest, split, stands⟩ := delivers
  intro failed
  rw [failed] at stands
  exact stands

theorem Delivers.needs {messages : List WireMessage} {r : Reader} {coming : List UInt8}
    (delivers : Delivers messages r coming) : 0 < r.needed := by
  obtain ⟨rest, split, stands⟩ := delivers
  unfold Reader.needed
  cases phase : r.phase with
  | header got => rw [phase] at stands; exact Nat.sub_pos_of_lt stands.1
  | payload op bufLen got =>
    rw [phase] at stands
    obtain ⟨m, later, -, -, -, unfinished, -⟩ := stands
    exact Nat.sub_pos_of_lt unfinished
  | failed => rw [phase] at stands; exact stands.elim

theorem Delivers.coming_ne {messages : List WireMessage} {r : Reader} {coming : List UInt8}
    (delivers : Delivers messages r coming) (unfinished : r.returned ≠ messages) : coming ≠ [] := by
  obtain ⟨rest, split, stands⟩ := delivers
  rintro rfl
  cases phase : r.phase with
  | header got =>
    rw [phase] at stands
    obtain ⟨short, stream⟩ := stands
    cases rest with
    | nil => exact unfinished (by simpa using split.symm)
    | cons m later =>
      have size := congrArg List.length stream
      simp [wireConnWrite] at size
      omega
  | payload op bufLen got =>
    rw [phase] at stands
    obtain ⟨m, later, -, -, rfl, unfinished, -, -, stream⟩ := stands
    have size := congrArg List.length stream
    simp at size
    omega
  | failed => rw [phase] at stands; exact stands.elim

namespace WireConn

variable {malloc : Nat → Mem}

/-- The socket steps of the writer keep the bytes that are coming, so a run keeps what every
`receive` keeps. -/
theorem Step.keeps {holds : Reader → List UInt8 → Prop}
    (receive : ∀ r chunk coming, chunk ≠ [] → chunk.length ≤ r.needed → holds r (chunk ++ coming) →
      holds (r.receive malloc chunk) coming)
    {s s' : WireConn} (step : Step malloc s s') (before : holds s.reader s.coming) :
    holds s'.reader s'.coming ∧ s'.calls = s.calls := by
  cases step with
  | written bufs pending => exact ⟨by simpa [coming, pending] using before, rfl⟩
  | write chunk left bufs pending positive => exact ⟨by simpa [coming, pending] using before, rfl⟩
  | writeAgain => exact ⟨before, rfl⟩
  | read chunk left pending arrived positive asked =>
    rw [coming, arrived, List.append_assoc] at before
    exact ⟨receive s.reader chunk _ positive asked before, rfl⟩
  | readAgain => exact ⟨before, rfl⟩

theorem Run.keeps {holds : Reader → List UInt8 → Prop}
    (receive : ∀ r chunk coming, chunk ≠ [] → chunk.length ≤ r.needed → holds r (chunk ++ coming) →
      holds (r.receive malloc chunk) coming)
    {s s' : WireConn} (run : Run malloc s s') (before : holds s.reader s.coming) :
    holds s'.reader s'.coming ∧ s'.calls = s.calls := by
  induction run with
  | refl => exact ⟨before, rfl⟩
  | tail _ step ih =>
    obtain ⟨after, calls⟩ := step.keeps receive ih.1
    exact ⟨after, calls.trans ih.2⟩

theorem can_move {s : WireConn} (reading : s.Reading) (needs : 0 < s.reader.needed) (more : s.coming ≠ []) :
    ∃ s', Step malloc s s' ∧ s'.remaining < s.remaining := by
  cases arrived : s.channel with
  | cons b left =>
    refine ⟨_, .read s [b] left reading arrived (by simp) needs, ?_⟩
    simp [remaining, arrived]
  | nil =>
    cases pending : s.unsent with
    | nil => exact absurd (by simp [coming, arrived, pending]) more
    | cons buf bufs =>
      cases buf with
      | nil => exact ⟨_, .written s bufs pending, by simp [remaining, pending]⟩
      | cons b left =>
        refine ⟨_, .write s [b] left bufs pending (by simp), ?_⟩
        simp [remaining, pending, arrived]
        omega

end WireConn

/-- The reader has read part of `header` and returned nothing since, or has failed on it with `rest`
unread. -/
def Rejects (returned : List WireMessage) (header rest : List UInt8) (r : Reader) (coming : List UInt8) : Prop :=
  r.returned = returned ∧
    match r.phase with
    | .header got => got.length < wireHeaderBytes ∧ got ++ coming = header ++ rest
    | .payload .. => False
    | .failed => coming = rest

theorem Rejects.receive (malloc : Nat → Mem) {returned : List WireMessage} {header rest : List UInt8} {r : Reader}
    {chunk coming : List UInt8} (size : header.length = wireHeaderBytes)
    (wrong : ¬ ∃ n ≤ maxMessageBytes, (ofList header).be32 0 = wireHeaderBytes + n)
    (positive : chunk ≠ []) (asked : chunk.length ≤ r.needed) (rejects : Rejects returned header rest r (chunk ++ coming)) :
    Rejects returned header rest (r.receive malloc chunk) coming := by
  obtain ⟨same, stands⟩ := rejects
  obtain ⟨buf, bufSpace, phase, earlier⟩ := r
  cases phase with
  | header got =>
    obtain ⟨short, stream⟩ := stands
    rw [← List.append_assoc] at stream
    simp only [Reader.receive]
    split
    · rename_i more
      exact ⟨same, more, stream⟩
    · rename_i whole
      have full : (got ++ chunk).length = header.length := by
        simp only [Reader.needed, List.length_append] at asked whole ⊢
        omega
      obtain ⟨rfl, left⟩ := List.append_inj stream full
      rw [Reader.readHeader, if_pos (wireBufLen_rejected wrong)]
      exact ⟨same, left⟩
  | payload => exact stands.elim
  | failed =>
    have none : chunk.length ≤ 0 := asked
    exact absurd (List.eq_nil_of_length_eq_zero (by omega)) positive

/-- However the sockets split and interrupt the transfer, the reader returns the messages in order
and nothing else until it has returned them all; and a length that is no payload's fails the call
once the header is read, with everything behind the header unread. -/
theorem wireConn_framing (malloc : Nat → Mem) :
    (∀ (messages : List WireMessage) (buf : Mem) (bufSpace : Nat) (s : WireConn),
      (∀ m ∈ messages, m.payload.length ≤ maxMessageBytes) →
      WireConn.Run malloc ⟨messages.flatMap wireConnWrite, [], ⟨buf, bufSpace, .header [], []⟩, messages.length⟩ s →
        s.reader.returned <+: messages ∧ s.reader.phase ≠ .failed ∧
        (∀ s', WireConn.Step malloc s s' → s' = s ∨ s'.remaining < s.remaining) ∧
        (s.reader.returned = messages ∨ ∃ s', WireConn.Step malloc s s' ∧ s'.remaining < s.remaining)) ∧
    (∀ (start s : WireConn) (header rest : List UInt8),
      start.reader.phase = .header [] → start.Reading → start.coming = header ++ rest →
      header.length = wireHeaderBytes → (¬ ∃ n ≤ maxMessageBytes, (ofList header).be32 0 = wireHeaderBytes + n) →
      WireConn.Run malloc start s →
        s.reader.returned = start.reader.returned ∧
        (∀ s', WireConn.Step malloc s s' → s' = s ∨ s'.remaining < s.remaining) ∧
        (s.reader.phase = .failed ∧ s.coming = rest ∨
          (∃ got, s.reader.phase = .header got) ∧ ∃ s', WireConn.Step malloc s s' ∧ s'.remaining < s.remaining)) := by
  constructor
  · intro messages buf bufSpace s small run
    have before : Delivers messages ⟨buf, bufSpace, .header [], []⟩
        ([] ++ (messages.flatMap wireConnWrite).flatten) := ⟨messages, rfl, by simp [wireHeaderBytes], rfl⟩
    obtain ⟨delivers, calls⟩ := run.keeps
      (fun r chunk coming positive asked => Delivers.receive malloc small positive asked) before
    refine ⟨delivers.returned_prefix, delivers.not_failed, fun s' step => step.moves_or_same, ?_⟩
    by_cases unfinished : s.reader.returned = messages
    · exact .inl unfinished
    · have fewer : s.reader.returned.length < messages.length := by
        apply Nat.lt_of_le_of_ne delivers.returned_prefix.length_le
        intro same
        exact unfinished (delivers.returned_prefix.eq_of_length same)
      have reading : s.Reading := ⟨calls ▸ fewer, delivers.not_failed⟩
      exact .inr (WireConn.can_move reading delivers.needs (delivers.coming_ne unfinished))
  · intro start s header rest fresh reading stream size wrong run
    have before : Rejects start.reader.returned header rest start.reader start.coming := by
      refine ⟨rfl, ?_⟩
      rw [fresh]
      exact ⟨by simp [wireHeaderBytes], stream⟩
    obtain ⟨⟨same, stands⟩, calls⟩ := run.keeps
      (fun r chunk coming positive asked => Rejects.receive malloc size wrong positive asked) before
    refine ⟨same, fun s' step => step.moves_or_same, ?_⟩
    cases phase : s.reader.phase with
    | header got =>
      rw [phase] at stands
      obtain ⟨short, stream⟩ := stands
      refine .inr ⟨⟨got, rfl⟩, WireConn.can_move ⟨?_, by simp [phase]⟩ ?_ ?_⟩
      · rw [same, calls]; exact reading.1
      · simp only [Reader.needed, phase]; omega
      · intro nothing
        have total := congrArg List.length stream
        simp [nothing] at total
        omega
    | payload => rw [phase] at stands; exact stands.elim
    | failed => rw [phase] at stands; exact .inl ⟨rfl, stands⟩

theorem wireConn_framing_short :
    (∀ s, WireConn.Run (fun _ _ => 0)
        ⟨[⟨1, [7]⟩].flatMap wireConnWrite, [], ⟨fun _ => 0, 0, .header [], []⟩, 1⟩ s → s.reader.phase ≠ .failed) ∧
    (∀ s, WireConn.Run (fun _ _ => 0) ⟨[], [0, 0, 0, 4, 0, 0, 0, 1, 9], ⟨fun _ => 0, 0, .header [], []⟩, 1⟩ s →
      s.reader.returned = []) := by
  constructor
  · intro s run
    exact ((wireConn_framing _).1 [⟨1, [7]⟩] _ _ s (by decide) run).2.1
  · intro s run
    have wrong : ¬ ∃ n ≤ maxMessageBytes, (ofList [0, 0, 0, 4, 0, 0, 0, 1]).be32 0 = wireHeaderBytes + n := by
      rintro ⟨n, -, field⟩
      have four : (ofList [0, 0, 0, 4, 0, 0, 0, 1]).be32 0 = 4 := by decide
      rw [four, wireHeaderBytes] at field
      omega
    exact ((wireConn_framing _).2 _ s [0, 0, 0, 4, 0, 0, 0, 1] [9] rfl (by simp [WireConn.Reading]) rfl rfl wrong run).1

end TcpFuzz
