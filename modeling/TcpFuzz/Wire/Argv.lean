import TcpFuzz.Lib.Bytes

/-! The client sends its arguments as one string with a NUL behind each (`wire_client.c`); the server takes them
apart where `wire_conn_read` left them, in a longer buffer (`wire_server.c`). -/

namespace TcpFuzz
open Bytes Bytes.Mem

structure CString where
  chars : List UInt8
  noNul : 0 ∉ chars
deriving DecidableEq

def cChars (text : String) : List UInt8 := text.toList.map fun c => UInt8.ofNat c.toNat

def strstr (haystack needle : List UInt8) : Bool := haystack.tails.any fun rest => needle.isPrefixOf rest

def wireClientText : List UInt8 := cChars "-wire_client"
def wireServerText : List UInt8 := cChars "--wire_server"

def CString.hasWireClient (a : CString) : Bool := strstr a.chars wireClientText

/-- First pass of `wire_client_serialize_argv`: the bytes that the arguments take. -/
def serializedLen (argv : List CString) : Nat :=
  argv.foldl (fun argsLen a => if a.hasWireClient then argsLen else argsLen + (a.chars.length + 1)) 0

def serializeArg (out : Mem × Nat) (a : CString) : Mem × Nat :=
  if a.hasWireClient then out else (out.1.write out.2 (a.chars ++ [0]), out.2 + (a.chars.length + 1))

/-- The message, unless the assertion on its end fails. -/
def wireClientSerializeArgv (argv : List CString) : Option (List UInt8) :=
  let argsLen := serializedLen argv
  let (args, last) := argv.foldl serializeArg (fun _ => 0, 0)
  if last = argsLen then some (args.bytes 0 argsLen) else none

def strdup : List UInt8 → Option (List UInt8)
  | [] => none
  | b :: rest => if b = 0 then some [] else (strdup rest).map (b :: ·)

def strdupReads (buf : List UInt8) (start : Nat) : List Nat :=
  match strdup (buf.drop start) with
  | some chars => List.range' start (chars.length + 1)
  | none => List.range' start (buf.length - start + 1)

/-- What a decoder returned, if it did not run out of the buffer, and where it looked. -/
structure Unserialized where
  argv : Option (List (List UInt8))
  reads : List Nat

def duplicateArgs (buf : List UInt8) : Nat → Nat → Unserialized
  | 0, _ => ⟨some [], []⟩
  | argc + 1, start =>
    match strdup (buf.drop start) with
    | none => ⟨none, strdupReads buf start⟩
    | some chars =>
      let rest := duplicateArgs buf argc (start + (chars.length + 1))
      ⟨rest.argv.map (chars :: ·), strdupReads buf start ++ rest.reads⟩

/-- `wire_server_unserialize_argv` on a message of `argsLen` bytes at the start of `buf`. The last
string duplicated is replaced by the server's switch. -/
def wireServerUnserializeArgv (buf : List UInt8) (argsLen : Nat) : Unserialized :=
  let argc := (buf.take argsLen).count 0 + 1
  let copied := duplicateArgs buf argc 0
  ⟨copied.argv.map (·.set (argc - 1) wireServerText), List.range argsLen ++ copied.reads⟩

def CString.wire (a : CString) : List UInt8 := a.chars ++ [0]

def sentArgs (argv : List CString) : List CString := argv.filter fun a => !a.hasWireClient

theorem serializedLen_from (argv : List CString) (n : Nat) :
    argv.foldl (fun argsLen a => if a.hasWireClient then argsLen else argsLen + (a.chars.length + 1)) n =
      n + ((sentArgs argv).flatMap CString.wire).length := by
  induction argv generalizing n with
  | nil => simp [sentArgs]
  | cons a rest ih =>
    rw [List.foldl_cons, ih]
    cases dropped : a.hasWireClient <;> simp [sentArgs, CString.wire, dropped]
    omega

theorem serializeArg_foldl (argv : List CString) (args : Mem) (n : Nat) :
    (argv.foldl serializeArg (args, n)).2 = n + ((sentArgs argv).flatMap CString.wire).length ∧
    (argv.foldl serializeArg (args, n)).1.bytes 0 (n + ((sentArgs argv).flatMap CString.wire).length) =
      args.bytes 0 n ++ (sentArgs argv).flatMap CString.wire := by
  induction argv generalizing args n with
  | nil => simp [sentArgs]
  | cons a rest ih =>
    cases dropped : a.hasWireClient with
    | true =>
      have skipped : sentArgs (a :: rest) = sentArgs rest := by simp [sentArgs, dropped]
      rw [List.foldl_cons, serializeArg, if_pos dropped, skipped]
      exact ih args n
    | false =>
      have copy : serializeArg (args, n) a = (args.write n a.wire, n + a.wire.length) := by
        simp [serializeArg, dropped, CString.wire]
      have kept : sentArgs (a :: rest) = a :: sentArgs rest := by simp [sentArgs, dropped]
      rw [List.foldl_cons, copy, kept, List.flatMap_cons, List.length_append, ← Nat.add_assoc]
      obtain ⟨last, copied⟩ := ih (args.write n a.wire) (n + a.wire.length)
      refine ⟨last, copied.trans ?_⟩
      rw [bytes_write_append, List.append_assoc]

theorem wireClientSerializeArgv_eq (argv : List CString) :
    wireClientSerializeArgv argv = some ((sentArgs argv).flatMap CString.wire) := by
  obtain ⟨last, copied⟩ := serializeArg_foldl argv (fun _ => 0) 0
  have size := serializedLen_from argv 0
  rw [Nat.zero_add] at last copied size
  simp only [wireClientSerializeArgv, serializedLen, last, size, if_true, copied]
  simp [bytes]

theorem strdup_wire (a : CString) (rest : List UInt8) : strdup (a.wire ++ rest) = some a.chars := by
  obtain ⟨chars, noNul⟩ := a
  simp only [CString.wire]
  induction chars with
  | nil => simp [strdup]
  | cons b chars ih =>
    rw [List.mem_cons, not_or] at noNul
    have more := ih noNul.2
    simp only [List.cons_append, strdup, if_neg (Ne.symm noNul.1), more, Option.map_some]

theorem strdup_isSome (buf : List UInt8) : (strdup buf).isSome ↔ 0 ∈ buf := by
  induction buf with
  | nil => simp [strdup]
  | cons b rest ih =>
    rw [strdup]
    split
    · rename_i zero
      simp [zero]
    · rename_i other
      simp [ih, Ne.symm other]

theorem mem_strdupReads (buf : List UInt8) (start : Nat) : start ∈ strdupReads buf start := by
  unfold strdupReads
  split <;> simp [List.mem_range']

theorem duplicateArgs_sent {buf beyond : List UInt8} (sent : List CString) {start : Nat}
    (here : buf.drop start = sent.flatMap CString.wire ++ beyond) :
    (duplicateArgs buf (sent.length + 1) start).argv =
      (strdup beyond).map (fun last => sent.map CString.chars ++ [last]) ∧
    start + (sent.flatMap CString.wire).length ∈ (duplicateArgs buf (sent.length + 1) start).reads := by
  induction sent generalizing start with
  | nil =>
    rw [List.flatMap_nil, List.nil_append] at here
    have looked := mem_strdupReads buf start
    rw [List.length_nil, duplicateArgs, here]
    cases last : strdup beyond with
    | none => exact ⟨rfl, by simpa using looked⟩
    | some chars => exact ⟨rfl, by simpa [duplicateArgs] using looked⟩
  | cons a sent ih =>
    rw [List.flatMap_cons, List.append_assoc] at here
    have size : a.wire.length = a.chars.length + 1 := by simp [CString.wire]
    have next : buf.drop (start + (a.chars.length + 1)) = sent.flatMap CString.wire ++ beyond := by
      rw [← List.drop_drop, here, ← size, List.drop_left]
    obtain ⟨copied, looked⟩ := ih next
    rw [List.length_cons, duplicateArgs, here, strdup_wire]
    refine ⟨?_, List.mem_append_right _ ?_⟩
    · simp only [copied, Option.map_map]
      rfl
    · rw [Nat.add_assoc] at looked
      rw [List.flatMap_cons, List.length_append, size]
      exact looked

theorem count_nul_wire (sent : List CString) : (sent.flatMap CString.wire).count 0 = sent.length := by
  induction sent with
  | nil => rfl
  | cons a sent ih =>
    have none := List.count_eq_zero.mpr a.noNul
    simp [CString.wire, ih, none]

/-- What the server gets out of the client's message, with `beyond` behind it in the buffer. -/
theorem wireServerUnserializeArgv_sent (sent : List CString) (beyond : List UInt8) :
    (wireServerUnserializeArgv (sent.flatMap CString.wire ++ beyond) (sent.flatMap CString.wire).length).argv =
      (if 0 ∈ beyond then some (sent.map CString.chars ++ [wireServerText]) else none) ∧
    (sent.flatMap CString.wire).length ∈
      (wireServerUnserializeArgv (sent.flatMap CString.wire ++ beyond) (sent.flatMap CString.wire).length).reads := by
  have here : (sent.flatMap CString.wire ++ beyond).drop 0 = sent.flatMap CString.wire ++ beyond := List.drop_zero
  obtain ⟨copied, looked⟩ := duplicateArgs_sent sent here
  rw [Nat.zero_add] at looked
  simp only [wireServerUnserializeArgv, List.take_left, count_nul_wire, copied]
  refine ⟨?_, List.mem_append_right _ looked⟩
  have found := strdup_isSome beyond
  cases last : strdup beyond with
  | none => rw [if_neg (by simpa [last] using found)]; rfl
  | some chars => rw [if_pos (by simpa [last] using found)]; simp

def CString.isWireClient (a : CString) : Bool := a.chars == wireClientText || a.chars == cChars "--wire_client"

def serverArgv (argv : List CString) : List (List UInt8) :=
  (argv.filter fun a => !a.isWireClient).map CString.chars ++ [wireServerText]

/-- The arguments survive a message that is followed by `beyond` in the receive buffer, and the
decoder stays within the message. -/
def ArgvSurvives (argv : List CString) (beyond : List UInt8) : Prop :=
  ∃ args, wireClientSerializeArgv argv = some args ∧
    (wireServerUnserializeArgv (args ++ beyond) args.length).argv = some (serverArgv argv) ∧
    ∀ k ∈ (wireServerUnserializeArgv (args ++ beyond) args.length).reads, k < args.length

theorem CString.isWireClient.dropped {a : CString} (switch : a.isWireClient = true) : a.hasWireClient = true := by
  have short : strstr wireClientText wireClientText = true := by decide +kernel
  have long : strstr (cChars "--wire_client") wireClientText = true := by decide +kernel
  rcases (by simpa [CString.isWireClient] using switch : a.chars = wireClientText ∨ a.chars = cChars "--wire_client")
    with same | same <;> rw [CString.hasWireClient, same] <;> assumption

/-- The client sends the arguments that the server is meant to have exactly when nothing but the
switch has its text. -/
theorem sentArgs_eq_iff (argv : List CString) :
    (sentArgs argv).map CString.chars ++ [wireServerText] = serverArgv argv ↔
      ∀ a ∈ argv, a.hasWireClient = true → a.isWireClient = true := by
  have injective : Function.Injective CString.chars := by
    rintro ⟨_, _⟩ ⟨_, _⟩ rfl
    rfl
  rw [serverArgv, List.append_left_inj, injective.list_map.eq_iff, sentArgs]
  constructor
  · intro same a listed text
    by_contra other
    have kept : a ∈ argv.filter fun a => !a.hasWireClient := same ▸ List.mem_filter.mpr ⟨listed, by simpa using other⟩
    simp [text] at kept
  · intro only
    apply List.filter_congr
    intro a listed
    have back := only a listed
    have forth := CString.isWireClient.dropped (a := a)
    cases text : a.hasWireClient <;> cases switch : a.isWireClient <;> simp_all

/-- The decoder always looks behind the message. It still returns the arguments exactly when nothing
but the switch has the text of the switch, and the bytes behind the message hold a NUL. -/
theorem argv_never_survives (argv : List CString) (beyond : List UInt8) :
    ¬ ArgvSurvives argv beyond ∧
    ∃ args, wireClientSerializeArgv argv = some args ∧
      ((wireServerUnserializeArgv (args ++ beyond) args.length).argv = some (serverArgv argv) ↔
        (∀ a ∈ argv, a.hasWireClient = true → a.isWireClient = true) ∧ 0 ∈ beyond) := by
  obtain ⟨decoded, looked⟩ := wireServerUnserializeArgv_sent (sentArgs argv) beyond
  refine ⟨?_, _, wireClientSerializeArgv_eq argv, ?_⟩
  · rintro ⟨args, serialized, -, inside⟩
    rw [wireClientSerializeArgv_eq, Option.some.injEq] at serialized
    subst serialized
    exact Nat.lt_irrefl _ (inside _ looked)
  · rw [decoded, ← sentArgs_eq_iff]
    split <;> simp_all

/-- The option that names the client's device has the text of the switch, and is lost. -/
theorem argv_device_lost :
    let argv : List CString :=
      [⟨cChars "packetdrill", by decide⟩, ⟨cChars "--wire_client", by decide⟩,
        ⟨cChars "--wire_client_dev=eth1", by decide⟩, ⟨cChars "a.pkt", by decide⟩]
    ¬ ArgvSurvives argv [0] ∧
    (wireClientSerializeArgv argv).map (fun args => (wireServerUnserializeArgv (args ++ [0]) args.length).argv) =
      some (some [cChars "packetdrill", cChars "a.pkt", wireServerText]) := by
  intro argv
  have serialized : wireClientSerializeArgv argv = some (cChars "packetdrill" ++ 0 :: cChars "a.pkt" ++ [0]) := by
    decide +kernel
  rw [serialized]
  refine ⟨?_, by decide +kernel⟩
  rintro ⟨args, same, kept, -⟩
  obtain rfl := Option.some.inj (serialized.symm.trans same)
  revert kept
  decide +kernel

end TcpFuzz
