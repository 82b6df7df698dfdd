import TcpFuzz.Script.PacketToString
import TcpFuzz.Tcp.OptionAccess

/-! The text of an option grows with its length byte, which the iterator follows even when it is wrong. -/

namespace TcpFuzz
open Bytes Mem

theorem decimal_length {n k : Nat} (positive : 0 < k) (small : n < 10 ^ k) : (decimal n).length ≤ k :=
  (Nat.length_toDigits_le_iff (by decide) positive).mpr small

theorem decimalInt_length (n : Int) : (decimalInt n).length ≤ 10 := by
  apply decimal_length (by decide)
  omega

theorem decimal_be16_length (m : Mem) (i : Nat) : (decimal (m.be16 i)).length ≤ 5 :=
  decimal_length (by decide) (Nat.lt_trans (m.be16_lt i) (by decide))

theorem decimal_be32_length (m : Mem) (i : Nat) : (decimal (m.be32 i)).length ≤ 10 :=
  decimal_length (by decide) (Nat.lt_trans (m.be32_lt i) (by decide))

theorem hexText_length (bytes : List UInt8) : (hexText bytes).length = 2 * bytes.length := by
  induction bytes with
  | nil => rfl
  | cons b rest ih =>
    show (_ :: _ :: hexText rest).length = _
    simp only [List.length_cons, ih]
    omega

theorem dataText_length (name : String) (data : List UInt8) :
    (dataText name data).length ≤ name.length + 1 + 2 * data.length := by
  unfold dataText
  split
  · rw [List.append_nil, String.length_toList]
    omega
  · rw [List.length_append, String.length_toList, List.length_cons, hexText_length]
    omega

/-- The iterator has nothing to say about the length of the option. -/
def PlainOption (m : Mem) (stop option : Nat) : Prop :=
  m.get8 option ≤ 1 ∨ (getTcpOptionLength m option stop (getExpectedTcpOptionLength (m.get8 option)).1).2 = none

def optionSpan (m : Mem) (option : Nat) : Nat := if m.get8 option ≤ 1 then 1 else m.get8 (option + 1)

section

variable {m : Mem} {stop option : Nat}

theorem PlainOption.length (wellFormed : PlainOption m stop option) (long : 1 < m.get8 option) :
    2 ≤ m.get8 (option + 1) ∧ option + m.get8 (option + 1) ≤ stop ∧
      ((getExpectedTcpOptionLength (m.get8 option)).1 ≠ 0 → m.get8 (option + 1) = (getExpectedTcpOptionLength (m.get8 option)).1) := by
  have silent := wellFormed.resolve_left (by omega)
  unfold getTcpOptionLength at silent
  split at silent
  · cases silent
  simp only at silent
  split at silent
  · cases silent
  rename_i expected
  split at silent
  · cases silent
  split at silent
  · cases silent
  refine ⟨by omega, by omega, ?_⟩
  intro fixed
  by_contra other
  exact expected ⟨fixed, other⟩

theorem PlainOption.span (wellFormed : PlainOption m stop option) (inside : option < stop) :
    option + optionSpan m option ≤ stop := by
  unfold optionSpan
  split
  · omega
  · exact (wellFormed.length (by omega)).2.1

theorem intercalate_length {separator : Char} {texts : List (List Char)} {k : Nat} (short : ∀ text ∈ texts, text.length ≤ k) :
    ([separator].intercalate texts).length ≤ (k + 1) * texts.length := by
  induction texts with
  | nil => exact Nat.zero_le _
  | cons text rest ih =>
    have first := short text List.mem_cons_self
    have later := ih fun text member => short text (List.mem_cons_of_mem _ member)
    cases rest with
    | nil =>
      simp only [List.intercalate_singleton, List.length_cons, List.length_nil]
      omega
    | cons next rest =>
      rw [List.intercalate_cons_cons, List.length_append, List.length_append, List.length_singleton]
      rw [List.length_cons] at later ⊢
      rw [List.length_cons, Nat.mul_succ]
      omega

theorem sackBlockText_length (m : Mem) (block : Nat) : (sackBlockText m block).length ≤ 21 := by
  have left := decimal_be32_length m block
  have right := decimal_be32_length m (block + 4)
  rw [sackBlockText, List.length_append, List.length_cons]
  omega

theorem sackBlocks_length (m : Mem) (option n : Nat) :
    ([' '].intercalate ((List.range n).map fun i => sackBlockText m (option + 2 + 8 * i))).length ≤ 22 * n := by
  have short : ∀ text ∈ (List.range n).map fun i => sackBlockText m (option + 2 + 8 * i), text.length ≤ 21 := by
    intro text member
    obtain ⟨i, _, rfl⟩ := List.mem_map.mp member
    exact sackBlockText_length m _
  have bound := @intercalate_length ' ' _ _ short
  rwa [List.length_map, List.length_range] at bound

theorem expectedLength_of_kind :
    (getExpectedTcpOptionLength tcpoptMaxseg).1 = 4 ∧ (getExpectedTcpOptionLength tcpoptWindow).1 = 3 ∧
      (getExpectedTcpOptionLength tcpoptTimestamp).1 = 10 := by
  decide

theorem tcpMd5OptionToString_length (m : Mem) (option : Nat) :
    (tcpMd5OptionToString m option).length + 1 ≤ 4 + 2 * m.get8 (option + 1) := by
  have name : "md5".length = 3 := rfl
  simp only [tcpMd5OptionToString]
  split
  · simp only [List.length_nil]
    omega
  · have text := dataText_length "md5" (m.bytes (option + 2) (m.get8 (option + 1) - 2))
    rw [name, bytes_length] at text
    omega

theorem tcpFastOpenOptionToString_length {exp : Bool} {text : List Char}
    (printed : tcpFastOpenOptionToString m option exp = some text) : text.length ≤ 6 + 2 * (m.get8 (option + 1) - 2) := by
  have names : "FOEXP".length = 5 ∧ "FO".length = 2 := ⟨rfl, rfl⟩
  unfold tcpFastOpenOptionToString at printed
  cases exp with
  | true =>
    simp only at printed
    split at printed
    · cases printed
    · cases printed
      have text := dataText_length "FOEXP" (m.bytes (option + 4) (m.get8 (option + 1) - 4))
      rw [names.1, bytes_length] at text
      omega
  | false =>
    cases printed
    have text := dataText_length "FO" (m.bytes (option + 2) (m.get8 (option + 1) - 2))
    rw [names.2, bytes_length] at text
    omega

theorem tcpOptionToString_length {text : List Char} {error : Option String} (wellFormed : PlainOption m stop option)
    (printed : tcpOptionToString m option = .ok (text, error)) : text.length + 1 ≤ 4 * optionSpan m option := by
  obtain ⟨maxseg, window, timestamp⟩ := expectedLength_of_kind
  unfold tcpOptionToString at printed
  unfold optionSpan
  simp only at printed
  split at printed
  · rename_i kind
    cases printed
    rw [if_pos (by rw [kind]; decide)]
    decide
  split at printed
  · rename_i kind
    cases printed
    rw [if_pos (Nat.le_of_eq kind)]
    decide
  have long : 1 < m.get8 option := by
    simp only [tcpoptEol, tcpoptNop] at *
    omega
  obtain ⟨some, _, fixed⟩ := wellFormed.length long
  rw [if_neg (Nat.not_le.mpr long)]
  split at printed
  · rename_i kind
    cases printed
    rw [kind, maxseg] at fixed
    have number := decimal_be16_length m (option + 2)
    have word : "mss ".toList.length = 4 := rfl
    have length := fixed (by decide)
    rw [List.length_append, word]
    omega
  split at printed
  · rename_i kind
    cases printed
    rw [kind, window] at fixed
    have number : (decimal (m.get8 (option + 2))).length ≤ 3 :=
      decimal_length (by decide) (Nat.lt_trans (m.get8_lt _) (by decide))
    have word : "wscale ".toList.length = 7 := rfl
    have length := fixed (by decide)
    rw [List.length_append, word]
    omega
  split at printed
  · cases printed
    have word : "sackOK".toList.length = 6 := rfl
    omega
  split at printed
  · split at printed
    · cases printed
    · rename_i n counted
      cases printed
      unfold numSackBlocks at counted
      split at counted
      · cases counted
      · cases counted
        have blocks := sackBlocks_length m option ((m.get8 (option + 1) - 2) / 8)
        have word : "sack ".toList.length = 5 := rfl
        rw [List.length_append, word]
        omega
  split at printed
  · rename_i kind
    cases printed
    rw [kind, timestamp] at fixed
    have val := decimal_be32_length m (option + 2)
    have ecr := decimal_be32_length m (option + 6)
    have words : "TS val ".toList.length = 7 ∧ " ecr ".toList.length = 5 := ⟨rfl, rfl⟩
    have length := fixed (by decide)
    simp only [List.length_append, words]
    omega
  split at printed
  · cases printed
    have text := tcpMd5OptionToString_length m option
    omega
  split at printed
  · cases printed
    cases text : tcpFastOpenOptionToString m option false with
    | none =>
      simp only [Option.getD_none, List.length_nil]
      omega
    | some text =>
      have bound := tcpFastOpenOptionToString_length text
      simp only [Option.getD_some]
      omega
  split at printed
  · split at printed
    · cases printed
    · rename_i shown
      cases printed
      have bound := tcpFastOpenOptionToString_length shown
      omega
  · cases printed
    simp only [List.length_nil]
    omega

theorem printOptions_outside (printed : Printed) (comma : List Char) (outside : ¬option < stop) :
    printOptions m stop printed comma option = .ok printed := by
  rw [printOptions, if_neg outside]

def Printed.add (printed : Printed) (m : Mem) (stop option : Nat) (comma text : List Char) (error : Option String) : Printed :=
  ⟨printed.text ++ comma ++ text, (tcpOptionsNext m stop option).2 <|> error <|> printed.error⟩

theorem printOptions_inside (printed : Printed) (comma : List Char) (inside : option < stop) :
    printOptions m stop printed comma option =
      match tcpOptionToString m option with
      | .error e => .error e
      | .ok (text, error) =>
        match (tcpOptionsNext m stop option).1 with
        | none => .ok (printed.add m stop option comma text error)
        | some next => printOptions m stop (printed.add m stop option comma text error) [','] next := by
  rw [printOptions, if_pos inside]
  rcases tcpOptionToString m option with e | ⟨text, error⟩
  · rfl
  · simp only
    split
    · rename_i last
      rw [last]
      rfl
    · rename_i found
      rw [found]
      rfl

theorem tcpOptionsNext_span {next : Nat} (found : (tcpOptionsNext m stop option).1 = some next) :
    next = option + optionSpan m option := by
  rw [tcpOptionsNext_eq] at found
  unfold getCurrentOption at found
  unfold optionSpan
  split at found
  · rw [if_pos ‹_›]
    split at found
    · cases found
    · cases found
      rfl
  · rw [if_neg ‹_›]
    split at found
    · cases found
    · split at found
      · cases found
      · cases found
        rfl

theorem printOptions_length {printed result : Printed} {comma : List Char} (short : comma.length ≤ 1)
    (wellFormed : ∀ o ∈ optionOffsets m stop option, PlainOption m stop o)
    (ok : printOptions m stop printed comma option = .ok result) :
    result.text.length ≤ printed.text.length + 4 * (stop - option) := by
  induction option using optionWalk m stop generalizing printed comma with
  | outside option outside =>
    rw [printOptions_outside printed comma outside] at ok
    cases ok
    omega
  | last option inside last =>
    rw [printOptions_inside printed comma inside] at ok
    split at ok
    · cases ok
    · simp only [last] at ok
      cases ok
      have here := wellFormed option (by rw [optionOffsets_none inside last]; exact List.mem_singleton_self _)
      have bound := tcpOptionToString_length here ‹_›
      have span := here.span inside
      simp only [Printed.add, List.length_append]
      omega
  | more option next inside found ih =>
    rw [optionOffsets_some inside found] at wellFormed
    rw [printOptions_inside printed comma inside] at ok
    split at ok
    · cases ok
    · simp only [found] at ok
      have here := wellFormed option List.mem_cons_self
      have bound := tcpOptionToString_length here ‹_›
      have span := here.span inside
      have step := tcpOptionsNext_span found
      have tail := ih (Nat.le_refl [','].length) (fun o member => wellFormed o (List.mem_cons_of_mem _ member)) ok
      simp only [Printed.add, List.length_append] at tail
      omega

def longestError : Nat := 49

def ShortError (error : Option String) : Prop := ∀ e, error = some e → e.length ≤ longestError

theorem ShortError.none : ShortError none := by
  intro e isError
  cases isError

theorem ShortError.some {e : String} (short : e.length ≤ longestError) : ShortError (some e) := by
  rintro _ ⟨⟩
  exact short

theorem ShortError.or {first second : Option String} (short : ShortError first) (short' : ShortError second) :
    ShortError (first <|> second) := by
  cases first with
  | none => exact short'
  | some e => exact short

theorem ShortError.ite {c : Prop} [Decidable c] {error error' : Option String} (short : ShortError error)
    (short' : ShortError error') : ShortError (if c then error else error') := by
  split
  · exact short
  · exact short'

theorem toString_nat_length {n k : Nat} (positive : 0 < k) (small : n < 10 ^ k) : (toString n).length ≤ k :=
  (Nat.length_repr_le_iff positive).mpr small

theorem toString_get8_length (m : Mem) (i : Nat) : (toString (m.get8 i)).length ≤ 3 :=
  toString_nat_length (by decide) (Nat.lt_trans (m.get8_lt _) (by decide))

theorem unexpectedKind_short (m : Mem) (option : Nat) :
    ShortError (some ("unexpected TCP option kind: " ++ toString (m.get8 option))) := by
  have number := toString_get8_length m option
  have words : "unexpected TCP option kind: ".length = 28 := rfl
  apply ShortError.some
  rw [String.length_append, words]
  exact Nat.le_trans (Nat.add_le_add_left number _) (by decide)

theorem getExpectedTcpOptionLength_spec (m : Mem) (option : Nat) :
    (getExpectedTcpOptionLength (m.get8 option)).1 ≤ 10 ∧ ShortError (getExpectedTcpOptionLength (m.get8 option)).2 := by
  have unexpected := unexpectedKind_short m option
  unfold getExpectedTcpOptionLength
  repeat' split
  all_goals first
    | exact ⟨by decide, .none⟩
    | exact ⟨Nat.zero_le _, unexpected⟩

theorem getTcpOptionLength_short {expectedLength : Nat} (small : expectedLength ≤ 10) :
    ShortError (getTcpOptionLength m option stop expectedLength).2 := by
  have length := toString_get8_length m (option + 1)
  have expected : (toString expectedLength).length ≤ 2 := toString_nat_length (by decide) (by omega)
  have words : "bad TCP option length: was ".length = 27 ∧ " but expected ".length = 14 := ⟨rfl, rfl⟩
  unfold getTcpOptionLength
  split
  · exact .some (by decide)
  · refine .ite (.some ?_) (.ite (.some (by decide)) (.ite (.some (by decide)) .none))
    rw [String.length_append, String.length_append, String.length_append, words.1, words.2]
    unfold longestError
    omega

theorem tcpOptionsNext_short (m : Mem) (stop option : Nat) : ShortError (tcpOptionsNext m stop option).2 := by
  obtain ⟨small, unexpected⟩ := getExpectedTcpOptionLength_spec m option
  have bad : ShortError (getTcpOptionLength m option stop _).2 := getTcpOptionLength_short small
  unfold tcpOptionsNext
  simp only
  split
  · exact unexpected
  · split
    · exact bad.or unexpected
    · exact bad.or unexpected
    · exact bad.or unexpected

def printError {α : Type} (error : α → Option String) : Except String α → Option String
  | .error e => some e
  | .ok a => error a

theorem numSackBlocks_short {optLen : Nat} {e : String} (failed : numSackBlocks optLen = .error e) :
    e.length ≤ longestError := by
  unfold numSackBlocks at failed
  split at failed
  · cases failed
    decide
  · cases failed

theorem tcpOptionToString_short (m : Mem) (option : Nat) : ShortError (printError Prod.snd (tcpOptionToString m option)) := by
  have unexpected := unexpectedKind_short m option
  unfold tcpOptionToString
  simp only
  repeat' split
  all_goals first
    | exact ShortError.none
    | exact unexpected
    | exact ShortError.some (by decide)
    | exact ShortError.some (numSackBlocks_short ‹_›)

theorem printOptions_short {printed : Printed} {comma : List Char} (short : ShortError printed.error) :
    ShortError (printError Printed.error (printOptions m stop printed comma option)) := by
  induction option using optionWalk m stop generalizing printed comma with
  | outside option outside =>
    rw [printOptions_outside printed comma outside]
    exact short
  | last option inside last =>
    have here := tcpOptionToString_short m option
    rw [printOptions_inside printed comma inside]
    split
    · rename_i failed
      rwa [failed] at here
    · rename_i shown
      rw [shown] at here
      simp only [last]
      exact (tcpOptionsNext_short m stop option).or (here.or short)
  | more option next inside found ih =>
    have here := tcpOptionToString_short m option
    rw [printOptions_inside printed comma inside]
    split
    · rename_i failed
      rwa [failed] at here
    · rename_i shown
      rw [shown] at here
      simp only [found]
      exact ih ((tcpOptionsNext_short m stop option).or (here.or short))

end

/-- A packet without encapsulation, in whose options the iterator finds nothing wrong. -/
structure PlainDump (p : Packet) : Prop where
  headers : packetHeaderCount p ≤ 2
  options : ∀ tcp, p.tcp = some tcp →
    ∀ o ∈ optionOffsets p.buffer (optionsEnd p.buffer tcp) (tcp + 20), PlainOption p.buffer (optionsEnd p.buffer tcp) o

theorem tcpFlagsText_length (byte : Nat) : (tcpFlagsText byte).length ≤ 8 := by
  unfold tcpFlagsText
  rw [List.length_map]
  exact List.length_filter_le _ printedFlags

def tcpFieldsText (p : Packet) (tcp : Nat) (payloadLen : Int) : List Char :=
  tcpFlagsText (p.buffer.get8 (tcp + 13)) ++ ' ' :: decimal (p.buffer.be32 (tcp + 4)) ++
    ':' :: decimalInt (p.buffer.be32 (tcp + 4) + payloadLen) ++ '(' :: decimalInt payloadLen ++ [')', ' '] ++
    (if p.buffer.get8 (tcp + 13) / 16 % 2 = 1 then "ack ".toList ++ decimal (p.buffer.be32 (tcp + 8)) ++ [' '] else []) ++
    if p.flags.winNocheck then [] else "win ".toList ++ decimal (p.buffer.be16 (tcp + 14)) ++ [' ']

theorem tcpFieldsText_length (p : Packet) (tcp : Nat) (payloadLen : Int) : (tcpFieldsText p tcp payloadLen).length ≤ 68 := by
  have flags := tcpFlagsText_length (p.buffer.get8 (tcp + 13))
  have seq := decimal_be32_length p.buffer (tcp + 4)
  have stop := decimalInt_length (p.buffer.be32 (tcp + 4) + payloadLen)
  have length := decimalInt_length payloadLen
  have ack := decimal_be32_length p.buffer (tcp + 8)
  have window := decimal_be16_length p.buffer (tcp + 14)
  have words : "ack ".toList.length = 4 ∧ "win ".toList.length = 4 := ⟨rfl, rfl⟩
  unfold tcpFieldsText
  split <;> split <;> simp only [List.length_append, List.length_cons, List.length_nil, words] <;> omega

section

variable {p : Packet} {tcp : Nat} (plain : PlainDump p) (isTcp : p.tcp = some tcp)
include plain isTcp

theorem tcpOptionsToString_length :
    ∃ outcome, tcpOptionsToString p = .ok outcome ∧ ShortError (printError Printed.error outcome) ∧
      ∀ printed, outcome = .ok printed → printed.text.length ≤ 160 := by
  refine ⟨printOptions p.buffer (optionsEnd p.buffer tcp) ⟨[], none⟩ [] (tcp + 20), ?_, printOptions_short .none, ?_⟩
  · rw [tcpOptionsToString, tcpOptionsBegin_eq isTcp]
    rfl
  · intro printed ok
    have bound := printOptions_length (Nat.zero_le _) (plain.options tcp isTcp) ok
    have offset := p.buffer.get8_lt (tcp + 12)
    simp only [List.length_nil, optionsEnd, tcpDoff] at bound
    omega

theorem tcpPacketToString_length {printed : Printed} (ran : tcpPacketToString p = .ok printed) :
    printed.text.length ≤ 230 ∧ ShortError printed.error := by
  obtain ⟨outcome, options, short, few⟩ := tcpOptionsToString_length plain isTcp
  unfold tcpPacketToString at ran
  rw [isTcp] at ran
  obtain ⟨_, ⟨⟩, ran⟩ := run_bind_ok ran
  obtain ⟨payloadLen, _, ran⟩ := run_bind_ok ran
  obtain ⟨optionsLen, _, ran⟩ := run_bind_ok ran
  have fields := tcpFieldsText_length p tcp payloadLen
  split at ran
  · rw [options, ok_bind] at ran
    cases outcome with
    | error e =>
      cases ran
      exact ⟨Nat.le_trans fields (by decide), short⟩
    | ok shown =>
      cases ran
      have bound := few shown rfl
      refine ⟨?_, short⟩
      show (tcpFieldsText p tcp payloadLen ++ '<' :: shown.text ++ ['>']).length ≤ 230
      simp only [List.length_append, List.length_cons, List.length_nil]
      omega
  · cases ran
    exact ⟨Nat.le_trans fields (by decide), .none⟩

end

theorem packetToString_length {encapHeaderToString : Packet → Nat → Run (List Char)} {p : Packet} (plain : PlainDump p)
    {printed : Printed} (ran : packetToString encapHeaderToString p = .ok printed) :
    printed.text.length ≤ 230 ∧ ShortError printed.error := by
  have none : List.range (packetHeaderCount p - 2) = [] := by
    rw [Nat.sub_eq_zero_of_le plain.headers]
    rfl
  unfold packetToString at ran
  rw [none] at ran
  obtain ⟨outer, empty, ran⟩ := run_bind_ok ran
  cases empty
  split at ran
  · cases ran
    exact ⟨by decide, .none⟩
  split at ran
  · rename_i isTcp
    obtain ⟨tcp, isTcp⟩ := Option.isSome_iff_exists.mp isTcp
    obtain ⟨shown, ran', returned⟩ := run_bind_ok ran
    cases returned
    exact tcpPacketToString_length plain isTcp ran'
  split at ran
  · obtain ⟨payloadLen, _, returned⟩ := run_bind_ok ran
    cases returned
    have length := decimalInt_length payloadLen
    have word : "udp (".toList.length = 5 := rfl
    refine ⟨?_, .none⟩
    simp only [List.reverse_nil, List.flatten_nil, List.nil_append, List.length_append, word, List.length_cons, List.length_nil]
    omega
  split at ran
  · cases ran
    exact ⟨by decide, .none⟩
  split at ran
  · cases ran
    exact ⟨by decide, .none⟩
  · cases ran
    exact ⟨by decide, .none⟩

theorem tcpFastOpenOptionToString_long {m : Mem} {option : Nat} (long : 2 < m.get8 (option + 1)) :
    ∃ text, tcpFastOpenOptionToString m option false = some text ∧ text.length + 1 = 2 * m.get8 (option + 1) := by
  refine ⟨_, rfl, ?_⟩
  have some : m.bytes (option + 2) (m.get8 (option + 1) - 2) ≠ [] := by
    intro none
    have length := congrArg List.length none
    rw [bytes_length, List.length_nil] at length
    omega
  have word : "FO".toList.length = 2 := rfl
  rw [dataText, if_neg some, List.length_append, List.length_cons, hexText_length, bytes_length, word]
  omega

theorem printOptions_fastOpen {m : Mem} {stop option : Nat} (inside : option + 1 < stop) (kind : m.get8 option = tcpoptFastopen)
    (outside : stop ≤ option + m.get8 (option + 1)) (long : 2 < m.get8 (option + 1)) :
    ∃ printed, printOptions m stop ⟨[], none⟩ [] option = .ok printed ∧ printed.text.length + 1 = 2 * m.get8 (option + 1) := by
  obtain ⟨text, shown, length⟩ := tcpFastOpenOptionToString_long long
  have here : tcpOptionToString m option = .ok (text, none) := by
    unfold tcpOptionToString
    rw [kind, shown]
    rfl
  have last : (tcpOptionsNext m stop option).1 = none := by
    rw [tcpOptionsNext_eq, kind, if_neg (by decide), if_neg (by omega), getCurrentOption, if_pos outside]
  refine ⟨Printed.add ⟨[], none⟩ m stop option [] text none, ?_, length⟩
  rw [printOptions_inside _ _ (by omega), here]
  simp only [last]

theorem packetToString_options (encapHeaderToString : Packet → Nat → Run (List Char)) {p : Packet} {outer inner : Header}
    {start ip tcp : Nat} {options : Printed} (layout : Layout p [outer, inner]) (first : outer.ptr = some start)
    (ipv4 : p.ipv4 = some ip) (isTcp : p.tcp = some tcp) (doff : 5 < tcpDoff p.buffer tcp)
    (shown : printOptions p.buffer (optionsEnd p.buffer tcp) ⟨[], none⟩ [] (tcp + 20) = .ok options) :
    ∃ fields, packetToString encapHeaderToString p = .ok ⟨fields ++ '<' :: options.text ++ ['>'], options.error⟩ := by
  have none : List.range (packetHeaderCount p - 2) = [] := by
    rw [layout.count]
    rfl
  have begins : packetStart p = .ok start := by
    rw [layout.packetStart, first]
    rfl
  have printed : tcpOptionsToString p = .ok (.ok options) := by
    rw [tcpOptionsToString, tcpOptionsBegin_eq isTcp]
    exact congrArg Except.ok shown
  have payload : packetPayloadLen p = .ok ((start + p.ipBytes : Nat) - (tcp + tcpDoff p.buffer tcp * 4 : Nat)) := by
    simp only [packetPayloadLen, packetEnd, packetPayload, begins, isTcp, ok_bind, run_pure]
  have some : 0 < (tcpDoff p.buffer tcp * 4 : Nat) - (20 : Int) := by omega
  have optionsLen : packetTcpOptionsLen p = .ok ((tcpDoff p.buffer tcp * 4 : Nat) - 20) := by
    simp only [packetTcpOptionsLen, packetTcpHeaderLen, isTcp, requirePtr, ok_bind, run_pure]
  refine ⟨tcpFieldsText p tcp ((start + p.ipBytes : Nat) - (tcp + tcpDoff p.buffer tcp * 4 : Nat)), ?_⟩
  unfold packetToString tcpPacketToString
  simp only [none, payload, optionsLen, printed, ok_bind, if_pos some, ipv4, isTcp]
  rfl

theorem packetToString_fastOpen (encapHeaderToString : Packet → Nat → Run (List Char)) {p : Packet} {outer inner : Header}
    {start ip tcp : Nat} (layout : Layout p [outer, inner]) (first : outer.ptr = some start) (ipv4 : p.ipv4 = some ip)
    (isTcp : p.tcp = some tcp) (doff : 5 < tcpDoff p.buffer tcp) (kind : p.buffer.get8 (tcp + 20) = tcpoptFastopen)
    (outside : tcpDoff p.buffer tcp * 4 ≤ 20 + p.buffer.get8 (tcp + 21)) (long : 2 < p.buffer.get8 (tcp + 21)) :
    ∃ printed, packetToString encapHeaderToString p = .ok printed ∧ 2 * p.buffer.get8 (tcp + 21) < printed.text.length := by
  have inside : tcp + 20 + 1 < optionsEnd p.buffer tcp := by
    unfold optionsEnd
    omega
  have ends : optionsEnd p.buffer tcp ≤ tcp + 20 + p.buffer.get8 (tcp + 21) := by
    unfold optionsEnd
    omega
  obtain ⟨options, shown, length⟩ := printOptions_fastOpen inside kind ends long
  obtain ⟨fields, printed⟩ := packetToString_options encapHeaderToString layout first ipv4 isTcp doff shown
  refine ⟨_, printed, ?_⟩
  have length : options.text.length + 1 = 2 * p.buffer.get8 (tcp + 21) := length
  simp only [List.length_append, List.length_cons, List.length_nil]
  omega

end TcpFuzz
