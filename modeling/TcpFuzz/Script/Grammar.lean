import TcpFuzz.Packet.Encapsulate
import TcpFuzz.Packet.Icmp
import TcpFuzz.Script.Lexer
import TcpFuzz.Script.TcpOption

/-! The productions of `parser.y` for a TCP packet without encapsulation headers, one function per nonterminal. The
next token decides whether an optional part is read. -/

namespace TcpFuzz
open Bytes

inductive Reject where
  | syntaxError
  | semanticError (message : String)
  | fault (f : Fault)
deriving DecidableEq, Repr

abbrev Parse (α : Type) := List Token → Except Reject (α × List Token)

def clampS64 (n : Int) : Int := max (-2 ^ 63) (min n (2 ^ 63 - 1))

def atoll (text : List Char) : Int :=
  match text with
  | '-' :: ds => clampS64 (-(Nat.ofDigitChars 10 ds 0 : Int))
  | ds => clampS64 (Nat.ofDigitChars 10 ds 0)

def hextol (text : List Char) : Int :=
  clampS64 ((text.drop 2).foldl (fun n c => n * 16 + (hexValue c).getD 0) 0 : Nat)

/-- `atof` of a `FLOAT` is negative; at most half of the smallest number is rounded to zero. -/
def atofNegative : List Char → Bool
  | '-' :: text =>
    let whole := text.takeWhile (· ≠ '.')
    let fraction := text.drop (whole.length + 1)
    10 ^ fraction.length < Nat.ofDigitChars 10 (whole ++ fraction) 0 * 2 ^ 1075
  | _ => false

def isValidU20 (x : Int) : Prop := 0 ≤ x ∧ x ≤ 0xfffff

instance (x : Int) : Decidable (isValidU20 x) := inferInstanceAs (Decidable (_ ∧ _))

def check (valid : Prop) [Decidable valid] (message : String) : Except Reject Unit :=
  if valid then .ok () else .error (.semanticError message)

def semantic {α : Type} : Except String α → Except Reject α
  | .ok a => .ok a
  | .error e => .error (.semanticError e)

def unlessFault {α : Type} : Run α → Except Reject α
  | .ok a => .ok a
  | .error f => .error (.fault f)

namespace Grammar

def direction : Parse { d : Direction // d ≠ .invalid }
  | .char '<' :: ts => .ok (⟨.inbound, by decide⟩, ts)
  | .char '>' :: ts => .ok (⟨.outbound, by decide⟩, ts)
  | _ => .error .syntaxError

def ipEcn : Keyword → Option EcnKeyword
  | .noEcn => some .noEcn
  | .ect0 => some .ect0
  | .ect1 => some .ect1
  | .ect01 => some .ect01
  | .ce => some .ce
  | _ => none

def flowLabel : Parse UInt32
  | .keyword .flowlabel :: .hexInteger text :: ts => do
    check (isValidU20 (hextol text)) "flowlabel out of range for 20 bits"
    return (UInt32.ofNat (hextol text).toNat, ts)
  | _ => .error .syntaxError

def tosSpec : Parse TosSpec
  | .keyword .tos :: .hexInteger text :: ts => do
    check (isValidU8 (hextol text)) "tos out of range for 8 bits"
    return (⟨.tos, UInt8.ofNat (hextol text).toNat⟩, ts)
  | .keyword k :: ts =>
    match ipEcn k with
    | some ecn => .ok (ecn.tosSpec, ts)
    | none => .error .syntaxError
  | _ => .error .syntaxError

def noTos : TosSpec := ⟨.none, 0⟩

def ipInfo : Parse IpInfo
  | .keyword .ttl :: .integer text :: ts => .ok (⟨noTos, 0, UInt8.ofNat (atoll text % 256).toNat⟩, ts)
  | .keyword .flowlabel :: ts => do
    let (label, ts) ← flowLabel (.keyword .flowlabel :: ts)
    return (⟨noTos, label, 0⟩, ts)
  | ts => do
    let (tos, ts) ← tosSpec ts
    match ts with
    | .char ',' :: ts =>
      let (label, ts) ← flowLabel ts
      return (⟨tos, label, 0⟩, ts)
    | ts => return (⟨tos, 0, 0⟩, ts)

def noIpInfo : IpInfo := ⟨noTos, 0, 0⟩

def closing (c : Char) {α : Type} (a : α) : Parse α
  | .char d :: ts => if d = c then .ok (a, ts) else .error .syntaxError
  | _ => .error .syntaxError

def optIpInfo : Parse IpInfo
  | .char '(' :: ts => do
    let (info, ts) ← ipInfo ts
    closing ')' info ts
  | .char '[' :: ts => do
    let (info, ts) ← ipInfo ts
    closing ']' info ts
  | ts => .ok (noIpInfo, ts)

def optPortInfo : Parse (UInt16 × UInt16)
  | .integer src :: .char '>' :: .integer dst :: ts => do
    check (isValidU16 (atoll src)) "src port out of range"
    check (isValidU16 (atoll dst)) "dst port out of range"
    return ((UInt16.ofNat (atoll src).toNat, UInt16.ofNat (atoll dst).toNat), ts)
  | .integer _ :: _ => .error .syntaxError
  | ts => .ok ((0, 0), ts)

def flags : Parse (List Char)
  | .word w :: .char '.' :: ts => .ok (w ++ ['.'], ts)
  | .word w :: ts => .ok (w, ts)
  | .char '.' :: ts => .ok (['.'], ts)
  | .char '-' :: ts => .ok ([], ts)
  | _ => .error .syntaxError

end Grammar

/-- A sequence range: its end is a sequence number as well. -/
structure TcpSequenceInfo where
  startSequence : UInt32
  payloadBytes : UInt16
  inRange : startSequence.toNat + payloadBytes.toNat < 2 ^ 32

namespace Grammar

theorem seq_inRange {a b c : Int} (start : isValidU32 a) (stop : isValidU32 b) (size : isValidU16 c) (sum : b = a + c) :
    (UInt32.ofNat a.toNat).toNat + (UInt16.ofNat c.toNat).toNat < 2 ^ 32 := by
  unfold isValidU32 isValidU16 at *
  rw [UInt32.toNat_ofNat_of_lt' (by show a.toNat < 4294967296; omega),
    UInt16.toNat_ofNat_of_lt' (by show c.toNat < 65536; omega)]
  omega

def seq : Parse TcpSequenceInfo
  | .integer start :: .char ':' :: .integer stop :: .char '(' :: .integer size :: .char ')' :: ts =>
    if first : ¬isValidU32 (atoll start) then
      .error (.semanticError "TCP start sequence number out of range")
    else if last : ¬isValidU32 (atoll stop) then
      .error (.semanticError "TCP end sequence number out of range")
    else if bytes : ¬isValidU16 (atoll size) then
      .error (.semanticError "TCP payload size out of range")
    else if sum : atoll stop ≠ atoll start + atoll size then
      .error (.semanticError "inconsistent TCP sequence numbers and payload size")
    else
      .ok (⟨UInt32.ofNat (atoll start).toNat, UInt16.ofNat (atoll size).toNat,
        seq_inRange (not_not.mp first) (not_not.mp last) (not_not.mp bytes) (not_not.mp sum)⟩, ts)
  | _ => .error .syntaxError

def optField (k : Keyword) (valid : Int → Prop) [DecidablePred valid] (message : String) : Parse (Option Nat)
  | .keyword k' :: ts =>
    if k' = k then
      match ts with
      | .integer text :: ts => do
        check (valid (atoll text)) message
        return (some (atoll text).toNat, ts)
      | _ => .error .syntaxError
    else .ok (none, .keyword k' :: ts)
  | ts => .ok (none, ts)

def optAck : Parse (Option Nat) := optField .ack isValidU32 "TCP ack sequence number out of range"

def optWindow : Parse (Option Nat) := optField .win isValidU16 "TCP window value out of range"

def optUrgPtr : Parse (Option Nat) := optField .urg isValidU16 "urg_ptr value out of range"

def hexBlob : Parse (List Char)
  | .word text :: ts | .integer text :: ts => .ok (text, ts)
  | _ => .error .syntaxError

def optTcpFastOpenCookie : Parse (List Char)
  | .word text :: ts | .integer text :: ts => .ok (text, ts)
  | ts => .ok ([], ts)

def sackBlocks : Parse (List SackBlock)
  | .integer left :: .char ':' :: .integer right :: ts => do
    check (isValidU32 (atoll left)) "TCP SACK left sequence number out of range"
    check (isValidU32 (atoll right)) "TCP SACK right sequence number out of range"
    let (blocks, ts) ← sackBlocks ts
    return (⟨UInt32.ofNat (atoll left).toNat, UInt32.ofNat (atoll right).toNat⟩ :: blocks, ts)
  | .integer _ :: _ => .error .syntaxError
  | ts => .ok ([], ts)

/-- A fifth block makes the option too long for a list, and a sixth is stored behind the end of the option record. -/
def sackBlockList : Parse TcpOption := fun ts => do
  let (blocks, ts) ← sackBlocks ts
  match blocks with
  | [] => .error .syntaxError
  | block :: more =>
    if room : more.length < 4 then return (.sack block more room, ts)
    else if more.length = 4 then .error (.semanticError "TCP option list too long")
    else .error (.fault .invalidAccess)

def tcpOption : Parse TcpOption
  | .keyword .nop :: ts => .ok (.nop, ts)
  | .keyword .eol :: ts => .ok (.eol, ts)
  | .keyword .mss :: .integer text :: ts => do
    check (isValidU16 (atoll text)) "mss value out of range"
    return (.mss (UInt16.ofNat (atoll text).toNat), ts)
  | .keyword .wscale :: .integer text :: ts => do
    check (isValidU8 (atoll text)) "window scale shift count out of range"
    return (.wscale (UInt8.ofNat (atoll text).toNat), ts)
  | .keyword .sackok :: ts => .ok (.sackOk, ts)
  | .keyword .sack :: ts => sackBlockList ts
  | .keyword .md5 :: ts => do
    let (digest, ts) ← hexBlob ts
    return (← semantic (newMd5Option digest), ts)
  | .keyword .timestamp :: .keyword .val :: .integer val :: .keyword .ecr :: .integer ecr :: ts => do
    check (isValidU32 (atoll val)) "ts val out of range"
    check (isValidU32 (atoll ecr)) "ecr val out of range"
    return (.timestamp (UInt32.ofNat (atoll val).toNat) (UInt32.ofNat (atoll ecr).toNat), ts)
  | .keyword .fastOpen :: ts => do
    let (cookie, ts) ← optTcpFastOpenCookie ts
    return (← semantic (newTcpFastOpenOption cookie false), ts)
  | .keyword .fastOpenExp :: ts => do
    let (cookie, ts) ← optTcpFastOpenCookie ts
    return (← semantic (newTcpFastOpenOption cookie true), ts)
  | _ => .error .syntaxError

/-- Append an option and, as long as commas follow, the next ones; each option takes at least one
token, so that their number bounds the list. -/
def tcpOptionList : Nat → TcpOptions → Parse TcpOptions
  | 0, _, _ => .error (.fault .outOfFuel)
  | n + 1, options, ts => do
    let (option, ts) ← tcpOption ts
    match tcpOptionsAppend options option with
    | none => .error (.semanticError "TCP option list too long")
    | some options =>
      match ts with
      | .char ',' :: ts => tcpOptionList n options ts
      | ts => return (options, ts)

/-- No options stand for the empty list, and an ellipsis for options that are not checked. -/
def optTcpOptions : Parse (Option TcpOptions)
  | .char '<' :: .ellipsis :: ts => closing '>' none ts
  | .char '<' :: ts => do
    let (options, ts) ← tcpOptionList (ts.length + 1) tcpOptionsNew ts
    closing '>' (some options) ts
  | ts => .ok (some tcpOptionsNew, ts)

end Grammar

structure TcpSpec where
  direction : { d : Direction // d ≠ .invalid }
  ipInfo : IpInfo
  ports : UInt16 × UInt16
  flags : List Char
  seq : TcpSequenceInfo
  ack : Option UInt32
  window : Option UInt16
  urgPtr : Option UInt16
  options : Option TcpOptions

namespace TcpSpec

/-- The arguments of `new_tcp_packet`, with the defaults of the parts that were left out. -/
def args (family : AddressFamily) (spec : TcpSpec) : TcpArgs where
  family := family
  direction := spec.direction.val
  ipInfo := spec.ipInfo
  srcPort := spec.ports.1
  dstPort := spec.ports.2
  flags := spec.flags
  startSequence := spec.seq.startSequence
  tcpPayloadBytes := spec.seq.payloadBytes
  ackSequence := spec.ack.getD 0
  window := match spec.window with
    | none => -1
    | some window => Int32.ofNat window.toNat
  urgPtr := spec.urgPtr.getD 0
  tcpOptions := spec.options.map TcpOptions.data

end TcpSpec

def Grammar.tcpPacketSpec : Parse TcpSpec := fun ts => do
  let (direction, ts) ← direction ts
  let (ipInfo, ts) ← optIpInfo ts
  let (ports, ts) ← optPortInfo ts
  let (flags, ts) ← flags ts
  let (seq, ts) ← seq ts
  let (ack, ts) ← optAck ts
  let (window, ts) ← optWindow ts
  let (urgPtr, ts) ← optUrgPtr ts
  let (options, ts) ← optTcpOptions ts
  return (⟨direction, ipInfo, ports, flags, seq, ack.map UInt32.ofNat, window.map UInt16.ofNat,
    urgPtr.map UInt16.ofNat, options⟩, ts)

/-- What the allocator returns for the three packets that a specification takes. -/
structure Allocated where
  outer : Mem
  inner : Mem
  result : Mem

def packetMaxHeaderBytes : Nat := 256

/-- The packet of a specification: built, and put behind a prefix without headers. -/
def TcpSpec.packet (family : AddressFamily) (memory : Allocated) (spec : TcpSpec) : Except Reject Packet := do
  check (¬(spec.ipInfo.tos = EcnKeyword.ect01.tosSpec ∧ spec.direction.val ≠ .outbound))
    "[ect01] can only be used with outbound packets"
  check (¬(spec.options.isNone ∧ spec.direction.val ≠ .outbound))
    "<...> for TCP options can only be used with outbound packets"
  let inner ← semantic (← unlessFault (newTcpPacket memory.inner (spec.args family)))
  let outer := { packetNew memory.outer packetMaxHeaderBytes with direction := spec.direction.val }
  unlessFault (packetEncapsulate memory.result outer inner)

structure ScriptConfig where
  wireProtocol : AddressFamily
  defines : Defines

def Grammar.time : Parse Unit
  | .float text :: ts => do
    check (¬atofNegative text) "negative time"
    return ((), ts)
  | .integer text :: ts => do
    check (¬atoll text < 0) "negative time"
    return ((), ts)
  | _ => .error .syntaxError

def Grammar.relativeEvent (config : ScriptConfig) (memory : Allocated) : Parse Packet
  | .char '+' :: ts => do
    let (_, ts) ← time ts
    let (spec, ts) ← tcpPacketSpec ts
    return (← spec.packet config.wireProtocol memory, ts)
  | _ => .error .syntaxError

def parseScript (config : ScriptConfig) (memory : Allocated) (text : List Char) : Except Reject Packet := do
  let (p, ts) ← Grammar.relativeEvent config memory (lex config.defines text)
  match ts with
  | [] => return p
  | _ => .error .syntaxError

end TcpFuzz
