import TcpFuzz.Packet.Encapsulate
import TcpFuzz.Tcp.Options

/-! `packet_to_string.c` in its short format and `tcp_options_to_string.c`. An error that does not stop the printing
is left next to the text. -/

namespace TcpFuzz
open Bytes Mem

def decimal (n : Nat) : List Char := Nat.toDigits 10 n

def decimalInt (n : Int) : List Char := decimal (n % 2 ^ 32).toNat

def hexText (bytes : List UInt8) : List Char :=
  bytes.flatMap fun b => [Nat.digitChar (b.toNat / 16), Nat.digitChar (b.toNat % 16)]

def dataText (name : String) (data : List UInt8) : List Char :=
  name.toList ++ if data = [] then [] else ' ' :: hexText data

def tcpMd5OptionToString (m : Mem) (option : Nat) : List Char :=
  let length := m.get8 (option + 1)
  if length < 2 ∨ 18 < length then [] else dataText "md5" (m.bytes (option + 2) (length - 2))

def tcpFastOpenOptionToString (m : Mem) (option : Nat) (exp : Bool) : Option (List Char) :=
  let length := m.get8 (option + 1)
  match exp with
  | true =>
    if length < 4 ∨ m.be16 (option + 2) ≠ 0xf989 then none
    else some (dataText "FOEXP" (m.bytes (option + 4) (length - 4)))
  | false => some (dataText "FO" (m.bytes (option + 2) (length - 2)))

def sackBlockText (m : Mem) (block : Nat) : List Char := decimal (m.be32 block) ++ ':' :: decimal (m.be32 (block + 4))

def tcpOptionToString (m : Mem) (option : Nat) : Except String (List Char × Option String) :=
  let kind := m.get8 option
  if kind = tcpoptEol then .ok ("eol".toList, none)
  else if kind = tcpoptNop then .ok ("nop".toList, none)
  else if kind = tcpoptMaxseg then .ok ("mss ".toList ++ decimal (m.be16 (option + 2)), none)
  else if kind = tcpoptWindow then .ok ("wscale ".toList ++ decimal (m.get8 (option + 2)), none)
  else if kind = tcpoptSackPermitted then .ok ("sackOK".toList, none)
  else if kind = tcpoptSack then
    match numSackBlocks (m.get8 (option + 1)) with
    | .error e => .error e
    | .ok n =>
      let blocks := (List.range n).map fun i => sackBlockText m (option + 2 + 8 * i)
      let error := if (m.get8 (option + 1) - 2) % 8 = 0 then none
        else some "TCP SACK option not a multiple of SACK block size"
      .ok ("sack ".toList ++ [' '].intercalate blocks, error)
  else if kind = tcpoptTimestamp then
    .ok ("TS val ".toList ++ decimal (m.be32 (option + 2)) ++ " ecr ".toList ++ decimal (m.be32 (option + 6)), none)
  else if kind = tcpoptMd5sig then .ok (tcpMd5OptionToString m option, none)
  else if kind = tcpoptFastopen then .ok ((tcpFastOpenOptionToString m option false).getD [], none)
  else if kind = tcpoptExp then
    match tcpFastOpenOptionToString m option true with
    | none => .error "unknown experimental option"
    | some text => .ok (text, none)
  else .ok ([], some ("unexpected TCP option kind: " ++ toString kind))

structure Printed where
  text : List Char
  error : Option String
deriving DecidableEq, Repr

def printOptions (m : Mem) (stop : Nat) (printed : Printed) (comma : List Char) (option : Nat) :
    Except String Printed :=
  if option < stop then
    match tcpOptionToString m option with
    | .error e => .error e
    | .ok (text, error) =>
      let printed := ⟨printed.text ++ comma ++ text,
        (tcpOptionsNext m stop option).2 <|> error <|> printed.error⟩
      match _found : (tcpOptionsNext m stop option).1 with
      | none => .ok printed
      | some next => printOptions m stop printed [','] next
  else .ok printed
termination_by stop - option
decreasing_by
  have := tcpOptionsNext_bounds _found
  omega

def tcpOptionsToString (p : Packet) : Run (Except String Printed) := do
  let (option, stop) ← tcpOptionsBegin p
  return printOptions p.buffer stop ⟨[], none⟩ [] option

/-- The flag characters with their bits, in the order in which they are printed. -/
def printedFlags : List (Nat × Char) :=
  [(1, 'F'), (2, 'S'), (4, 'R'), (8, 'P'), (16, '.'), (32, 'U'), (64, 'E'), (128, 'W')]

def tcpFlagsText (byte : Nat) : List Char :=
  (printedFlags.filter fun flag => byte / flag.1 % 2 = 1).map Prod.snd

def tcpPacketToString (p : Packet) : Run Printed := do
  let tcp ← deref p.tcp
  let flags := p.buffer.get8 (tcp + 13)
  let payloadLen ← packetPayloadLen p
  let text := tcpFlagsText flags ++ ' ' :: decimal (p.buffer.be32 (tcp + 4)) ++
    ':' :: decimalInt (p.buffer.be32 (tcp + 4) + payloadLen) ++ '(' :: decimalInt payloadLen ++ [')', ' ']
  let text := text ++ if flags / 16 % 2 = 1 then "ack ".toList ++ decimal (p.buffer.be32 (tcp + 8)) ++ [' '] else []
  let text := text ++ if p.flags.winNocheck then [] else "win ".toList ++ decimal (p.buffer.be16 (tcp + 14)) ++ [' ']
  if 0 < (← packetTcpOptionsLen p) then
    match ← tcpOptionsToString p with
    | .error e => return ⟨text, some e⟩
    | .ok options => return ⟨text ++ '<' :: options.text ++ ['>'], options.error⟩
  else return ⟨text, none⟩

/-- A packet in the short format; `encapHeaderToString` prints the header at an index of the table. -/
def packetToString (encapHeaderToString : Packet → Nat → Run (List Char)) (p : Packet) : Run Printed := do
  let outer ← (List.range (packetHeaderCount p - 2)).mapM (encapHeaderToString p)
  if p.ipv4 = none ∧ p.ipv6 = none then
    return ⟨outer.flatten ++ "[NO IP HEADER]".toList, none⟩
  if p.tcp.isSome then
    let printed ← tcpPacketToString p
    return ⟨outer.flatten ++ printed.text, printed.error⟩
  if p.udp.isSome then
    return ⟨outer.flatten ++ "udp (".toList ++ decimalInt (← packetPayloadLen p) ++ [')'], none⟩
  if p.icmpv4.isSome then
    return ⟨outer.flatten ++ "icmpv4".toList, none⟩
  if p.icmpv6.isSome then
    return ⟨outer.flatten ++ "icmpv6".toList, none⟩
  return ⟨outer.flatten ++ "[NO TCP OR ICMP HEADER]".toList, none⟩

end TcpFuzz
