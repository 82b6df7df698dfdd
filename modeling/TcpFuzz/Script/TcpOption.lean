import TcpFuzz.Script.Expression
import TcpFuzz.Tcp.Options

/-! The options that the grammar builds, and the list of them that `tcp_options.c` keeps within the options area. -/

namespace TcpFuzz
open Bytes Bytes.Mem

structure SackBlock where
  left : UInt32
  right : UInt32
deriving DecidableEq, Repr

def tcpMd5DigestLen : Nat := 16
def maxTcpOptionBytes : Nat := 40

def maxCookieBytes (exp : Bool) : Nat := maxTcpOptionBytes - if exp then 4 else 2

/-- An option with its data; a SACK option has one to four blocks. -/
inductive TcpOption where
  | nop
  | eol
  | mss (bytes : UInt16)
  | wscale (shiftCount : UInt8)
  | sackOk
  | sack (block : SackBlock) (more : List SackBlock) (room : more.length < 4)
  | md5 (digest : List UInt8) (fits : digest.length ≤ tcpMd5DigestLen)
  | timestamp (val ecr : UInt32)
  | fastOpen (exp : Bool) (cookie : List UInt8) (fits : cookie.length ≤ maxCookieBytes exp)
deriving Repr

def SackBlock.bytes (b : SackBlock) : List UInt8 := be32Bytes b.left ++ be32Bytes b.right

def withLength (kind : Nat) (data : List UInt8) : List UInt8 :=
  UInt8.ofNat kind :: UInt8.ofNat (2 + data.length) :: data

def TcpOption.bytes : TcpOption → List UInt8
  | .nop => [UInt8.ofNat tcpoptNop]
  | .eol => [UInt8.ofNat tcpoptEol]
  | .mss bytes => withLength tcpoptMaxseg (be16Bytes bytes)
  | .wscale shiftCount => withLength tcpoptWindow [shiftCount]
  | .sackOk => withLength tcpoptSackPermitted []
  | .sack block more _ => withLength tcpoptSack ((block :: more).flatMap SackBlock.bytes)
  | .md5 digest _ => withLength tcpoptMd5sig digest
  | .timestamp val ecr => withLength tcpoptTimestamp (be32Bytes val ++ be32Bytes ecr)
  | .fastOpen false cookie _ => withLength tcpoptFastopen cookie
  | .fastOpen true cookie _ => withLength tcpoptExp (be16Bytes 0xf989 ++ cookie)

structure TcpOptions where
  options : List TcpOption
  fits : (options.flatMap TcpOption.bytes).length ≤ maxTcpOptionBytes

def TcpOptions.data (os : TcpOptions) : List UInt8 := os.options.flatMap TcpOption.bytes

def tcpOptionsNew : TcpOptions := ⟨[], by decide⟩

def tcpOptionsAppend (os : TcpOptions) (o : TcpOption) : Option TcpOptions :=
  if room : os.data.length + o.bytes.length ≤ maxTcpOptionBytes then
    some ⟨os.options ++ [o], by rw [List.flatMap_append, List.length_append]; simpa [TcpOptions.data] using room⟩
  else none

def parseHexByte (high low : Char) : Option UInt8 := do
  let high ← hexValue high
  let low ← hexValue low
  return UInt8.ofNat (high * 16 + low)

/-- The bytes of a string of digit pairs that fill at most `bufLen` bytes. -/
def parseHexString : Nat → List Char → Option (List UInt8)
  | _, [] => some []
  | 0, _ => none
  | _, [_] => none
  | bufLen + 1, high :: low :: hex => do
    let byte ← parseHexByte high low
    let rest ← parseHexString bufLen hex
    return byte :: rest

theorem parseHexString_length {bufLen : Nat} {hex : List Char} {bytes : List UInt8}
    (parsed : parseHexString bufLen hex = some bytes) : bytes.length ≤ bufLen ∧ hex.length = 2 * bytes.length := by
  fun_induction parseHexString bufLen hex generalizing bytes with
  | case1 => cases parsed; simp
  | case2 => cases parsed
  | case3 => cases parsed
  | case4 bufLen high low hex ih =>
    obtain ⟨byte, _, parsed⟩ := Option.bind_eq_some_iff.mp parsed
    obtain ⟨rest, found, parsed⟩ := Option.bind_eq_some_iff.mp parsed
    cases parsed
    obtain ⟨short, double⟩ := ih found
    simp only [List.length_cons]
    omega

def newMd5Option (digestString : List Char) : Except String TcpOption :=
  if tcpMd5DigestLen < digestString.length / 2 then .error "TCP MD5 digest longer than 16 bytes"
  else
    match parsed : parseHexString tcpMd5DigestLen digestString with
    | none => .error "TCP MD5 digest is not a valid hex string"
    | some digest => .ok (.md5 digest (parseHexString_length parsed).1)

def newTcpFastOpenOption (cookieString : List Char) (exp : Bool) : Except String TcpOption :=
  if cookieString.length % 2 ≠ 0 then .error "TCP fast open cookie has an odd number of digits"
  else if maxCookieBytes exp < cookieString.length / 2 then
    .error ("TCP fast open cookie of " ++ toString (cookieString.length / 2) ++
      " bytes exceeds maximum cookie length of " ++ toString (maxCookieBytes exp) ++ " bytes")
  else
    match parsed : parseHexString (maxCookieBytes exp) cookieString with
    | none => .error ("TCP fast open cookie '" ++ String.ofList cookieString ++ "' is not a valid hex string")
    | some cookie => .ok (.fastOpen exp cookie (parseHexString_length parsed).1)

end TcpFuzz
