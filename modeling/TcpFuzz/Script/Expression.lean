import TcpFuzz.Packet.Fields

/-! The expressions of a system call and their evaluation by `script.c`. The grammar fills every field of a compound
expression, so the fields below are never missing. -/

namespace TcpFuzz

inductive ExpressionType where
  | ellipsis | integer | linger | word | string | gre | in6Addr | socketAddressIpv4 | socketAddressIpv6 | binary | list
  | iovec | msghdr | cmsg | pollfd | mplsStack | scmTimestamping | sockExtendedErr | epollev
deriving DecidableEq, Repr

inductive EpollDataType where
  | ptr | fd | u32 | u64
deriving DecidableEq, Repr

/-- A script expression; characters of its strings stand for bytes. -/
inductive Expression where
  | ellipsis
  | integer (num : Int)
  | linger (onoff linger : Int)
  | word (string : String)
  | string (string : String)
  | gre (header : Vector UInt8 16)
  | in6Addr (addressIpv6 : Vector UInt8 16)
  | socketAddressIpv4 (port : UInt16) (address : Vector UInt8 4)
  | socketAddressIpv6 (port : UInt16) (address : Vector UInt8 16)
  | binary (op : String) (lhs rhs : Expression)
  | list (list : List Expression)
  | iovec (iovBase iovLen : Expression)
  | msghdr (msgName msgNamelen msgIov msgIovlen msgControl msgFlags : Expression)
  | cmsg (cmsgLevel cmsgType cmsgData : Expression)
  | pollfd (fd events revents : Expression)
  | mplsStack (entries : List UInt32)
  | scmTimestamping (sec nsec : Int)
  | sockExtendedErr (eeErrno eeOrigin eeType eeCode eeInfo eeData : Expression)
  | epollev (events : Expression) (kind : EpollDataType) (data : Expression)

namespace Expression

def type : Expression → ExpressionType
  | ellipsis => .ellipsis
  | integer _ => .integer
  | linger _ _ => .linger
  | word _ => .word
  | string _ => .string
  | gre _ => .gre
  | in6Addr _ => .in6Addr
  | socketAddressIpv4 _ _ => .socketAddressIpv4
  | socketAddressIpv6 _ _ => .socketAddressIpv6
  | binary _ _ _ => .binary
  | list _ => .list
  | iovec _ _ => .iovec
  | msghdr _ _ _ _ _ _ => .msghdr
  | cmsg _ _ _ => .cmsg
  | pollfd _ _ _ => .pollfd
  | mplsStack _ => .mplsStack
  | scmTimestamping _ _ => .scmTimestamping
  | sockExtendedErr _ _ _ _ _ _ => .sockExtendedErr
  | epollev _ _ _ => .epollev

end Expression

def expressionTypeToString : ExpressionType → String
  | .ellipsis => "ellipsis"
  | .integer => "integer"
  | .word => "word"
  | .string => "string"
  | .gre => "gre"
  | .in6Addr => "in6_addr"
  | .socketAddressIpv4 => "sockaddr_in"
  | .socketAddressIpv6 => "sockaddr_in6"
  | .linger => "linger"
  | .binary => "binary_expression"
  | .list => "list"
  | .iovec => "iovec"
  | .msghdr => "msghdr"
  | .cmsg => "cmsg"
  | .pollfd => "pollfd"
  | .mplsStack => "mpls_stack"
  | .scmTimestamping => "scm_timestamping"
  | .sockExtendedErr => "sock_extended_err"
  | .epollev => "epollev"

def crossPlatformSymbols : List (String × Int) :=
  [("AF_INET", 2), ("AF_INET6", 10), ("PF_INET", 2), ("PF_INET6", 10), ("SOCK_STREAM", 1), ("SOCK_DGRAM", 2),
    ("SOCK_NONBLOCK", 2048), ("IPPROTO_IP", 0), ("IPPROTO_IPV6", 41), ("IPPROTO_ICMP", 1), ("IPPROTO_ICMPV6", 58),
    ("IPPROTO_TCP", 6), ("IPPROTO_UDP", 17), ("SHUT_RD", 0), ("SHUT_WR", 1), ("SHUT_RDWR", 2), ("SOL_SOCKET", 1), ("NULL", 0)]

def lookupIntSymbol (symbols : List (String × Int)) (symbol : String) : Option Int := symbols.lookup symbol

/-- The platform's own symbols take their values from its header files. -/
def symbolToInt (platformSymbols : List (String × Int)) (symbol : String) : Except String Int :=
  match lookupIntSymbol crossPlatformSymbols symbol with
  | some value => .ok value
  | none =>
    match lookupIntSymbol platformSymbols symbol with
    | some value => .ok value
    | none => .error ("unknown symbol: '" ++ symbol ++ "'")

def hexValue (c : Char) : Option Nat :=
  if c.isDigit then some (c.toNat - '0'.toNat)
  else if 'a' ≤ c ∧ c ≤ 'f' then some (c.toNat - 'a'.toNat + 10)
  else if 'A' ≤ c ∧ c ≤ 'F' then some (c.toNat - 'A'.toNat + 10)
  else none

/-- `strtol` in base 16, where it takes in both characters: it skips blanks and reads a sign. -/
def strtol16 (c d : Char) : Option Char :=
  match hexValue d with
  | none => none
  | some low =>
    match hexValue c with
    | some high => some (Char.ofNat (16 * high + low))
    | none =>
      if c ∈ [' ', '\t', '\n', '\r', Char.ofNat 11, Char.ofNat 12, '+'] then some (Char.ofNat low)
      else if c = '-' then some (Char.ofNat ((256 - low) % 256))
      else none

/-- The cases of a backslash and of a quote fall through to that of a form feed. -/
def unescapeCstring : List Char → Except String (List Char)
  | [] => .ok []
  | '\\' :: rest =>
    match rest with
    | 'x' :: rest =>
      let invalid := Except.error ("invalid hex escape (\\xhh): '\\x" ++ String.ofList rest ++ "'")
      match rest with
      | c :: d :: rest =>
        match strtol16 c d with
        | some byte => (byte :: ·) <$> unescapeCstring rest
        | none => invalid
      | _ => invalid
    | c :: rest =>
      if c ∈ ['\\', '"', 'f'] then (Char.ofNat 12 :: ·) <$> unescapeCstring rest
      else if c = 'n' then ('\n' :: ·) <$> unescapeCstring rest
      else if c = 'r' then ('\r' :: ·) <$> unescapeCstring rest
      else if c = 't' then ('\t' :: ·) <$> unescapeCstring rest
      else if c = 'v' then (Char.ofNat 11 :: ·) <$> unescapeCstring rest
      else .error ("unsupported escape code: '" ++ String.singleton c ++ "'")
    | [] => .error ("unsupported escape code: '" ++ String.singleton (Char.ofNat 0) ++ "'")
  | c :: rest => (c :: ·) <$> unescapeCstring rest

def copyGre (header : Vector UInt8 16) (bytes : Nat) : Vector UInt8 16 :=
  header.mapIdx fun i byte => if i < bytes then byte else 0

def orS64 (a b : Int) : Int := (BitVec.ofInt 64 a ||| BitVec.ofInt 64 b).toInt

def evaluateBinaryExpression (op : String) (lhs rhs : Expression) : Check Expression :=
  if op = "|" then
    match lhs, rhs with
    | .integer a, .integer b => pure (.integer (orS64 a b))
    | .integer _, _ => throw "right hand side of | not an integer"
    | _, _ => throw "left hand side of | not an integer"
  else if op = "=" then pure (.binary op lhs rhs)
  else throw ("bad binary operator '" ++ op ++ "'")

section

variable (platformSymbols : List (String × Int))

mutual

def evaluate : Expression → Check Expression
  | .word string => return .integer (← liftExcept (symbolToInt platformSymbols string))
  | .string string => return .string (String.ofList (← liftExcept (unescapeCstring string.toList)))
  | .gre header => return .gre (copyGre header (← (greLen (Bytes.Mem.ofList header.toList) 0 : Run Nat)))
  | .binary op lhs rhs => do evaluateBinaryExpression op (← evaluate lhs) (← evaluate rhs)
  | .list list => return .list (← evaluateExpressionList list)
  | .iovec iovBase iovLen => return .iovec (← evaluate iovBase) (← evaluate iovLen)
  | .msghdr msgName msgNamelen msgIov msgIovlen msgControl msgFlags =>
    return .msghdr (← evaluate msgName) (← evaluate msgNamelen) (← evaluate msgIov) (← evaluate msgIovlen)
      (← evaluate msgControl) (← evaluate msgFlags)
  | .cmsg cmsgLevel cmsgType cmsgData =>
    return .cmsg (← evaluate cmsgLevel) (← evaluate cmsgType) (← evaluate cmsgData)
  | .sockExtendedErr eeErrno eeOrigin eeType eeCode eeInfo eeData =>
    return .sockExtendedErr (← evaluate eeErrno) (← evaluate eeOrigin) (← evaluate eeType) (← evaluate eeCode)
      (← evaluate eeInfo) (← evaluate eeData)
  | .pollfd fd events revents => return .pollfd (← evaluate fd) (← evaluate events) (← evaluate revents)
  | .epollev events kind data => return .epollev (← evaluate events) kind (← evaluate data)
  -- the others are copied
  | e => return e

def evaluateExpressionList : List Expression → Check (List Expression)
  | [] => return []
  | e :: rest => return (← evaluate e) :: (← evaluateExpressionList rest)

end

end

end TcpFuzz
