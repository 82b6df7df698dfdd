import Mathlib.Data.List.DropRight
import TcpFuzz.Lib.Scanner

/-! The rules of `lexer.l` in their order. A word that the user has defined as a symbol is replaced by its value. -/

namespace TcpFuzz
open Scanner

inductive Keyword where
  | saFamily | sinPort | sinAddr | msgName | msgIov | msgFlags | msgControl | cmsgData | cmsgLevel
  | cmsgType | eeErrno | eeOrigin | eeType | eeCode | eeInfo | eeData | scmSec | scmNsec | fd | u32
  | u64 | ptr | events | revents | onoff | linger | htons | ipv4 | ipv6 | icmp | udp | gre | raw | sum
  | off | key | seq | none | checksum | sequence | present | mpls | label | tc | ttl | inetAddr
  | inet6Addr | ack | eol | ecr | mss | mtu | nop | sack | sackok | md5 | timestamp | fastOpen
  | fastOpenExp | tos | flowlabel | flags | val | win | urg | wscale | ect01 | ect0 | ect1 | noEcn | ce
  | id
deriving DecidableEq, Repr

def keywords : List (String × Keyword) :=
  [("sa_family", .saFamily), ("sin_port", .sinPort), ("sin_addr", .sinAddr), ("msg_name", .msgName),
   ("msg_iov", .msgIov), ("msg_flags", .msgFlags), ("msg_control", .msgControl), ("cmsg_data", .cmsgData),
   ("cmsg_level", .cmsgLevel), ("cmsg_type", .cmsgType), ("ee_errno", .eeErrno), ("ee_origin", .eeOrigin),
   ("ee_type", .eeType), ("ee_code", .eeCode), ("ee_info", .eeInfo), ("ee_data", .eeData),
   ("scm_sec", .scmSec), ("scm_nsec", .scmNsec), ("fd", .fd), ("u32", .u32), ("u64", .u64), ("ptr", .ptr),
   ("events", .events), ("revents", .revents), ("onoff", .onoff), ("linger", .linger), ("htons", .htons),
   ("ipv4", .ipv4), ("ipv6", .ipv6), ("icmp", .icmp), ("udp", .udp), ("GREv0", .gre), ("gre", .gre),
   ("raw", .raw), ("sum", .sum), ("off", .off), ("key", .key), ("seq", .seq), ("none", .none),
   ("checksum", .checksum), ("sequence#", .sequence), ("present", .present), ("mpls", .mpls),
   ("label", .label), ("tc", .tc), ("ttl", .ttl), ("inet_addr", .inetAddr), ("inet6_addr", .inet6Addr),
   ("ack", .ack), ("eol", .eol), ("ecr", .ecr), ("mss", .mss), ("mtu", .mtu), ("nop", .nop), ("sack", .sack),
   ("sackOK", .sackok), ("md5", .md5), ("TS", .timestamp), ("FO", .fastOpen), ("FOEXP", .fastOpenExp),
   ("tos", .tos), ("flowlabel", .flowlabel), ("flags", .flags), ("Flags", .flags), ("val", .val),
   ("win", .win), ("urg", .urg), ("wscale", .wscale), ("ect01", .ect01), ("ect0", .ect0), ("ect1", .ect1),
   ("noecn", .noEcn), ("ce", .ce), ("id", .id)]

inductive Token where
  | keyword (k : Keyword)
  | ellipsis
  | option (name : List Char)
  | float (text : List Char)
  | integer (text : List Char)
  | hexInteger (text : List Char)
  | word (text : List Char)
  | string (text : List Char)
  | backQuoted (text : List Char)
  | char (c : Char)
  | code (text : List Char)
  | ipv4Addr (text : List Char)
  | ipv6Addr (text : List Char)
deriving DecidableEq, Repr

def doubleQuote : Char := Char.ofNat 34
def backQuote : Char := Char.ofNat 96

def quoted (s : List Char) : List Char := (s.drop 1).take (s.length - 2)

def isBlank (c : Char) : Bool := c = ' ' || c = '\t'

def trimBlanks (s : List Char) : List Char := (s.dropWhile isBlank).rdropWhile isBlank

/-- What `code` makes of a snippet: nothing but blanks inside, and the two ends pass each other. -/
def codeText (s : List Char) : List Char :=
  let body := (s.drop 2).take (s.length - 4)
  if body ≠ [] ∧ body.all isBlank then ['}', '%'] else trimBlanks body

abbrev Defines := List Char → Option (List Char)

def word (defines : Defines) (text : List Char) : Token :=
  match defines text with
  | none => .word text
  | some value =>
    if value.head? = some doubleQuote then .string (quoted value)
    else if value.head? = some backQuote then .backQuoted (quoted value)
    else .word value

/-- The characters of a list are gone through one by one, not all there are. -/
instance (priority := high) decidableForallChar (l : List Char) (p : Char → Prop) [DecidablePred p] :
    Decidable (∀ c ∈ l, p c) := List.decidableBAll p l

def digits : List Char := ['0', '1', '2', '3', '4', '5', '6', '7', '8', '9']

def hexDigits : List Char := digits ++ ['a', 'b', 'c', 'd', 'e', 'f', 'A', 'B', 'C', 'D', 'E', 'F']

def wordChars : List Char :=
  digits ++ '_' ::
    ['a', 'b', 'c', 'd', 'e', 'f', 'g', 'h', 'i', 'j', 'k', 'l', 'm', 'n', 'o', 'p', 'q', 'r', 's', 't', 'u', 'v',
     'w', 'x', 'y', 'z'] ++
    ['A', 'B', 'C', 'D', 'E', 'F', 'G', 'H', 'I', 'J', 'K', 'L', 'M', 'N', 'O', 'P', 'Q', 'R', 'S', 'T', 'U', 'V',
     'W', 'X', 'Y', 'Z']

def whitespace : List Char := [' ', '\t', '\n']

namespace Pattern

open Regex

def symbol (c : Char) : Regex Char := .oneOf [c]

def number : Regex Char := plus (.oneOf digits)

def option : Regex Char := .seq (literal ['-', '-']) (plus (.oneOf wordChars))

def float : Regex Char :=
  .seq (opt (symbol '-')) (.seq (.star (.oneOf digits)) (.seq (symbol '.') number))

def integer : Regex Char := .seq (opt (symbol '-')) number

def hexInteger : Regex Char := .seq (literal ['0', 'x']) (plus (.oneOf hexDigits))

/-- Text between two delimiters, in which a backslash takes the next character along. -/
def delimited (c : Char) : Regex Char :=
  .seq (symbol c) (.seq (.star (.alt (.seq (symbol '\\') (.noneOf ['\n'])) (.noneOf [c]))) (symbol c))

def cppComment : Regex Char := .seq (literal ['/', '/']) (.seq (.star (.noneOf ['\n'])) (symbol '\n'))

def cComment : Regex Char :=
  .seq (literal ['/', '*']) (.seq (.star (.alt (.noneOf ['*']) (.seq (symbol '*') (.noneOf ['/']))))
    (literal ['*', '/']))

def code : Regex Char :=
  .seq (literal ['%', '{']) (.seq (.star (.alt (.noneOf ['}']) (.seq (symbol '}') (.noneOf ['%']))))
    (literal ['}', '%']))

def ipv4Addr : Regex Char :=
  .seq number (.seq (symbol '.') (.seq number (.seq (symbol '.') (.seq number (.seq (symbol '.') number)))))

def seg : Regex Char := between (.oneOf hexDigits) 1 3

def segColon : Regex Char := .seq seg (symbol ':')

def colonSeg : Regex Char := .seq (symbol ':') seg

/-- The thirteen forms `v0` to `v12`; `between r 1 n` is the `r{1,n+1}` of the source. -/
def ipv6Addr : Regex Char := anyOf
  [literal [':', ':'],
   .seq (power segColon 7) seg,
   .seq (between segColon 1 6) (symbol ':'),
   .seq (between segColon 1 5) (.seq (symbol ':') seg),
   .seq (between segColon 1 4) (between colonSeg 1 1),
   .seq (between segColon 1 3) (between colonSeg 1 2),
   .seq (between segColon 1 2) (between colonSeg 1 3),
   .seq (between segColon 1 1) (between colonSeg 1 4),
   .seq segColon (between colonSeg 1 5),
   .seq (symbol ':') (between colonSeg 1 6),
   .seq (literal [':', ':', 'f', 'f', 'f', 'f', ':']) ipv4Addr,
   .seq (literal [':', ':', 'f', 'f', 'f', 'f', ':']) (.seq (between (symbol '0') 1 3) (.seq (symbol ':') ipv4Addr)),
   .seq (between segColon 1 3) (.seq (symbol ':') ipv4Addr)]

end Pattern

def keywordRule (entry : String × Keyword) : Rule Char Token :=
  ⟨.literal entry.1.toList, fun _ => some (.keyword entry.2)⟩

def ellipsisRule : Rule Char Token := ⟨.literal ['.', '.', '.'], fun _ => some .ellipsis⟩
def optionRule : Rule Char Token := ⟨Pattern.option, fun text => some (.option (text.drop 2))⟩
def floatRule : Rule Char Token := ⟨Pattern.float, fun text => some (.float text)⟩
def integerRule : Rule Char Token := ⟨Pattern.integer, fun text => some (.integer text)⟩
def hexIntegerRule : Rule Char Token := ⟨Pattern.hexInteger, fun text => some (.hexInteger text)⟩
def wordRule (defines : Defines) : Rule Char Token := ⟨.plus (.oneOf wordChars), fun text => some (word defines text)⟩
def stringRule : Rule Char Token := ⟨Pattern.delimited doubleQuote, fun text => some (.string (quoted text))⟩
def backQuotedRule : Rule Char Token := ⟨Pattern.delimited backQuote, fun text => some (.backQuoted (quoted text))⟩
def charRule : Rule Char Token := ⟨.noneOf whitespace, fun text => text.head?.map .char⟩
def whitespaceRule : Rule Char Token := ⟨.plus (.oneOf whitespace), fun _ => none⟩

def lastRules : List (Rule Char Token) :=
  [⟨Pattern.cppComment, fun _ => none⟩,
   ⟨Pattern.cComment, fun _ => none⟩,
   ⟨Pattern.code, fun text => some (.code (codeText text))⟩,
   ⟨Pattern.ipv4Addr, fun text => some (.ipv4Addr text)⟩,
   ⟨Pattern.ipv6Addr, fun text => some (.ipv6Addr text)⟩]

def rules (defines : Defines) : List (Rule Char Token) :=
  keywords.map keywordRule ++ ellipsisRule :: optionRule :: floatRule :: integerRule :: hexIntegerRule ::
    wordRule defines :: stringRule :: backQuotedRule :: charRule :: whitespaceRule :: lastRules

def lex (defines : Defines) (text : List Char) : List Token := tokens (rules defines) text

end TcpFuzz
