import Mathlib.Data.List.Basic

/-!
# Addresses and their texts

IPv4 and IPv6 addresses, the texts the standard library reads as one, and the
address ranges a proxy is declared by. A reader consumes a prefix of its text
or fails without consuming anything.
-/

namespace MindMapVault
namespace Throttle

/-- `std::net::IpAddr`. -/
inductive IpAddr
  | v4 (bits : BitVec 32)
  | v6 (bits : BitVec 128)
  deriving DecidableEq

/-- `Ipv4Addr::new`. -/
def IpAddr.ofOctets (a b c d : Nat) : IpAddr :=
  .v4 (BitVec.ofNat 32 (((a * 256 + b) * 256 + c) * 256 + d))

/-- `Ipv4Addr::UNSPECIFIED`. -/
def IpAddr.unspecified : IpAddr := .v4 0

/-- `ipnet::IpNet`: an address and the length of the prefix that counts. -/
inductive IpNet
  | v4 (address : BitVec 32) (prefixLen : Fin 33)
  | v6 (address : BitVec 128) (prefixLen : Fin 129)
  deriving DecidableEq

/-- `IpNet::contains`: an address of the same family with the same prefix. -/
def IpNet.contains : IpNet → IpAddr → Bool
  | .v4 address prefixLen, .v4 bits =>
      address >>> (32 - prefixLen.val) == bits >>> (32 - prefixLen.val)
  | .v6 address prefixLen, .v6 bits =>
      address >>> (128 - prefixLen.val) == bits >>> (128 - prefixLen.val)
  | _, _ => false

/-- What a reader makes of a text: a value and the text after it. -/
abbrev Reader (Value : Type) := List Char → Option (Value × List Char)

/-- `char::to_digit`. -/
def toDigit (radix : Nat) (char : Char) : Option Nat :=
  let code := char.toNat
  let digit :=
    if 48 ≤ code ∧ code ≤ 57 then some (code - 48)
    else if 97 ≤ code ∧ code ≤ 122 then some (code - 97 + 10)
    else if 65 ≤ code ∧ code ≤ 90 then some (code - 65 + 10)
    else none
  digit.filter (· < radix)

/-- The digits a text starts with. -/
def takeDigits (radix : Nat) : List Char → List Nat × List Char
  | [] => ([], [])
  | char :: rest =>
      match toDigit radix char with
      | none => ([], char :: rest)
      | some digit =>
          let (digits, left) := takeDigits radix rest
          (digit :: digits, left)

/-- `Parser::read_number`, for an integer type with the given largest value. -/
def readNumber (radix : Nat) (maxDigits : Option Nat) (allowZeroPrefix : Bool)
    (largest : Nat) : Reader Nat := fun text =>
  let (digits, rest) := takeDigits radix text
  let value := digits.foldl (fun value digit => value * radix + digit) 0
  if digits = [] then none
  else if maxDigits.any (· < digits.length) then none
  else if !allowZeroPrefix && digits.head? == some 0 && 1 < digits.length then none
  else if largest < value then none
  else some (value, rest)

/-- `Parser::read_given_char`. -/
def readGivenChar (given : Char) : Reader Unit
  | char :: rest => if char = given then some ((), rest) else none
  | [] => none

/-- `Parser::read_separator`: nothing separates the first group. -/
def readSeparator {Value : Type}
    (separator : Char) (index : Nat) (inner : Reader Value) : Reader Value :=
  fun text =>
    if 0 < index then
      (readGivenChar separator text).bind fun (_, rest) => inner rest
    else inner text

/-- The groups of an IPv4 address from the `index`-th on. -/
def readOctets (index : Nat) : Nat → Reader (List Nat)
  | 0, text => some ([], text)
  | count + 1, text =>
      (readSeparator '.' index (readNumber 10 (some 3) false 255) text).bind
        fun (octet, rest) =>
          (readOctets (index + 1) count rest).map fun (octets, rest) =>
            (octet :: octets, rest)

/-- `Parser::read_ipv4_addr`. -/
def readIpv4Addr : Reader (BitVec 32) := fun text =>
  (readOctets 0 4 text).map fun (octets, rest) =>
    (BitVec.ofNat 32 (octets.foldl (fun bits octet => bits * 256 + octet) 0), rest)

/-- `read_groups`: up to so many groups of an IPv6 address, and whether the
last two of them were an embedded IPv4 address. -/
def readGroups (index : Nat) : Nat → List Char → List Nat × Bool × List Char
  | 0, text => ([], false, text)
  | left + 1, text =>
      -- An embedded address takes the place of two groups.
      match (if 0 < left then readSeparator ':' index readIpv4Addr text else none) with
      | some (bits, rest) =>
          ([bits.toNat / 65536, bits.toNat % 65536], true, rest)
      | none =>
          match readSeparator ':' index (readNumber 16 (some 4) true 65535) text with
          | none => ([], false, text)
          | some (group, rest) =>
              let (groups, embedded, rest) := readGroups (index + 1) left rest
              (group :: groups, embedded, rest)

/-- `Ipv6Addr::from([u16; 8])`. -/
def ofGroups (groups : List Nat) : BitVec 128 :=
  BitVec.ofNat 128 (groups.foldl (fun bits group => bits * 65536 + group) 0)

/-- `Parser::read_ipv6_addr`. -/
def readIpv6Addr : Reader (BitVec 128) := fun text =>
  let (head, embedded, rest) := readGroups 0 8 text
  if head.length = 8 then some (ofGroups head, rest)
  else if embedded then none
  else
    match rest with
    | ':' :: ':' :: rest =>
        -- The two colons stand for at least one group of zeros.
        let (tail, _, rest) := readGroups 0 (8 - (head.length + 1)) rest
        let zeros := List.replicate (8 - head.length - tail.length) 0
        some (ofGroups (head ++ zeros ++ tail), rest)
    | _ => none

/-- `Parser::read_ip_addr`. -/
def readIpAddr : Reader IpAddr := fun text =>
  match readIpv4Addr text with
  | some (bits, rest) => some (.v4 bits, rest)
  | none => (readIpv6Addr text).map fun (bits, rest) => (.v6 bits, rest)

/-- `Parser::read_port`. -/
def readPort : Reader Nat := fun text =>
  (readGivenChar ':' text).bind fun (_, rest) => readNumber 10 none true 65535 rest

/-- `Parser::read_scope_id`, which may be missing. -/
def readScopeId : List Char → List Char := fun text =>
  match readGivenChar '%' text with
  | none => text
  | some (_, rest) =>
      match readNumber 10 none true 4294967295 rest with
      | none => text
      | some (_, rest) => rest

/-- `Parser::read_socket_addr`, of which only the address is used. -/
def readSocketAddr : Reader IpAddr := fun text =>
  let first := do
    let (bits, rest) ← readIpv4Addr text
    let (_, rest) ← readPort rest
    some (IpAddr.v4 bits, rest)
  match first with
  | some answer => some answer
  | none => do
      let (_, rest) ← readGivenChar '[' text
      let (bits, rest) ← readIpv6Addr rest
      let (_, rest) ← readGivenChar ']' (readScopeId rest)
      let (_, rest) ← readPort rest
      some (IpAddr.v6 bits, rest)

/-- `Parser::parse_with`: a reader has to consume the whole text. -/
def parseWith {Value : Type} (reader : Reader Value) (text : List Char) :
    Option Value :=
  match reader text with
  | some (value, []) => some value
  | _ => none

end Throttle
end MindMapVault
