import Newsfeed.TextOperations

/-! # IP addresses

The addresses, their texts as the Rust standard library reads them, and networks in CIDR
notation.
-/
namespace IpAddresses

open TextOperations

inductive IpAddr where
  | v4 (bits : BitVec 32)
  | v6 (bits : BitVec 128)
  deriving DecidableEq, Repr

/-- A network: the first `length` bits of its addresses are those of `bits`. -/
inductive IpNet where
  | v4 (bits : BitVec 32) (length : Fin 33)
  | v6 (bits : BitVec 128) (length : Fin 129)
  deriving DecidableEq, Repr

/-- `IpNet::contains` of the ipnet crate, as documented: a network contains the addresses of its
own version that have its first `length` bits. -/
def IpNet.contains : IpNet → IpAddr → Bool
  | .v4 bits length, .v4 ip => bits >>> (32 - length.val) == ip >>> (32 - length.val)
  | .v6 bits length, .v6 ip => bits >>> (128 - length.val) == ip >>> (128 - length.val)
  | _, _ => false

abbrev Reader (α : Type) := Text → Option (α × Text)

def toDigit (radix : Nat) (c : Char) : Option Nat :=
  let value :=
    if c.isDigit then some (c.toNat - '0'.toNat)
    else if 'a' ≤ c ∧ c ≤ 'z' then some (c.toNat - 'a'.toNat + 10)
    else if 'A' ≤ c ∧ c ≤ 'Z' then some (c.toNat - 'A'.toNat + 10)
    else none
  value.filter fun v => v < radix

/-- `read_number`: all digits that follow, not too many of them. -/
def readNumber (radix maxDigits : Nat) (allowZeroPrefix : Bool) (bound : Nat) : Reader Nat :=
  fun t =>
    let digits := (t.takeWhile fun c => (toDigit radix c).isSome).filterMap (toDigit radix)
    let value := digits.foldl (fun n d => n * radix + d) 0
    if digits.isEmpty || maxDigits < digits.length then none
    else if !allowZeroPrefix && t.head? == some '0' && 1 < digits.length then none
    else if value < bound then some (value, t.drop digits.length)
    else none

/-- `read_separator`: the separator comes before all but the first element. -/
def readSeparator {α : Type} (separator : Char) (index : Nat) (read : Reader α) : Reader α :=
  fun t =>
    if index = 0 then read t
    else
      match t with
      | [] => none
      | c :: cs => if c = separator then read cs else none

def readOctets (value index : Nat) : Nat → Reader Nat
  | 0, t => some (value, t)
  | remaining + 1, t =>
    match readSeparator '.' index (readNumber 10 3 false 256) t with
    | none => none
    | some (octet, t) => readOctets (value * 256 + octet) (index + 1) remaining t

/-- `read_ipv4_addr`. -/
def readIpv4 : Reader Nat := readOctets 0 0 4

/-- `read_groups`: up to `limit` groups, the last two perhaps as an IPv4 address. -/
def readGroups (limit index : Nat) : Nat → Text → List Nat × Bool × Text
  | 0, t => ([], false, t)
  | remaining + 1, t =>
    match if index < limit - 1 then readSeparator ':' index readIpv4 t else none with
    | some (v4, t) => ([v4 / 2 ^ 16, v4 % 2 ^ 16], true, t)
    | none =>
      match readSeparator ':' index (readNumber 16 4 true (2 ^ 16)) t with
      | none => ([], false, t)
      | some (group, t) =>
        let (groups, ipv4, t) := readGroups limit (index + 1) remaining t
        (group :: groups, ipv4, t)

def ofGroups (groups : List Nat) : Nat := groups.foldl (fun n g => n * 2 ^ 16 + g) 0

/-- `read_ipv6_addr`: all groups, or those around a double colon. -/
def readIpv6 : Reader Nat := fun t =>
  let (head, ipv4, t) := readGroups 8 0 8 t
  if head.length = 8 then some (ofGroups head, t)
  else if ipv4 then none
  else
    match t with
    | ':' :: ':' :: t =>
      let limit := 8 - (head.length + 1)
      let (tail, _, t) := readGroups limit 0 limit t
      some (ofGroups (head ++ List.replicate (8 - head.length - tail.length) 0 ++ tail), t)
    | _ => none

/-- `str::parse::<IpAddr>`: nothing may follow the address. -/
def parseIpAddr (t : Text) : Option IpAddr :=
  match readIpv4 t with
  | some (value, rest) => if rest.isEmpty then some (.v4 (BitVec.ofNat 32 value)) else none
  | none =>
    match readIpv6 t with
    | some (value, rest) => if rest.isEmpty then some (.v6 (BitVec.ofNat 128 value)) else none
    | none => none

example : parseIpAddr "203.0.113.195".toList = some (.v4 0xCB0071C3) := by decide

example : parseIpAddr "2001:db8::1".toList =
    some (.v6 0x20010DB8000000000000000000000001) := by decide

end IpAddresses
