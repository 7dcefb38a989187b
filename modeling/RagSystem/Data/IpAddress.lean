import Mathlib.Data.List.Basic

/-! Internet addresses and networks, as Python's `ipaddress` reads them. -/

namespace Ip

inductive Address
  | v4 (value : BitVec 32)
  | v6 (value : BitVec 128) (scope : Option String)
  deriving DecidableEq, Repr

/-- The network address, without host bits, and the netmask. -/
inductive Network
  | v4 (address netmask : BitVec 32)
  | v6 (address : BitVec 128) (scope : Option String) (netmask : BitVec 128)
  deriving DecidableEq, Repr

/-- `addr in network`. -/
def Network.contains : Network → Address → Bool
  | .v4 address netmask, .v4 value => value &&& netmask = address
  | .v6 address _ netmask, .v6 value _ => value &&& netmask = address
  | _, _ => false

/-- An IPv4 address that is written as `::ffff:a.b.c.d` is that IPv4 address. -/
def Address.canonical : Address → Address
  | .v4 value => .v4 value
  | .v6 value scope =>
      if value >>> 32 = 0xFFFF#128 then .v4 (value.setWidth 32) else .v6 value scope

/-! Reading. -/

def decimal (text : List Char) : Nat :=
  text.foldl (fun value char => 10 * value + (char.toNat - '0'.toNat)) 0

def parseOctet (text : List Char) : Option Nat :=
  if text = [] ∨ ¬text.all Char.isDigit ∨ 3 < text.length ∨
      (text ≠ ['0'] ∧ text.head? = some '0') ∨ 255 < decimal text then none
  else some (decimal text)

def ipv4Value (text : List Char) : Option (BitVec 32) :=
  match (text.splitOn '.').mapM parseOctet with
  | some [first, second, third, fourth] =>
      some (BitVec.ofNat 32 (((first * 256 + second) * 256 + third) * 256 + fourth))
  | _ => none

def hexDigit (char : Char) : Option Nat :=
  if '0' ≤ char ∧ char ≤ '9' then some (char.toNat - '0'.toNat)
  else if 'a' ≤ char ∧ char ≤ 'f' then some (char.toNat - 'a'.toNat + 10)
  else if 'A' ≤ char ∧ char ≤ 'F' then some (char.toNat - 'A'.toNat + 10)
  else none

def parseHextet (text : List Char) : Option Nat :=
  if text = [] ∨ 4 < text.length then none
  else (text.mapM hexDigit).map (List.foldl (fun value digit => 16 * value + digit) 0)

/-- A part between two colons; an empty one has no value. -/
def parsePart (text : List Char) : Option (Option Nat) :=
  if text = [] then some none else (parseHextet text).map some

/-- The parts of an address; an IPv4 address at the end makes two of them. -/
def ipv6Parts (text : List Char) : Option (List (Option Nat)) :=
  let texts := text.splitOn ':'
  let last := texts.getLastD []
  if texts.length < 3 then none
  else if '.' ∈ last then do
    let parts ← texts.dropLast.mapM parsePart
    let value ← ipv4Value last
    some (parts ++ [some (value.toNat / 65536), some (value.toNat % 65536)])
  else texts.mapM parsePart

/-- The parts on one side of `::`; an empty one may only stand alone, at the end of the text. -/
def outerParts (parts : List (Option Nat)) : Option (List Nat) :=
  if parts = [none] then some [] else parts.mapM id

/-- The eight hextets; one empty part inside stands for zeros. -/
def hextets (parts : List (Option Nat)) : Option (List Nat) :=
  match (List.range parts.length).filter (fun index =>
      0 < index ∧ index + 1 < parts.length ∧ parts[index]? = some none) with
  | [] => if parts.length = 8 then parts.mapM id else none
  | [skip] => do
      let high ← outerParts (parts.take skip)
      let low ← outerParts (parts.drop (skip + 1))
      if high.length + low.length < 8 then
        some (high ++ List.replicate (8 - (high.length + low.length)) 0 ++ low)
      else none
  | _ => none

def ipv6Value (text : List Char) : Option (BitVec 128) :=
  ((ipv6Parts text).bind hextets).map
    (List.foldl (fun value hextet => value <<< 16 ||| BitVec.ofNat 128 hextet) 0)

/-- The address before `%` and the scope after it. -/
def splitScope (text : List Char) : Option (List Char × Option String) :=
  match text.splitOn '%' with
  | [address] => some (address, none)
  | [address, scope] => if scope = [] then none else some (address, some (String.ofList scope))
  | _ => none

def ipv6Address (text : List Char) : Option (BitVec 128 × Option String) :=
  if '/' ∈ text then none
  else (splitScope text).bind fun split => (ipv6Value split.1).map (·, split.2)

/-- `ip_address`; `none` is its `ValueError`. -/
def ipAddress (text : String) : Option Address :=
  ((ipv4Value text.toList).map .v4).orElse fun _ =>
    (ipv6Address text.toList).map fun address => .v6 address.1 address.2

def netmask (bits prefixLength : Nat) : BitVec bits :=
  BitVec.allOnes bits ^^^ (BitVec.allOnes bits >>> prefixLength)

/-- The prefix length from its digits; longer numbers are not converted. -/
def parsePrefixLength (most : Nat) (text : List Char) : Option Nat :=
  if text = [] ∨ ¬text.all Char.isDigit ∨ 4300 < text.length ∨ most < decimal text then none
  else some (decimal text)

def prefixLengthOf (mask : BitVec 32) : Option Nat :=
  (List.range 33).find? fun prefixLength => netmask 32 prefixLength = mask

/-- The prefix length from a netmask or from a host mask. -/
def parseMask (text : List Char) : Option Nat :=
  (ipv4Value text).bind fun mask => (prefixLengthOf mask).orElse fun _ => prefixLengthOf (~~~mask)

def ipv4Network (text : List Char) : Option Network :=
  match text.splitOn '/' with
  | [address] => (ipv4Value address).map (.v4 · (netmask 32 32))
  | [address, mask] => do
      let value ← ipv4Value address
      let prefixLength ← (parsePrefixLength 32 mask).orElse fun _ => parseMask mask
      some (.v4 (value &&& netmask 32 prefixLength) (netmask 32 prefixLength))
  | _ => none

def ipv6Network (text : List Char) : Option Network :=
  match text.splitOn '/' with
  | [address] => (ipv6Address address).map fun parsed => .v6 parsed.1 parsed.2 (netmask 128 128)
  | [address, mask] => do
      let (value, scope) ← ipv6Address address
      let prefixLength ← parsePrefixLength 128 mask
      let first := value &&& netmask 128 prefixLength
      some (.v6 first (if first = value then scope else none) (netmask 128 prefixLength))
  | _ => none

/-- `ip_network(.., strict=False)`; `none` is its `ValueError`. -/
def ipNetwork (text : String) : Option Network :=
  (ipv4Network text.toList).orElse fun _ => ipv6Network text.toList

example : ipAddress "2001:DB8::1" = ipAddress "2001:db8:0:0:0:0:0:1" := by decide +kernel

end Ip
