/-
  Foundation/AddrParse.lean --- reading IP addresses from text.

  The parser behind `str::parse::<Ipv4Addr>()` and `str::parse::<Ipv6Addr>()` in the
  standard library.  A reader takes characters from the front of a text; one that fails
  leaves the text as it was, which `read_atomically` does in the library.
-/
import Ruproxy.Foundation.Net

set_option autoImplicit false

namespace Ruproxy.Foundation

/-! ## Numbers -/

/-- `char::to_digit`, for a radix of at most 36. -/
def toDigit (radix : Nat) (c : Char) : Option Nat :=
  let digit :=
    if '0' ≤ c ∧ c ≤ '9' then some (c.toNat - '0'.toNat)
    else if 'a' ≤ c ∧ c ≤ 'z' then some (c.toNat - 'a'.toNat + 10)
    else if 'A' ≤ c ∧ c ≤ 'Z' then some (c.toNat - 'A'.toNat + 10)
    else none
  digit.filter (· < radix)

/-- `read_number`: at most `maxDigits` digits of a value below `bound`. -/
def readNumber (radix maxDigits : Nat) (allowZeroPrefix : Bool) (bound : Nat)
    (s : List Char) : Option (Nat × List Char) :=
  let digits := s.takeWhile fun c => (toDigit radix c).isSome
  let value := digits.foldl (fun n c => n * radix + (toDigit radix c).getD 0) 0
  if digits.length = 0 ∨ maxDigits < digits.length then none
  else if !allowZeroPrefix ∧ s.head? = some '0' ∧ 1 < digits.length then none
  else if bound ≤ value then none
  else some (value, s.drop digits.length)

/-- `read_given_char`. -/
def readGivenChar (target : Char) : List Char → Option (List Char)
  | c :: s => if c = target then some s else none
  | [] => none

/-- `read_separator`: before every item but the first one. -/
def readSeparator {α : Type} (sep : Char) (i : Nat) (inner : List Char → Option (α × List Char))
    (s : List Char) : Option (α × List Char) :=
  if 0 < i then (readGivenChar sep s).bind inner else inner s

/-! ## Addresses -/

/-- One turn of the loop of `read_ipv4_addr`; octal numbers are not allowed. -/
def readOctet (i : Nat) (s : List Char) : Option (Nat × List Char) :=
  readSeparator '.' i (readNumber 10 3 false 256) s

/-- `read_ipv4_addr`. -/
def readIpv4Addr (s : List Char) : Option (Ipv4Addr × List Char) := do
  let (a, s) ← readOctet 0 s
  let (b, s) ← readOctet 1 s
  let (c, s) ← readOctet 2 s
  let (d, s) ← readOctet 3 s
  return (.new (UInt8.ofNat a) (UInt8.ofNat b) (UInt8.ofNat c) (UInt8.ofNat d), s)

/-- The loop of `read_groups` after the groups `groups`: all the groups, and whether an
IPv4 address ended them. -/
def readGroupsFrom (limit : Nat) (groups : List UInt16) (s : List Char) :
    List UInt16 × Bool × List Char :=
  let i := groups.length
  if i < limit then
    -- an IPv4 address takes two groups
    match if i < limit - 1 then readSeparator ':' i readIpv4Addr s else none with
    | some (v4, s) =>
        (groups ++ [u16OfBe v4.octets[0] v4.octets[1], u16OfBe v4.octets[2] v4.octets[3]],
          true, s)
    | none =>
        match readSeparator ':' i (readNumber 16 4 true 65536) s with
        | some (group, s) => readGroupsFrom limit (groups ++ [UInt16.ofNat group]) s
        | none => (groups, false, s)
  else (groups, false, s)
termination_by limit - groups.length
decreasing_by
  rw [List.length_append, List.length_singleton]
  omega

/-- `Ipv6Addr::from` on eight segments. -/
def Ipv6Addr.ofSegments (l : List UInt16) : Ipv6Addr := ⟨Vector.ofFn fun i => l.getD i 0⟩

/-- `read_ipv6_addr`. -/
def readIpv6Addr (s : List Char) : Option (Ipv6Addr × List Char) :=
  let (head, headIpv4, s) := readGroupsFrom 8 [] s
  if head.length = 8 then some (.ofSegments head, s)
  else if headIpv4 then none
  else do
    let s ← readGivenChar ':' s
    let s ← readGivenChar ':' s
    -- the two colons stand for at least one group
    let (tail, _, s) := readGroupsFrom (8 - (head.length + 1)) [] s
    return (.ofSegments (head ++ List.replicate (8 - tail.length - head.length) 0 ++ tail), s)

/-- `parse_with`: the reader takes the whole text. -/
def parseWith {α : Type} (inner : List Char → Option (α × List Char)) (s : List Char) :
    Option α :=
  match inner s with
  | some (a, []) => some a
  | _ => none

/-- `str::parse::<Ipv4Addr>`. -/
def Ipv4Addr.parse (s : String) : Option Ipv4Addr :=
  if 15 < (asBytes s).length then none else parseWith readIpv4Addr s.toList

/-- `str::parse::<Ipv6Addr>`. -/
def Ipv6Addr.parse (s : String) : Option Ipv6Addr := parseWith readIpv6Addr s.toList

example : Ipv4Addr.parse "192.0.2.01" = none := by decide +kernel

example : Ipv6Addr.parse "2001:db8::1:192.0.2.1" =
    some (.new 0x2001 0xdb8 0 0 0 1 0xc000 0x201) := by decide +kernel

end Ruproxy.Foundation
