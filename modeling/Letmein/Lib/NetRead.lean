import Letmein.Lib.Net
import Letmein.Lib.Text

/-! # Reading internet addresses

`IpAddr::from_str` of `std::net`. A reader takes what it reads from the front of a text. -/

namespace IpAddr
open Text

def readGivenChar (c : Char) : Text → Option Text
  | c' :: s => if c' = c then some s else none
  | [] => none

/-- A number below `limit` of at most `maxDigits` digits, all that there are. -/
def readNumber (radix maxDigits limit : Nat) (allowZeroPrefix : Bool) (s : Text) : Option (Nat × Text) :=
  let isDigit := fun c => (toDigit radix c).isSome
  let digits := s.takeWhile isDigit
  let n := digits.foldl (fun n c => n * radix + (toDigit radix c).getD 0) 0
  if digits.length = 0 ∨ maxDigits < digits.length then none
  else if allowZeroPrefix = false ∧ digits.head? = some '0' ∧ 1 < digits.length then none
  else if n < limit then some (n, s.dropWhile isDigit) else none

/-- Read after a separator, unless it is the first of its kind. -/
def readSeparator {α : Type} (sep : Char) (index : Nat) (inner : Text → Option α) (s : Text) : Option α :=
  if index = 0 then inner s else (readGivenChar sep s).bind inner

def readOctet (index : Nat) (s : Text) : Option (UInt8 × Text) :=
  (readSeparator '.' index (readNumber 10 3 256 false) s).map fun p => (UInt8.ofNat p.1, p.2)

def readIpv4Addr (s : Text) : Option (Ipv4Addr × Text) := do
  let (a, s) ← readOctet 0 s
  let (b, s) ← readOctet 1 s
  let (c, s) ← readOctet 2 s
  let (d, s) ← readOctet 3 s
  return (⟨a, b, c, d⟩, s)

/-- Groups of an IPv6 address from this index on, until one cannot be read or `left` of them have been. The last two
may be given as an IPv4 address, which is reported. -/
def readGroups : (left index : Nat) → Text → List UInt16 × Bool × Text
  | 0, _, s => ([], false, s)
  | left + 1, index, s =>
    match if left = 0 then none else readSeparator ':' index readIpv4Addr s with
    | some (addr, s) =>
      ([addr.a.toUInt16 <<< 8 ||| addr.b.toUInt16, addr.c.toUInt16 <<< 8 ||| addr.d.toUInt16], true, s)
    | none =>
      match readSeparator ':' index (readNumber 16 4 65536 true) s with
      | none => ([], false, s)
      | some (group, s) =>
        let rest := readGroups left (index + 1) s
        (UInt16.ofNat group :: rest.1, rest.2)

def ofSegments : List UInt16 → Option Ipv6Addr
  | [s0, s1, s2, s3, s4, s5, s6, s7] => some ⟨s0, s1, s2, s3, s4, s5, s6, s7⟩
  | _ => none

/-- All eight groups, or the groups before and after `::`, which stands for at least one. -/
def readIpv6Addr (s : Text) : Option (Ipv6Addr × Text) :=
  let (head, headIpv4, s) := readGroups 8 0 s
  if head.length = 8 then (ofSegments head).map (·, s)
  else if headIpv4 then none
  else do
    let s ← readGivenChar ':' s
    let s ← readGivenChar ':' s
    let (tail, _, s) := readGroups (8 - (head.length + 1)) 0 s
    (ofSegments (head ++ List.replicate (8 - head.length - tail.length) 0 ++ tail)).map (·, s)

def fromStr (s : Text) : Option IpAddr :=
  match ((readIpv4Addr s).map fun p => (v4 p.1, p.2)).or ((readIpv6Addr s).map fun p => (v6 p.1, p.2)) with
  | some (addr, []) => some addr
  | _ => none

example : fromStr "192.0.2.7".toList = some (v4 ⟨192, 0, 2, 7⟩) := by decide
example : fromStr "::ffff:192.0.2.7".toList = some (v6 ⟨0, 0, 0, 0, 0, 0xffff, 0xc000, 0x0207⟩) := by decide
example : fromStr "2001:db8::1".toList = some (v6 ⟨0x2001, 0xdb8, 0, 0, 0, 0, 0, 1⟩) := by decide
example : fromStr "192.0.02.7".toList = none := by decide

end IpAddr
