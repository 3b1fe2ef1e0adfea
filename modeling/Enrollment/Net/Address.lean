/-
Internet addresses as text.

An address of the fourth version is four decimal numbers without leading
zeros.  One of the sixth is eight groups of hexadecimal digits, of which one
run of zero groups may be left out, and of which the last two may be written
as an address of the fourth version.
-/
import Enrollment.Text.Blank
import Enrollment.Bytes

namespace Enrollment.Net

/-- An address of either version. -/
inductive Address where
  | v4 (octets : Bytes)
  | v6 (groups : List Nat)
  deriving Repr, DecidableEq

namespace Address

/-- The bytes of an address. -/
def octets : Address → Bytes
  | .v4 octets => octets
  | .v6 groups => groups.flatMap (Bytes.ofNat 2)

-- =============================================================== reading

/-- At most three decimal digits that spell a byte without a leading zero. -/
def readOctet (cs : List Char) : Option (UInt8 × List Char) :=
  let digits := cs.takeWhile Text.isAsciiDigit
  let n : Nat := digits.foldl (fun n c => n * 10 + (c.toNat - 48)) 0
  if digits.isEmpty || 3 < digits.length || 255 < n then none
  else if 1 < digits.length && digits.head? == some '0' then none
  else some (UInt8.ofNat n, cs.drop digits.length)

/-- The text after a given character. -/
def expect (c : Char) : List Char → Option (List Char)
  | d :: cs => if d = c then some cs else none
  | [] => none

/-- Four octets with points between them. -/
def readV4 (cs : List Char) : Option (Bytes × List Char) := do
  let (a, cs) ← readOctet cs
  let (b, cs) ← readOctet (← expect '.' cs)
  let (c, cs) ← readOctet (← expect '.' cs)
  let (d, cs) ← readOctet (← expect '.' cs)
  return ([a, b, c, d], cs)

/-- At most four hexadecimal digits. -/
def readGroup (cs : List Char) : Option (Nat × List Char) :=
  let digits := cs.takeWhile fun c => (Bytes.hexValue? c).isSome
  if digits.isEmpty || 4 < digits.length then none
  else
    let n := digits.foldl (fun n c => n * 16 + (Bytes.hexValue? c).getD 0) 0
    some (n, cs.drop digits.length)

/-- The two groups that four octets make. -/
def pairOctets : Bytes → List Nat
  | [a, b, c, d] => [a.toNat * 256 + b.toNat, c.toNat * 256 + d.toNat]
  | _ => []

/-- Groups with colons between them, at most `limit` of them; `first` when no
colon is due in front.  Tells also whether the last two were octets. -/
def readGroups : (limit : Nat) → (first : Bool) → List Char → List Nat × Bool × List Char
  | 0, _, cs => ([], false, cs)
  | limit + 1, first, cs =>
    match if first then some cs else expect ':' cs with
    | none => ([], false, cs)
    | some tail =>
      match if limit = 0 then none else readV4 tail with
      | some (octets, rest) => (pairOctets octets, true, rest)
      | none =>
        match readGroup tail with
        | some (group, rest) =>
          let (groups, mixed, rest) := readGroups limit false rest
          (group :: groups, mixed, rest)
        | none => ([], false, cs)

/-- Eight groups, or fewer with one gap. -/
def readV6 (cs : List Char) : Option (List Nat × List Char) := do
  let (head, mixed, rest) := readGroups 8 true cs
  if head.length = 8 then return (head, rest)
  if mixed then none
  let rest ← expect ':' (← expect ':' rest)
  let (tail, _, rest) := readGroups (7 - head.length) true rest
  return (head ++ List.replicate (8 - head.length - tail.length) 0 ++ tail, rest)

/-- A whole text as an address. -/
def parse (text : String) : Option Address :=
  match readV4 text.toList with
  | some (octets, []) => some (.v4 octets)
  | _ =>
    match readV6 text.toList with
    | some (groups, []) => some (.v6 groups)
    | _ => none

-- =============================================================== writing

/-- Four octets with points between them. -/
def textV4 (octets : Bytes) : String :=
  ".".intercalate (octets.map fun b => Text.decimal b.toNat)

/-- Groups with colons between them. -/
def textGroups (groups : List Nat) : String :=
  ":".intercalate (groups.map fun g => String.ofList (Nat.toDigits 16 g))

/-- The length of the run of zeros that a list starts with. -/
def zeroRun (groups : List Nat) : Nat :=
  (groups.takeWhile (· == 0)).length

/-- The start and the length of the longest run of zeros, the first of equals. -/
def longestRun (groups : List Nat) : Nat × Nat :=
  (List.range groups.length).foldl
    (fun best i =>
      let run := zeroRun (groups.drop i)
      if best.2 < run then (i, run) else best)
    (0, 0)

/-- The text of an address, with the longest run of at least two zero groups
left out. -/
def text : Address → String
  | .v4 octets => textV4 octets
  | .v6 groups =>
    match groups with
    | [0, 0, 0, 0, 0, 0xFFFF, a, b] => "::ffff:" ++ textV4 (Bytes.ofNat 2 a ++ Bytes.ofNat 2 b)
    | _ =>
      let (start, run) := longestRun groups
      if run < 2 then textGroups groups
      else textGroups (groups.take start) ++ "::" ++ textGroups (groups.drop (start + run))

end Address

/-- An address with a port. -/
structure SocketAddress where
  address : Address
  port : Nat
  deriving Repr, DecidableEq

/-- The text of an address with a port. -/
def SocketAddress.text (s : SocketAddress) : String :=
  match s.address with
  | .v4 _ => s.address.text ++ ":" ++ Text.decimal s.port
  | .v6 _ => "[" ++ s.address.text ++ "]:" ++ Text.decimal s.port

end Enrollment.Net
