import Ghostd.Lib.Numeral
import Mathlib.Data.List.Basic

/-!
# `Ghostd.Lib.Netip`: IP addresses and prefixes as Go's `net/netip` has them

An `Addr` is a number below `2 ^ 32` or `2 ^ 128` with its family, and for IPv6 a zone. A
`Prefix` is an address and a length. Membership is equality of the leading bits, which on
numbers is equality of two quotients.

The text forms follow `netip.ParseAddr`, `netip.ParsePrefix` and `Addr.String`. Parsing
accepts every spelling Go accepts: upper-case and zero-padded groups, `::` anywhere, a dotted
tail. Printing gives the one canonical spelling: lower case, no padding, the first longest
run of at least two zero groups compressed, and a dotted tail exactly for an IPv4-mapped
address. `Ghostd.Lib.NetipText` proves that printing is undone by parsing.
-/

set_option autoImplicit false

namespace Ghostd.Lib

/-- The address families. -/
inductive Family where
  | v4 | v6
  deriving DecidableEq, Repr

/-- The width of an address of the family. -/
def Family.bits : Family → Nat
  | .v4 => 32
  | .v6 => 128

/-- `netip.Addr`. Only an IPv6 address has a zone. -/
structure Addr where
  family : Family
  value : Nat
  zone : String
  value_lt : value < 2 ^ family.bits
  zone_v4 : family = .v4 → zone = ""
  deriving DecidableEq

namespace Addr

/-- The address of a family with the given number, taken modulo its width. -/
def ofValue (f : Family) (n : Nat) : Addr where
  family := f
  value := n % 2 ^ f.bits
  zone := ""
  value_lt := Nat.mod_lt n (Nat.two_pow_pos _)
  zone_v4 _ := rfl

/-- Two addresses are the same when their family, number and zone are. -/
theorem ext' {a b : Addr} (hf : a.family = b.family) (hv : a.value = b.value)
    (hz : a.zone = b.zone) : a = b := by
  cases a
  cases b
  simp only at hf hv hz
  subst hf hv hz
  rfl

/-- `Addr.Is4`. -/
def is4 (a : Addr) : Bool := a.family = .v4

/-- `Addr.Is6`, which an IPv4-mapped address is too. -/
def is6 (a : Addr) : Bool := a.family = .v6

/-- `Addr.Is4In6`: an IPv4-mapped IPv6 address. -/
def is4In6 (a : Addr) : Bool := a.is6 && a.value / 2 ^ 32 = 0xffff

/-- `Addr.IsUnspecified`. -/
def isUnspecified (a : Addr) : Bool := a.value = 0 && a.zone = ""

/-- `Addr.IsMulticast`. An IPv4-mapped address counts as the address it maps. -/
def isMulticast (a : Addr) : Bool :=
  if a.is4 || a.is4In6 then a.value % 2 ^ 32 / 2 ^ 28 = 0xe else a.value / 2 ^ 120 = 0xff

/-- `Addr.Compare`: the width first, then the number, then the zone. -/
def compare (a b : Addr) : Ordering :=
  (Ord.compare a.family.bits b.family.bits).then
    ((Ord.compare a.value b.value).then (Ord.compare a.zone b.zone))

/-- `a.Compare(b) <= 0`. -/
def le (a b : Addr) : Bool := (a.compare b).isLE

/-- `Addr.Next`: nothing follows the last address. -/
def next (a : Addr) : Option Addr :=
  if h : a.value + 1 < 2 ^ a.family.bits then
    some { a with value := a.value + 1, value_lt := h }
  else none

end Addr

/-! ### Prefixes -/

/-- `netip.Prefix`: it has no zone and at most as many bits as its address. -/
structure Prefix where
  addr : Addr
  bits : Nat
  bits_le : bits ≤ addr.family.bits
  no_zone : addr.zone = ""
  deriving DecidableEq

namespace Prefix

/-- The number of addresses of the prefix. -/
def size (p : Prefix) : Nat := 2 ^ (p.addr.family.bits - p.bits)

theorem size_pos (p : Prefix) : 0 < p.size := Nat.two_pow_pos _

/-- `Prefix.Masked`: clear the bits behind the prefix. -/
def masked (p : Prefix) : Prefix where
  addr :=
    { p.addr with
        value := p.addr.value / p.size * p.size
        value_lt := Nat.lt_of_le_of_lt (Nat.div_mul_le_self _ _) p.addr.value_lt }
  bits := p.bits
  bits_le := p.bits_le
  no_zone := p.no_zone

/-- `Prefix.Contains`. -/
def contains (p : Prefix) (a : Addr) : Bool :=
  a.zone = "" && a.family = p.addr.family && a.value / p.size = p.addr.value / p.size

/-- `Prefix.Overlaps`: the leading bits agree as far as the shorter prefix goes. -/
def overlaps (p o : Prefix) : Bool :=
  p.addr.family = o.addr.family &&
    p.addr.value / max p.size o.size = o.addr.value / max p.size o.size

end Prefix

/-! ### Parsing -/

/-- Four octets as one number. -/
def ofOctets (a b c d : Nat) : Nat := ((a * 256 + b) * 256 + c) * 256 + d

/-- A decimal octet. -/
def readOctet (cs : List Char) : Option Nat :=
  (readDecimal cs).filter (· < 256)

/-- A dotted IPv4 address. -/
def readIPv4 (cs : List Char) : Option Nat :=
  match cs.splitOn '.' with
  | [a, b, c, d] => do
    let a ← readOctet a
    let b ← readOctet b
    let c ← readOctet c
    let d ← readOctet d
    pure (ofOctets a b c d)
  | _ => none

/-- A group of at most four hexadecimal digits. -/
def readGroup (cs : List Char) : Option Nat :=
  if cs = [] ∨ 4 < cs.length then none else readDigits 16 0 cs

/-- Groups, the last of which can be a dotted address that stands for two. -/
def readGroups : List (List Char) → Option (List Nat)
  | [] => some []
  | [f] =>
    if '.' ∈ f then (readIPv4 f).map fun n => [n / 65536, n % 65536]
    else (readGroup f).map ([·])
  | f :: rest => do
    let g ← readGroup f
    let gs ← readGroups rest
    pure (g :: gs)

/-- The text before and after the first `::`. -/
def splitEllipsis : List Char → Option (List Char × List Char)
  | ':' :: ':' :: rest => some ([], rest)
  | c :: rest => (splitEllipsis rest).map fun p => (c :: p.1, p.2)
  | [] => none

/-- The colon-separated fields; an empty text has none. -/
def colonFields (cs : List Char) : List (List Char) :=
  if cs = [] then [] else cs.splitOn ':'

/-- The eight groups of an IPv6 address without its zone. An ellipsis stands for at least
one group of zeros. -/
def readIPv6Groups (cs : List Char) : Option (List Nat) :=
  match splitEllipsis cs with
  | none => (readGroups (cs.splitOn ':')).filter fun gs => gs.length = 8
  | some (l, r) => do
    let gl ← (colonFields l).mapM readGroup
    let gr ← readGroups (colonFields r)
    if gl.length + gr.length ≤ 7 then
      pure (gl ++ List.replicate (8 - (gl.length + gr.length)) 0 ++ gr)
    else none

/-- Groups as one number. -/
def ofGroups (gs : List Nat) : Nat := gs.foldl (fun acc g => acc * 65536 + g) 0

/-- An IPv6 address with its zone, if the text gives one; an empty zone is refused. -/
def readIPv6 (cs : List Char) : Option Addr := do
  let gs ← readIPv6Groups (cs.takeWhile (· ≠ '%'))
  let a := Addr.ofValue .v6 (ofGroups gs)
  match cs.dropWhile (· ≠ '%') with
  | [] => pure a
  | _ :: [] => none
  | _ :: zone =>
    pure { a with zone := String.ofList zone, zone_v4 := fun h => absurd h (by simp [a, Addr.ofValue]) }

/-- `netip.ParseAddr`: the first dot or colon decides the family. -/
def parseAddr (s : String) : Option Addr :=
  match s.toList.find? (fun c => c = '.' || c = ':' || c = '%') with
  | some '.' => (readIPv4 s.toList).map (Addr.ofValue .v4)
  | some ':' => readIPv6 s.toList
  | _ => none

/-- The text before and after the last slash. -/
def splitSlash (cs : List Char) : Option (List Char × List Char) :=
  if '/' ∈ cs then
    let tail := (cs.reverse.takeWhile (· ≠ '/')).reverse
    some (cs.take (cs.length - tail.length - 1), tail)
  else none

/-- `netip.ParsePrefix`. -/
def parsePrefix (s : String) : Option Prefix := do
  let (l, r) ← splitSlash s.toList
  let a ← parseAddr (String.ofList l)
  let bits ← readDecimal r
  if h : bits ≤ a.family.bits ∧ a.zone = "" then
    pure { addr := a, bits := bits, bits_le := h.1, no_zone := h.2 }
  else none

/-! ### Printing -/

/-- A dotted IPv4 address. -/
def printIPv4 (n : Nat) : List Char :=
  ['.'].intercalate
    [Nat.toDigits 10 (n / 2 ^ 24 % 256), Nat.toDigits 10 (n / 2 ^ 16 % 256),
      Nat.toDigits 10 (n / 2 ^ 8 % 256), Nat.toDigits 10 (n % 256)]

/-- The eight groups of a number. -/
def groupsOf (n : Nat) : List Nat :=
  (List.range 8).map fun i => n / 65536 ^ (7 - i) % 65536

/-- How many zero groups start at `i`. -/
def zerosAt (gs : List Nat) (i : Nat) : Nat := ((gs.drop i).takeWhile (· = 0)).length

/-- One step of the search for the run to compress: position `i` wins when its run has at
least two groups and is longer than the best so far. -/
def betterRun (gs : List Nat) (best : Option (Nat × Nat)) (i : Nat) : Option (Nat × Nat) :=
  if 2 ≤ zerosAt gs i ∧ (best.map (·.2)).getD 0 < zerosAt gs i then some (i, zerosAt gs i) else best

/-- The first longest run of zero groups: where it starts and how long it is. -/
def longestRun (gs : List Nat) : Option (Nat × Nat) :=
  (List.range 8).foldl (betterRun gs) none

/-- Groups in hexadecimal, separated by colons. -/
def printGroups (gs : List Nat) : List Char :=
  [':'].intercalate (gs.map (Nat.toDigits 16))

/-- Eight groups, with the run of zeros compressed. -/
def printIPv6 (gs : List Nat) : List Char :=
  match longestRun gs with
  | none => printGroups gs
  | some (i, len) => printGroups (gs.take i) ++ [':', ':'] ++ printGroups (gs.drop (i + len))

/-- `Addr.String`, as characters. -/
def Addr.chars (a : Addr) : List Char :=
  let body :=
    match a.family with
    | .v4 => printIPv4 a.value
    | .v6 =>
      if a.is4In6 then [':', ':', 'f', 'f', 'f', 'f', ':'] ++ printIPv4 (a.value % 2 ^ 32)
      else printIPv6 (groupsOf a.value)
  if a.zone = "" then body else body ++ '%' :: a.zone.toList

/-- `Addr.String`. -/
def Addr.text (a : Addr) : String := String.ofList a.chars

/-- `Prefix.String`. -/
def Prefix.text (p : Prefix) : String :=
  String.ofList (p.addr.chars ++ '/' :: Nat.toDigits 10 p.bits)

end Ghostd.Lib
