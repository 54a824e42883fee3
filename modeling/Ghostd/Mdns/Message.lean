import Ghostd.Lib.Netip
import Ghostd.Lib.Utf8

/-!
# `Ghostd.Mdns.Message`: multicast DNS messages and the names in them

What the relay and the translation read of a message. The library decodes a record into a Go type for
its data beside a header with the type it was sent with; a record that was sent without data is a bare
header, so that the two need not agree, and the model keeps them apart.

Names are in presentation form, with a byte that is no printable character written as `\DDD`. `norm`
undoes that and folds the case, and everything that compares names compares what it returns. Lower-casing
is that of ASCII.
-/

set_option autoImplicit false

namespace Ghostd.Mdns

open Ghostd.Lib

/-! ### Messages -/

/-- The types of records and questions that the code tells apart. -/
inductive RRType where
  | a | aaaa | ptr | srv | txt | any
  | other (code : Nat)
  deriving DecidableEq, Repr

/-- The data of a record. -/
inductive RData where
  /-- An IPv4 address; `none` if the data is not one. -/
  | a (ip : Option (BitVec 32))
  | ptr (ptr : String)
  | srv (port : BitVec 16) (target : String)
  | txt (txt : List String)
  | other
  deriving DecidableEq, Repr

structure RR where
  name : String
  rrtype : RRType
  ttl : BitVec 32 := 0
  data : RData
  deriving DecidableEq, Repr

structure Question where
  name : String
  qtype : RRType
  deriving DecidableEq, Repr

structure Msg where
  id : BitVec 16 := 0
  response : Bool := false
  authoritative : Bool := false
  question : List Question := []
  answer : List RR := []
  extra : List RR := []
  deriving DecidableEq, Repr

/-- The answers and the additional records. -/
def Msg.all (m : Msg) : List RR := m.answer ++ m.extra

/-- Instants and durations are nanoseconds. -/
def second : Int := 1000000000

/-! ### Names -/

def backslash : Nat := 92

/-- The byte of an escape `\DDD`, from what follows the backslash. -/
def decimalEscape : List Nat → Option Nat
  | a :: b :: c :: _ =>
    if [a, b, c].all fun d => 48 ≤ d && d ≤ 57 then
      some ((a - 48) * 100 + (b - 48) * 10 + (c - 48)) |>.filter (· < 256)
    else none
  | _ => none

/-- The bytes without their escapes. The first argument counts the bytes still to be passed over. -/
def unescape : Nat → List Nat → List Nat
  | _, [] => []
  | skip + 1, _ :: rest => unescape skip rest
  | 0, c :: rest =>
    if c = backslash then
      match decimalEscape rest with
      | some n => n :: unescape 3 rest
      | none =>
        match rest.head? with
        | some next => next :: unescape 1 rest
        | none => [c]
    else c :: unescape 0 rest

/-- `norm`, of a string that need not be text. -/
def normBytes (name : List Nat) : String := toLower (decodeBytes (unescape 0 name))

/-- `norm`. -/
def norm (name : String) : String := normBytes (utf8Bytes name)

/-- The last `_type._proto` of labels that are given from the last to the first. -/
def classFrom : List String → Option String
  | [] => none
  | proto :: rest =>
    match rest.head? with
    | none => none
    | some service =>
      if (proto = "_tcp" ∨ proto = "_udp") ∧ startsWith service "_" then some (service ++ "." ++ proto)
      else classFrom rest

/-- `classOf`: the `_type._proto` that a DNS-SD name belongs to. -/
def classOf (name : String) : Option String :=
  let labels := splitText (trimEnd (norm name) ".") "."
  if labels.length < 3 ∨ labels.getLast? ≠ some "local" then none else classFrom labels.dropLast.reverse

/-- `enumerateName`: the DNS-SD service-type enumeration name. -/
def enumerateName : String := "_services._dns-sd._udp.local."

/-- `enumeration`. -/
def enumeration (q : Question) : Bool := q.qtype = .ptr && norm q.name = enumerateName

example : classOf "Den\\032Printer._sub._IPP._TCP.local." = some "_ipp._tcp" := by decide

example : classOf "printer.local." = none := by decide

end Ghostd.Mdns
