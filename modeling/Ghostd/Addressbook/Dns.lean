import Ghostd.Addressbook.Store
import Ghostd.Lib.Arpa

/-!
# `Ghostd.Addressbook.Dns`: authoritative answers from the ledger

`internal/addressbook/dns.go`, with `DNSBindings` and `Revision` of `internal/addressbook/store.go`.
`serveDNS` is `ServeDNS`. A name is looked for in the scopes in their order, and a scope matches by its
zone or, for a name in the reverse tree, by its subnet. What is found in the ledger becomes the answer.

A query is its list of questions, and a reply is what the handler fills in: the header bits that the
library copies from the query are left out. Names come from the wire in presentation form, which is
ASCII. The configuration is one that was accepted, so that a subnet parses where the source panics.
The instant is read once.
-/

set_option autoImplicit false

namespace Ghostd.Addressbook

open Ghostd.Lib

/-! ### Messages -/

/-- The types of questions that the code tells apart. -/
inductive QType where
  | a | ns | soa | ptr | aaaa
  | other (code : Nat)
  deriving DecidableEq, Repr

structure Question where
  name : String
  qtype : QType
  /-- The class is `IN`. -/
  inet : Bool := true
  deriving DecidableEq, Repr

structure SOA where
  ns : String
  mbox : String
  serial : Nat
  refresh : Nat
  retry : Nat
  expire : Nat
  minttl : Nat
  deriving DecidableEq, Repr

/-- The data of a record. An address that does not parse is missing. -/
inductive RData where
  | a (ip : IP)
  | aaaa (ip : Option IP)
  | ptr (target : String)
  | ns (host : String)
  | soa (data : SOA)
  deriving DecidableEq, Repr

/-- A record of class `IN`. -/
structure RR where
  name : String
  rrtype : QType
  ttl : Nat
  data : RData
  deriving DecidableEq, Repr

inductive Rcode where
  | success | formatError | nameError | refused
  deriving DecidableEq, Repr

structure Reply where
  question : Question
  authoritative : Bool := true
  rcode : Rcode := .success
  answer : List RR := []
  ns : List RR := []
  deriving DecidableEq, Repr

/-- What the handler does with a query: it hands it on to the next plugin, leaves an error code to the
server, or writes a reply. -/
inductive Handled where
  | next
  | code (rcode : Rcode)
  | reply (r : Reply)
  deriving DecidableEq, Repr

/-! ### Reading the ledger -/

/-- The binding is active and its end has not come. -/
def Binding.current (b : Binding) (now : Int) : Bool := b.state = .active && now < b.endsAt

/-- `DNSBindings`: the binding at an address of the scope or, without an address, those behind the
entries of the name in the DNS index. -/
def Ledger.dnsBindings (L : Ledger) (now : Int) (scope name address : String) : List Binding :=
  if address ≠ "" then
    ((L.bindings.get (bindingKey scope address)).filter (·.current now)).toList
  else
    L.dns.entries.filterMap fun e =>
      if startsWith e.1 (scope ++ "/" ++ name ++ "/") then (L.bindings.get e.2).filter (·.current now)
      else none

/-- `Revision`: the number of the last event, in 32 bits. -/
def Ledger.revision (L : Ledger) : Nat := L.sequence % 2 ^ 32

/-! ### Names -/

/-- The nibbles of a name under `ip6.arpa`, from the last label to the first. -/
def reverseIP6 (parts : List String) : Option Addr :=
  if parts.length ≠ 32 ∨ parts.any fun p => byteLength p ≠ 1 then none
  else (decodeHex (joinText parts.reverse "")).bind addrFromSlice

/-- The octets of a name under `in-addr.arpa`, from the last label to the first. -/
def reverseIP4 : List String → Option Addr
  | [d, c, b, a] => parseAddr (a ++ "." ++ b ++ "." ++ c ++ "." ++ d)
  | _ => none

/-- `reverseIP`: the address that a name of the reverse tree stands for. -/
def reverseIP (name : String) : Option Addr :=
  if endsWith name ".ip6.arpa." then reverseIP6 (splitText (trimEnd name ".ip6.arpa.") ".")
  else if endsWith name ".in-addr.arpa." then
    reverseIP4 (splitText (trimEnd name ".in-addr.arpa.") ".")
  else none

/-- The apex of a zone. -/
def apex (zone : String) : String := zone ++ "."

/-- The name of a label in a zone. -/
def inZone (label zone : String) : String := label ++ "." ++ zone ++ "."

/-- The name is the zone's or below it. -/
def withinZone (name zone : String) : Bool := name = apex zone || endsWith name (inZone "" zone)

/-- The address is in the subnet of the scope. -/
def Scope.holds (s : Scope) (ip : Addr) : Bool := (parsePrefix s.subnet).elim false (·.contains ip)

/-- The loop over the scopes: the first that matches, and the address if it matches by its subnet. -/
def scopeFor (c : Config) (name : String) : Option (Scope × Option Addr) :=
  c.scopes.findSome? fun s =>
    if withinZone name s.zone then some (s, none)
    else ((reverseIP name).filter s.holds).map fun ip => (s, some ip)

/-- The label to look up and the owner it is found under: each alias that the label equals replaces it
by the name of its device. -/
def resolveAliases (c : Config) (zone label name : String) : String × String :=
  c.devices.foldl
    (fun found d =>
      d.aliases.foldl
        (fun (found : String × String) other =>
          if found.1 = other then (d.name, inZone d.name zone) else found)
        found)
    (label, name)

/-! ### Answers -/

/-- The binding belongs to the name that is asked for. -/
def Binding.owns (b : Binding) (zone name lookupName : String) (reverse : Option Addr) : Bool :=
  match reverse with
  | none => inZone b.name zone = lookupName
  | some _ => reverseAddr b.address = name

/-- At most 30 seconds, and not longer than the lease, as 32 bits. -/
def leaseTTL (b : Binding) (now : Int) : Nat :=
  ((if b.endsAt - now < 30 then b.endsAt - now else 30) % 2 ^ 32).toNat

/-- The records of an address under a type: none if the type asks for another family. -/
def addressRecords (q : Question) (ttl : Nat) (address : String) : List RR :=
  match q.qtype, parseIP address with
  | .a, some ip => if IP.is4 ip then [⟨q.name, q.qtype, ttl, .a ip⟩] else []
  | .aaaa, some ip => if IP.is4 ip then [] else [⟨q.name, q.qtype, ttl, .aaaa (some ip)⟩]
  | .aaaa, none => [⟨q.name, q.qtype, ttl, .aaaa none⟩]
  | _, _ => []

/-- The records of a binding that belongs to the name. -/
def leaseRecords (q : Question) (zone : String) (reverse : Option Addr) (now : Int) (b : Binding) :
    List RR :=
  match reverse with
  | none => addressRecords q (leaseTTL b now) b.address
  | some _ =>
    if q.qtype = .ptr then [⟨q.name, q.qtype, leaseTTL b now, .ptr (inZone b.name zone)⟩] else []

/-- The bindings that the name is answered from, in the scopes of the zone. -/
def owned (c : Config) (L : Ledger) (now : Int) (scope : Scope) (name : String) (reverse : Option Addr) :
    List Binding :=
  let label := trimEnd name (inZone "" scope.zone)
  let (label, lookupName) :=
    match reverse with
    | none => resolveAliases c scope.zone label name
    | some _ => (label, name)
  let address := reverse.elim "" Addr.text
  ((c.scopes.filter fun s => s.zone = scope.zone).flatMap fun s =>
      L.dnsBindings now s.id label address).filter fun b =>
    b.current now && b.owns scope.zone name lookupName reverse

/-- The start of authority. A name in the reverse tree is a zone of its own, which claims nothing beside
it. -/
def soaRecord (L : Ledger) (q : Question) (zone : String) (reverse : Option Addr) : RR :=
  { name := if reverse.isSome then q.name else apex zone
    rrtype := .soa
    ttl := 1
    data := .soa
      { ns := inZone "ns" zone, mbox := inZone "hostmaster" zone, serial := L.revision,
        refresh := 30, retry := 5, expire := 300, minttl := 1 } }

/-- The records that come from the configuration: the servers of the zone under the name `ns`, and the
authority at the apex. -/
def configuredRecords (c : Config) (L : Ledger) (q : Question) (name zone : String)
    (reverse : Option Addr) : List RR :=
  (if name = inZone "ns" zone then
    (c.scopes.filter fun s => s.zone = zone).flatMap fun s => addressRecords q 30 s.server else []) ++
  (if name = apex zone ∧ q.qtype = .soa then [soaRecord L q zone reverse] else []) ++
  (if name = apex zone ∧ q.qtype = .ns then [⟨q.name, .ns, 30, .ns (inZone "ns" zone)⟩] else [])

/-- The reply for a scope that matches. -/
def authoritative (c : Config) (L : Ledger) (now : Int) (q : Question) (name : String) (scope : Scope)
    (reverse : Option Addr) : Reply :=
  let bindings := owned c L now scope name reverse
  let found : Bool := name = apex scope.zone || !bindings.isEmpty || name = inZone "ns" scope.zone
  let answer := bindings.flatMap (leaseRecords q scope.zone reverse now) ++
    configuredRecords c L q name scope.zone reverse
  { question := q
    rcode := if found then .success else .nameError
    answer := answer
    ns := if answer.isEmpty then [soaRecord L q scope.zone reverse] else [] }

/-- `ServeDNS`. -/
def serveDNS (c : Config) (L : Ledger) (now : Int) : List Question → Handled
  | [q] =>
    let name := toLower q.name
    match scopeFor c name with
    | none => .next
    | some (scope, reverse) =>
      if !q.inet then .code .refused else .reply (authoritative c L now q name scope reverse)
  | _ => .code .formatError

end Ghostd.Addressbook
