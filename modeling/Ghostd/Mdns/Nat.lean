import Ghostd.Lib.Bucket
import Ghostd.Mdns.Reflect

/-!
# `Ghostd.Mdns.Nat`: services that are published on another interface

A translating rule learns the service instances that are announced on its source and publishes them on
another interface, each with a port from a pool. Every rule that publishes on an interface takes its ports
from the same pool, which records who holds a port. The pool is shared, so it is passed to the functions
beside the rule and returned with it.

A rule keeps its instances in a map by the normal form of their name, and computes the key of an
instance again from its parts where it removes it or asks the pool.

Go visits the entries of a map in an order of its own. It matters here, since ports are given out on the
way, and it is an argument of the functions that range over the instances.
-/

set_option autoImplicit false

namespace Ghostd.Mdns

open Ghostd.Lib

/-! ### The data -/

/-- `net.Interface`, with the flags that are read. -/
structure Interface where
  index : Int
  name : String
  multicast : Bool := true
  up : Bool := true
  deriving DecidableEq, Repr

/-- `ports`: the ports that are in use on one interface, and by whom. -/
abbrev Ports := Bucket Nat String

/-- `natInstance`. No port is port 0, and no time is `none`. -/
structure NatInstance where
  service : String
  /-- The display name, which need not be text. -/
  «instance» : List Nat
  txt : List String := []
  subtypes : Finset String := ∅
  port : Nat := 0
  host : String := ""
  ip : Option Addr := none
  hostPort : Nat := 0
  expires : Option Int := none
  deriving DecidableEq

/-- `natHost`: the addresses that a host has announced. -/
structure NatHost where
  ips : List Addr
  exp : Int
  deriving DecidableEq

/-- `natRule`, without the pool and without what only the answers on the other interface read. -/
structure NatRule where
  f : Filter
  lo : Nat
  hi : Nat
  source : Interface
  dest : Interface
  insts : Bucket String NatInstance := .empty
  hosts : Bucket String NatHost := .empty
  removed : List NatInstance := []

/-- An order in which Go visits the keys of a map. -/
abbrev Order := { visit : List String → List String // ∀ keys, (visit keys).Perm keys }

/-! ### Keys and ports -/

/-- `unescapeKeepCase`: the display name of an owner name. -/
def unescapeKeepCase (name cls : String) : List Nat :=
  unescape 0 (utf8Bytes (trimEnd (trimEnd (trimEnd name ".") ".local") ("." ++ cls)))

/-- `natInstance.key`. -/
def NatInstance.key (i : NatInstance) : String := normBytes (i.instance ++ utf8Bytes ("." ++ i.service ++ ".local."))

/-- `hash/fnv`, the 32-bit FNV-1a hash. -/
def fnv32a (bytes : List Nat) : Nat := bytes.foldl (fun h b => (h ^^^ b) * 16777619 % 2 ^ 32) 2166136261

namespace NatRule

/-- `newNATRule`. -/
def newNATRule (cfg : NATConfig) (source dest : Interface) : Except String NatRule := do
  let (lo, hi) ← cfg.portRange
  pure { f := newFilter cfg.services, lo := lo, hi := hi, source := source, dest := dest }

/-- `natRule.owner`: what holds a pooled port. -/
def owner (n : NatRule) (i : NatInstance) : String := n.source.name ++ "|" ++ i.key

/-- Where the search for a port starts. -/
def firstPort (n : NatRule) (i : NatInstance) : Nat :=
  fnv32a (utf8Bytes (n.source.name ++ "|" ++ i.ip.elim "invalid IP" Addr.text ++ "|" ++ toString i.port)) %
    (n.hi - n.lo + 1)

/-- `natRule.allocate`: the port that the instance gets, from the first one on that is free or its own. -/
def allocate (n : NatRule) (pool : Ports) (i : NatInstance) : Option (Nat × Ports) :=
  let size := n.hi - n.lo + 1
  let candidates := (List.range size).map fun k => n.lo + (n.firstPort i + k) % size
  (candidates.find? fun p => (pool.get p).elim true (· = n.owner i)).map fun p => (p, pool.put p (n.owner i))

/-- `natRule.release`: the instance keeps its port, so that a goodbye can name it. -/
def release (n : NatRule) (pool : Ports) (i : NatInstance) : Ports :=
  if i.hostPort = 0 then pool
  else if pool.get i.hostPort = some (n.owner i) then pool.delete i.hostPort
  else pool

/-- `natRule.drop`. -/
def drop (n : NatRule) (pool : Ports) (i : NatInstance) : NatRule × Ports :=
  let left := { n with insts := n.insts.delete i.key }
  if i.hostPort ≠ 0 then ({ left with removed := n.removed ++ [i] }, n.release pool i) else (left, pool)

end NatRule

/-- `mapTarget`: the address that a service is mapped to, on the network of the source. -/
def mapTarget (subnet : List Prefix) (ips : List Addr) : Option Addr :=
  let usable (ip : Addr) : Bool :=
    ip.is4 && !(ip.value / 2 ^ 24 = 127) && !(ip.value / 2 ^ 16 = 0xa9fe) && !ip.isMulticast && !ip.isUnspecified
  ips.find? fun ip => usable ip && subnet.any (·.contains ip)

/-! ### Learning -/

/-- What `learn` works on: the rule and the pool, the hosts that the message announces, and whether
something has changed. -/
structure Learning where
  rule : NatRule
  pool : Ports
  announced : Bucket String NatHost := .empty
  changed : Bool := false

namespace Learning

/-- The local function `ensure`: the key of the instance with the name, which is made if there is none. -/
def ensure (l : Learning) (name : String) : Option String × Learning :=
  match classOf name with
  | none => (none, l)
  | some cls =>
    if cls ∉ l.rule.f.allow then (none, l)
    else
      match l.rule.insts.get (norm name) with
      | some _ => (some (norm name), l)
      | none =>
        let i : NatInstance := { service := cls, «instance» := unescapeKeepCase name cls }
        (some (norm name), { l with rule := { l.rule with insts := l.rule.insts.put (norm name) i } })

/-- Change the instance under a key. `none` is no change. -/
def update (l : Learning) (key : String) (change : NatInstance → Option NatInstance) (changed : Bool) : Learning :=
  match (l.rule.insts.get key).bind change with
  | none => l
  | some i =>
    { l with rule := { l.rule with insts := l.rule.insts.put key i }, changed := l.changed || changed }

/-- A goodbye for the instance under a key. -/
def goodbye (l : Learning) (key : String) : Learning :=
  match l.rule.insts.get key with
  | none => l
  | some i =>
    let (rule, pool) := l.rule.drop l.pool i
    { l with rule := rule, pool := pool, changed := true }

/-- An address record. -/
def address (now : Int) (l : Learning) (rr : RR) (ip : BitVec 32) : Learning :=
  let host := norm rr.name
  if rr.ttl = 0 then { l with rule := { l.rule with hosts := l.rule.hosts.delete host } }
  else
    let exp := now + rr.ttl.toNat * second
    let a := (l.announced.get host).elim ⟨[], exp⟩ fun a => { a with exp := max a.exp exp }
    { l with announced := l.announced.put host { a with ips := a.ips ++ [.ofValue .v4 ip.toNat] } }

/-- A pointer to an instance, which may be one of a subtype. -/
def pointer (l : Learning) (rr : RR) (target : String) : Learning :=
  match classOf rr.name with
  | none => l
  | some cls =>
    if cls ∉ l.rule.f.allow then l
    else if rr.ttl = 0 then l.goodbye (norm target)
    else
      match l.ensure target with
      | (none, l) => l
      | (some key, l) =>
        if 1 < (splitText (norm rr.name) "._sub.").length then
          let sub := (splitText (norm rr.name) ".").headD ""
          l.update key (fun i => if sub ∈ i.subtypes then none else some { i with subtypes := insert sub i.subtypes })
            true
        else l

/-- The instance at the place that a service record gives it, if that is another one. -/
def moved (host : String) (port : Nat) (i : NatInstance) : Option NatInstance :=
  if i.host ≠ host ∨ i.port ≠ port then some { i with host := host, port := port } else none

/-- A service record: where the instance is, and for how long. -/
def service (now : Int) (l : Learning) (rr : RR) (port : BitVec 16) (target : String) : Learning :=
  if rr.ttl = 0 then l.goodbye (norm rr.name)
  else
    match l.ensure rr.name with
    | (none, l) => l
    | (some key, l) =>
      let l := l.update key (moved (norm target) port.toNat) true
      l.update key (fun i => some { i with expires := some (now + rr.ttl.toNat * second) }) false

/-- A text record. The instance is made before the lifetime is looked at. -/
def text (l : Learning) (rr : RR) (txt : List String) : Learning :=
  match l.ensure rr.name with
  | (none, l) => l
  | (some key, l) =>
    if rr.ttl = 0 then l
    else
      l.update key
        (fun i => if joinText i.txt "\x00" ≠ joinText txt "\x00" then some { i with txt := txt } else none) true

/-- One record of the message. -/
def record (now : Int) (l : Learning) (rr : RR) : Learning :=
  match rr.data with
  | .a (some ip) => l.address now rr ip
  | .a none => l
  | .ptr target => l.pointer rr target
  | .srv port target => l.service now rr port target
  | .txt txt => l.text rr txt
  | .other => l

/-- An instance is publishable once its host's address is known and it has a port. -/
def publish (now : Int) (subnet : List Prefix) (l : Learning) (key : String) : Learning :=
  match l.rule.insts.get key with
  | none => l
  | some i =>
    match l.rule.hosts.get i.host with
    | none => l
    | some host =>
      if ¬ now < host.exp ∨ i.port = 0 then l
      else
        match mapTarget subnet host.ips with
        | none => l
        | some ip =>
          if i.ip ≠ some ip ∨ i.hostPort = 0 then
            let pool := l.rule.release l.pool i
            let i := { i with hostPort := 0, ip := some ip }
            match l.rule.allocate pool i with
            | none => { l with rule := { l.rule with insts := l.rule.insts.put key i }, pool := pool }
            | some (p, pool) =>
              { l with
                rule := { l.rule with insts := l.rule.insts.put key { i with hostPort := p } }
                pool := pool
                changed := true }
          else l

end Learning

namespace NatRule

/-- The records of a message, and the hosts that it announces. -/
def learnRecords (n : NatRule) (pool : Ports) (now : Int) (m : Msg) : Learning :=
  let l := m.all.foldl (Learning.record now) { rule := n, pool := pool }
  let hosts := l.announced.entries.foldl (fun hosts e => hosts.put e.1 e.2) l.rule.hosts
  { l with rule := { l.rule with hosts := hosts } }

/-- `natRule.learn`. -/
def learn (n : NatRule) (pool : Ports) (now : Int) (subnet : List Prefix) (order : Order) (m : Msg) : Learning :=
  let l := n.learnRecords pool now m
  (order.1 (l.rule.insts.entries.map (·.1))).foldl (Learning.publish now subnet) l

/-- One instance of the sweep. -/
def expireOne (now : Int) (s : NatRule × Ports × Bool) (key : String) : NatRule × Ports × Bool :=
  match s.1.insts.get key with
  | none => s
  | some i =>
    match i.expires with
    | none => s
    | some t =>
      if now < t then s
      else
        let (n, pool) := s.1.drop s.2.1 i
        (n, pool, true)

/-- `natRule.expire`. -/
def expire (n : NatRule) (pool : Ports) (now : Int) (order : Order) : NatRule × Ports × Bool :=
  let (n, pool, changed) := (order.1 (n.insts.entries.map (·.1))).foldl (expireOne now) (n, pool, false)
  let hosts := n.hosts.entries.foldl (fun hosts e => if now < e.2.exp then hosts else hosts.delete e.1) n.hosts
  ({ n with hosts := hosts }, pool, changed)

/-- `natRule.published`: the instances that are advertised and mapped. -/
def published (n : NatRule) : List NatInstance :=
  ((n.insts.entries.map (·.2)).filter fun i => i.hostPort ≠ 0 && i.ip.isSome).insertionSort fun a b => a.key ≤ b.key

end NatRule

end Ghostd.Mdns
