import Ghostd.Mdns.Nat

/-!
# `Ghostd.Mdns.Service`: the service that runs a configuration

A configuration is resolved against the interfaces of the host into a plan (`planRules`), and a running set
is started with it. The service runs one set at a time: the ports are bound exclusively, so `Apply` has to
stop the old set before it can start the new one, and starts the old one again if that fails.

Whether a set can be started depends on the host: its interfaces, the ports that other daemons hold, the
names that are taken on the network. An attempt to start is a function of the configuration, and each
attempt may be another one.
-/

set_option autoImplicit false

namespace Ghostd.Mdns

open Ghostd.Lib

section Plans

variable (glob : String → String → Option Bool)

/-- `endpointLimit`. -/
def endpointLimit : Nat := 32

/-- `endpoints`: the interfaces that an end of a rule names. -/
def endpoints (name : String) (all : List Interface) : Except String (List Interface) :=
  if !containsAny name patternChars then
    match all.find? (·.name = name) with
    | none => .error ("mdns: interface " ++ name ++ ": not found")
    | some i =>
      if i.multicast then .ok [i] else .error ("mdns: interface " ++ name ++ " is not multicast capable")
  else if all.any fun i => (glob name i.name).isNone then
    .error ("mdns: bad interface pattern " ++ quoted name ++ ": syntax error in pattern")
  else
    let matched := all.filter fun i => glob name i.name = some true
    let out := matched.filter fun i => i.multicast && i.up
    if out.length > endpointLimit then
      .error ("mdns: pattern " ++ quoted name ++ " matches " ++ toString out.length ++ " interfaces, more than " ++
        toString endpointLimit)
    else if out.length = 0 then
      .error ("mdns: pattern " ++ quoted name ++ " matches no usable interface (" ++
        toString (matched.length - out.length) ++ " matched but were not up and multicast capable)")
    else .ok out

/-- `plan`: a configuration's rules, resolved. -/
structure Plan where
  ifaces : Bucket Int Interface := .empty
  advertise : Finset Int := ∅
  edges : List Relaying := []
  nats : List NatRule := []

/-- An interface to advertise on. -/
def Plan.addAdvertised (all : List Interface) (pl : Plan) (name : String) : Except String Plan := do
  match ← endpoints glob name all with
  | [] => pure pl
  | i :: _ => pure { pl with ifaces := pl.ifaces.put i.index i, advertise := insert i.index pl.advertise }

/-- The interfaces to advertise on, if there are records for them. -/
def Plan.advertised (cfg : Config) (all : List Interface) : Except String Plan :=
  if cfg.records.length > 0 then cfg.interfaces.foldlM (Plan.addAdvertised glob all) {} else pure {}

/-- One pair of ends of a rule. A domain is never its own peer. -/
def Plan.addPair (rule : ReflectRule) (pl : Plan) (ends : Interface × Interface) : Except String Plan :=
  if ends.1.index = ends.2.index then pure pl
  else
    match rule.advertise with
    | none => pure { pl with edges := pl.edges ++ [⟨rule, ends.1.index, ends.2.index⟩] }
    | some cfg => do
      let n ← NatRule.newNATRule cfg ends.1 ends.2
      pure { pl with nats := pl.nats ++ [n] }

/-- One rule, for every pair of interfaces that its ends name. -/
def Plan.addRule (all : List Interface) (pl : Plan) (rule : ReflectRule) : Except String Plan := do
  let froms ← endpoints glob rule.fromEnd all
  let tos ← endpoints glob rule.toEnd all
  let ifaces := (froms ++ tos).foldl (fun ifaces i => ifaces.put i.index i) pl.ifaces
  (froms.flatMap fun i => tos.map fun j => (i, j)).foldlM (Plan.addPair rule) { pl with ifaces := ifaces }

/-- `planRules`. The rules that publish on an interface share its pool, which starts empty. -/
def planRules (cfg : Config) (all : List Interface) : Except String Plan := do
  let pl ← Plan.advertised glob cfg all
  cfg.reflect.foldlM (Plan.addRule glob all) pl

end Plans

/-! ### Publishing on an interface -/

/-- The rules that publish on one interface, and the pool that they share. -/
structure Publishing where
  rules : List NatRule
  pool : Ports

/-- What the plan starts with. -/
def Plan.publishing (pl : Plan) (index : Int) : Publishing := ⟨pl.nats.filter (·.dest.index = index), .empty⟩

/-- What happens to the rules: one of them is given a response, or swept. -/
inductive NatEvent where
  | learn (rule : Nat) (now : Int) (subnet : List Prefix) (order : Order) (m : Msg)
  | expire (rule : Nat) (now : Int) (order : Order)

def Publishing.step (s : Publishing) : NatEvent → Publishing
  | .learn rule now subnet order m =>
    match s.rules[rule]? with
    | none => s
    | some n =>
      let l := n.learn s.pool now subnet order m
      ⟨s.rules.set rule l.rule, l.pool⟩
  | .expire rule now order =>
    match s.rules[rule]? with
    | none => s
    | some n =>
      let (n, pool, _) := n.expire s.pool now order
      ⟨s.rules.set rule n, pool⟩

/-! ### Running -/

/-- `running`: a set that has been started, with the configuration it answers for. -/
structure Running where
  cfg : Config
  plan : Plan

/-- An attempt to start a configuration. -/
abbrev Start := Config → Except String Plan

/-- `Service.start`. -/
def Start.running (attempt : Start) (cfg : Config) : Except String Running := (attempt cfg).map (⟨cfg, ·⟩)

/-- `Service`, with what `Config` returns. -/
structure Service where
  cfg : Config
  run : Option Running

namespace Service

/-- `NewService`. -/
def new : Service := ⟨{}, none⟩

/-- `Service.Apply`: the attempt to start the new configuration, and the one to start the old set again. -/
def apply (glob : String → String → Option Bool) (attempt again : Start) (s : Service) (cfg : Config) :
    Except String Unit × Service :=
  match cfg.validate glob with
  | .error e => (.error e, s)
  | .ok () =>
    let old := s.run
    let s := { s with run := none }
    if cfg.empty then (.ok (), { s with cfg := cfg })
    else
      match attempt.running cfg with
      | .ok r => (.ok (), ⟨cfg, some r⟩)
      | .error e =>
        match old with
        | none => (.error e, s)
        | some _ =>
          match again.running s.cfg with
          | .ok restored => (.error e, { s with run := some restored })
          | .error _ => (.error e, s)

/-- `Service.Close`. -/
def close (s : Service) : Service := { s with run := none }

/-- One round of `watchMDNS` with the target that is stored. A target that is the service's own
configuration is taken for converged. -/
def watch (glob : String → String → Option Bool) (attempt again : Start) (s : Service) (want : Config) : Service :=
  if want ≠ s.cfg then (s.apply glob attempt again want).2 else s

end Service

end Ghostd.Mdns
