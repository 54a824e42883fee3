import Ghostd.Lib.Bucket
import Ghostd.Lib.Loop
import Ghostd.Mdns.Config
import Ghostd.Mdns.Message
import Mathlib.Data.Finset.Sort
import Mathlib.Data.List.Sort
import Mathlib.Data.String.Basic

/-!
# `Ghostd.Mdns.Reflect`: the directed relay

A rule exports the services of one interface to another. `planRelays` composes the rules into the pairs
of interfaces that a path connects, each with a filter for the classes that some path carries, and a
filter lets through what belongs to its classes: the records of a response and the questions of a query.
Hosts that an allowed service names can be resolved for two minutes.

A map of Go has no order. Where the code ranges over one, the result does not depend on it: the relays
are sorted at the end, and what is left after the expired hosts are deleted is the same in any order. So
maps are buckets here and are gone through in the order of their keys.
-/

set_option autoImplicit false

namespace Ghostd.Mdns

open Ghostd.Lib

/-! ### The filter of a pair -/

/-- `filter`. The clock that the source keeps in it is an argument of the functions that read it. -/
structure Filter where
  allow : Finset String
  all : Bool
  /-- The hosts that allowed services have named, and until when they can be resolved. -/
  hosts : Bucket String Int

/-- `newFilter`. -/
def newFilter (services : List String) : Filter :=
  services.foldl
    (fun f s => if s = "*" then { f with all := true } else { f with allow := insert (toLower s) f.allow })
    { allow := ∅, all := false, hosts := .empty }

namespace Filter

/-- What the filter says of a class. -/
def allows (f : Filter) (c : String) : Bool := f.all || c ∈ f.allow

/-- `filter.allowedName`. -/
def allowedName (f : Filter) (name : String) : Bool := (classOf name).elim false f.allows

/-- `filter.enumerable`: an enumeration answer that names a class the network may see. -/
def enumerable (f : Filter) (rr : RR) : Bool :=
  if rr.rrtype ≠ .ptr ∨ norm rr.name ≠ enumerateName then false
  else
    match rr.data with
    | .ptr target => f.allowedName target
    | _ => false

/-- How long a host can be resolved after a service has named it. -/
def grantTime : Int := 120 * second

/-- `filter.grant`. -/
def grant (now : Int) (f : Filter) (host : String) : Filter :=
  let hosts := f.hosts.entries.foldl (fun hosts e => if now < e.2 then hosts else hosts.delete e.1) f.hosts
  { f with hosts := if hosts.entries.length < 4096 then hosts.put (norm host) (now + grantTime) else hosts }

/-- `filter.granted`. -/
def granted (now : Int) (f : Filter) (host : String) : Bool :=
  match f.hosts.get (norm host) with
  | some expires => now < expires
  | none => false

/-- The questions that `Queries` keeps. -/
def mayAsk (now : Int) (f : Filter) (q : Question) : Bool :=
  f.allowedName q.name || enumeration q ||
    ((q.qtype = .a || q.qtype = .aaaa || q.qtype = .any) && f.granted now q.name)

/-- `filter.Queries`. -/
def queries (now : Int) (f : Filter) (m : Msg) : Option Msg :=
  let question := m.question.filter (f.mayAsk now)
  if question = [] then none
  else
    some
      { id := m.id
        question := question
        answer := m.answer.filter fun k => f.allowedName k.name || f.enumerable k }

/-- The hosts named by an allowed service's SRV become resolvable. -/
def grantNamed (now : Int) (f : Filter) (rr : RR) : Filter :=
  match rr.data with
  | .srv _ target => if f.allowedName rr.name then f.grant now target else f
  | _ => f

/-- The records that `Responses` keeps. -/
def keep (now : Int) (f : Filter) (rr : RR) : Bool :=
  match rr.rrtype with
  | .ptr => f.allowedName rr.name || f.enumerable rr
  | .srv | .txt => f.allowedName rr.name
  | .a | .aaaa => f.granted now rr.name
  | _ => false

/-- `filter.Responses`. -/
def responses (now : Int) (f : Filter) (m : Msg) : Option Msg × Filter :=
  let f := m.all.foldl (grantNamed now) f
  let out : Msg :=
    { response := true
      authoritative := true
      answer := m.answer.filter (f.keep now)
      extra := m.extra.filter (f.keep now) }
  (if out.answer = [] ∧ out.extra = [] then none else some out, f)

end Filter

/-! ### Sets of classes -/

/-- `classSet`: what a rule, or a pair reached through several rules, may carry. -/
structure ClassSet where
  all : Bool
  set : Finset String
  deriving DecidableEq

namespace ClassSet

/-- `classesOf`. -/
def classesOf (services : List String) : ClassSet :=
  services.foldl
    (fun cs s => if s = "*" then { cs with all := true } else { cs with set := insert (toLower s) cs.set })
    ⟨false, ∅⟩

/-- `classSet.empty`. -/
def empty (c : ClassSet) : Bool := !c.all && c.set.card = 0

/-- `classSet.intersect`. -/
def intersect (c o : ClassSet) : ClassSet :=
  if o.all then c else if c.all then o else ⟨false, c.set.filter (· ∈ o.set)⟩

/-- `classSet.union`. -/
def union (c o : ClassSet) : ClassSet := if c.all || o.all then ⟨true, ∅⟩ else ⟨false, c.set ∪ o.set⟩

/-- `classSet.equal`. -/
def equal (c o : ClassSet) : Bool :=
  if c.all ≠ o.all ∨ c.set.card ≠ o.set.card then false else c.set ⊆ o.set

/-- `classSet.services`. -/
def services (c : ClassSet) : List String := if c.all then ["*"] else c.set.sort

end ClassSet

/-! ### Planning -/

/-- `relaying`: a relay rule resolved to interface indexes. -/
structure Relaying where
  cfg : ReflectRule
  fromIndex : Int
  toIndex : Int

/-- `relay`: an effective pair. -/
structure Relay where
  fromIndex : Int
  toIndex : Int
  f : Filter

/-- The edges by the interface they start at. -/
def edgesFrom (rules : List Relaying) : Bucket Int (List Relaying) :=
  rules.foldl (fun byFrom e => byFrom.put e.fromIndex ((byFrom.get e.fromIndex).getD [] ++ [e])) .empty

/-- The state of the walk from one source: what is known to reach each interface, and the interfaces
whose edges are to be walked. -/
structure Walk where
  best : Bucket Int ClassSet
  queue : List Int

/-- The local function `push` of `planRelays`. -/
def Walk.push (w : Walk) (dest : Int) (cs : ClassSet) : Walk :=
  if cs.empty then w
  else
    match w.best.get dest with
    | some prev =>
      let merged := prev.union cs
      if prev.equal merged then w else ⟨w.best.put dest merged, w.queue ++ [dest]⟩
    | none => ⟨w.best.put dest cs, w.queue ++ [dest]⟩

/-- The walk of one edge. What reaches its start is read when its turn comes. -/
def Walk.follow (via : Int) (w : Walk) (e : Relaying) : Walk :=
  w.push e.toIndex (((w.best.get via).getD ⟨false, ∅⟩).intersect (ClassSet.classesOf e.cfg.allowServices))

/-- One round of the loop over the queue; `none` when the queue is empty. -/
def Walk.next (byFrom : Bucket Int (List Relaying)) (w : Walk) : Option Walk :=
  match w.queue with
  | [] => none
  | via :: queue => some (((byFrom.get via).getD []).foldl (Walk.follow via) { w with queue := queue })

/-- The edges of the source itself. -/
def Walk.start (edges : List Relaying) : Walk :=
  edges.foldl (fun w e => w.push e.toIndex (ClassSet.classesOf e.cfg.allowServices)) ⟨.empty, []⟩

/-- The relays of one source. A domain never receives its own records back. -/
def relaysFrom (source : Int) (best : Bucket Int ClassSet) : List Relay :=
  best.entries.filterMap fun e =>
    if e.1 = source then none else some ⟨source, e.1, newFilter e.2.services⟩

/-- The order of the relays. -/
def relayBefore (r s : Relay) : Bool :=
  if r.fromIndex ≠ s.fromIndex then r.fromIndex < s.fromIndex else r.toIndex < s.toIndex

/-- `planRelays`, with a limit for the rounds of each walk; `none` if a walk has not ended by then. -/
def planRelays (fuel : Nat) (rules : List Relaying) : Option (List Relay) := do
  let byFrom := edgesFrom rules
  let out ← byFrom.entries.mapM fun (source, edges) => do
    let w ← loop (Walk.next byFrom) fuel (Walk.start edges)
    pure (relaysFrom source w.best)
  pure (out.flatten.insertionSort fun r s => !relayBefore s r)

end Ghostd.Mdns
