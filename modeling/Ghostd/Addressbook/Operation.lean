import Ghostd.Addressbook.Identity
import Ghostd.Addressbook.Pd

/-!
# `Ghostd.Addressbook.Operation`: runs of the ledger

The operations that write the ledger, each one transaction at one instant, and runs of them.
An operation that fails leaves the ledger as it was, except that a refused report leaves an
audit event. Every operation brings the configuration it is called with.
-/

set_option autoImplicit false

namespace Ghostd.Addressbook

open Ghostd.Lib

/-- The operations on the ledger with their arguments. -/
inductive Operation where
  | allocate (c : Config) (scopeID client mac claimed requested : String) (commit : Bool)
  | release (scope client ip : String) (decline : Bool)
  | expire
  | allocatePrefix (s : Scope) (client duidHex hint via : String) (commit : Bool)
  | releasePrefix (s : Scope) (client : String)
  | importDocument (c : Config) (doc : ImportDocument)
  | observe (c : Config) (observations : List Observation)
  | observeSwitch (c : Config) (observations : List Observation) (ttl : Int)
  | report (c : Config) (node : Node)
  | repair (c : Config) (changes : List IdentityRepair)
  | abandonDelegations (target : Config)

/-- The ledger after a transaction: a failed one is rolled back. -/
def Ledger.settle (L : Ledger) : Except Failure Ledger → Ledger
  | .ok L' => L'
  | .error _ => L

/-- The ledger after an operation. -/
def Operation.apply (now : Int) (L : Ledger) : Operation → Ledger
  | .allocate c scopeID client mac claimed requested commit =>
      L.settle ((L.allocate now c scopeID client mac claimed requested commit).map Prod.snd)
  | .release scope client ip decline => L.settle (L.release now scope client ip decline)
  | .expire => L.expire now
  | .allocatePrefix s client duidHex hint via commit =>
      L.settle ((L.allocatePrefix now s client duidHex hint via commit).map Prod.snd)
  | .releasePrefix s client => L.settle (L.releasePrefix now s client)
  | .importDocument c doc => L.settle (L.importDocument now c doc)
  | .observe c observations => L.settle (L.observe now c observations)
  | .observeSwitch c observations ttl => L.settle (L.observeSwitch now c observations ttl)
  | .report c node => (L.report now c node).2
  | .repair c changes => L.settle (L.repair now c changes)
  | .abandonDelegations target => (L.abandonDelegations now target).2

/-- The text is that of an address without a zone, in its one spelling. -/
def PlainAddress (s : String) : Prop := ∃ a : Addr, a.zone = "" ∧ s = a.text

/-- The scope is one of an accepted configuration. -/
def AcceptedScope (s : Scope) : Prop := ∃ c : Config, c.validate = .ok () ∧ s ∈ c.scopes

/-- How the operations are called: with accepted configurations and canonical addresses. A
release names a scope and a plain address, as the protocol handlers do. -/
def Operation.Admissible : Operation → Prop
  | .allocate c .. => c.validate = .ok ()
  | .release scope _ ip _ => (∃ s, AcceptedScope s ∧ s.id = scope) ∧ PlainAddress ip
  | .expire => True
  | .allocatePrefix s .. => AcceptedScope s
  | .releasePrefix s _ => AcceptedScope s
  | .importDocument c doc => c.validate = .ok () ∧ ∀ l ∈ doc.leases, ∃ a : Addr, l.address = a.text
  | .observe c _ => c.validate = .ok ()
  | .observeSwitch c .. => c.validate = .ok ()
  | .report c _ => c.validate = .ok ()
  | .repair c _ => c.validate = .ok ()
  | .abandonDelegations target => target.validate = .ok ()

/-- An operation and the instant it runs at. -/
structure Step where
  time : Int
  op : Operation

/-- The ledger after a run. -/
def run (L : Ledger) (steps : List Step) : Ledger :=
  steps.foldl (fun L s => s.op.apply s.time L) L

/-- The steps are admissible and their times do not decrease from `t` on. -/
def Scheduled : Int → List Step → Prop
  | _, [] => True
  | t, s :: rest => t ≤ s.time ∧ s.op.Admissible ∧ Scheduled s.time rest

end Ghostd.Addressbook
