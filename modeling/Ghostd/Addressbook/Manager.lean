import Ghostd.Addressbook.Operation

/-!
# `Ghostd.Addressbook.Manager`: the running configuration

`Manager.Apply` of `internal/addressbook/server.go`. A configuration is adopted when it is
valid, no outstanding binding lies in another scope of it, and everything it needs can be
bound. What binding the listeners does to the host is left out: only whether it succeeds
matters here.
-/

set_option autoImplicit false

namespace Ghostd.Addressbook

open Ghostd.Lib

/-- An outstanding binding keeps its address out of the other scopes. Delegations are not
looked at. -/
def checkOutstanding (c : Config) (b : Binding) : Except Failure Unit :=
  if !liveState b.state || b.origin = .dhcpv6PD then pure ()
  else
    c.scopes.forM fun s =>
      if s.id ≠ b.scope then do
        let p ← mustParsePrefix s.subnet
        let a ← mustParseAddr b.address
        refuseIf (p.contains a)
          (.error ("scope " ++ s.id ++ " overlaps outstanding binding in " ++ b.scope ++
            "; retain original scope ID"))
      else pure ()

/-- The checks of `Manager.Apply` before anything is bound. -/
def Ledger.admits (L : Ledger) (now : Int) (c : Config) : Except Failure Unit := do
  c.validate.mapError Failure.error
  let snapshot ← L.snapshot now "" "" 0
  snapshot.bindings.forM (checkOutstanding c)

/-- The ledger and the running configuration. -/
structure Manager where
  store : Ledger := {}
  config : Config := {}

namespace Manager

/-- `Manager.Apply`. `bound` says that every listener could be bound and `saved` that the
caller's save succeeded. -/
def apply (m : Manager) (now : Int) (c : Config) (bound saved : Bool) : Manager :=
  match m.store.admits now c with
  | .error _ => m
  | .ok () =>
    if bound then
      let store := m.store.noteDNSConfig now c
      if saved then { store, config := c } else { m with store }
    else m

/-- What a manager with delegations is asked to do. -/
inductive Request where
  | configure (c : Config) (bound saved : Bool)
  | allocatePrefix (scopeID client duidHex hint via : String) (commit : Bool)
  | releasePrefix (scopeID client : String)
  | expire

/-- The manager after a request. The handlers take the scope from the running configuration. -/
def serve (m : Manager) (now : Int) : Request → Manager
  | .configure c bound saved => m.apply now c bound saved
  | .allocatePrefix scopeID client duidHex hint via commit =>
      match m.config.scope scopeID with
      | none => m
      | some s =>
          { m with store := (Operation.allocatePrefix s client duidHex hint via commit).apply now m.store }
  | .releasePrefix scopeID client =>
      match m.config.scope scopeID with
      | none => m
      | some s => { m with store := (Operation.releasePrefix s client).apply now m.store }
  | .expire => { m with store := Operation.expire.apply now m.store }

/-- The managers a run reaches by a given time. A request is only made when it is in `ready`;
the program's own behaviour is the one where every request is. The clock does not go back. -/
inductive Reached (ready : Manager → Int → Request → Prop) : Int → Manager → Prop where
  | start (t : Int) : Reached ready t {}
  | serve {t now : Int} {m : Manager} (r : Request) (before : Reached ready t m) (clock : t ≤ now)
      (calm : ready m now r) : Reached ready now (m.serve now r)

end Manager

end Ghostd.Addressbook
