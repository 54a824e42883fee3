import Ghostd.Addressbook.Manager
import Ghostd.Lib.Reconcile

/-!
# `Ghostd.Addressbook.Routes`: the routes of delegated prefixes

`Manager.ReconcileRoutes` of `internal/addressbook/pd.go`. The routing table is a map from prefix to
next hop and device for each protocol number, and the commands that the pass runs are values with
their meaning on it. Every command succeeds, so the list of errors stays empty. The JSON that
`ip route show` prints is left out: the pass reads the map itself.

The loop over the routes that are there ranges over a Go map, in any order.
-/

set_option autoImplicit false

namespace Ghostd.Addressbook

open Ghostd.Lib

structure Route where
  via : String
  dev : String
  deriving DecidableEq, Repr

/-- The protocol number of the routes that the daemon installs. -/
def routeProto : String := "250"

/-- The calls of `ip`. -/
inductive RouteCommand where
  | show (proto : String)
  | replace (dst via dev proto : String)
  | del (dst dev proto : String)
  deriving DecidableEq, Repr

/-- The arguments of the call. -/
def RouteCommand.args : RouteCommand → List String
  | .show proto => ["-6", "-j", "route", "show", "proto", proto]
  | .replace dst via dev proto => ["-6", "route", "replace", dst, "via", via, "dev", dev, "proto", proto]
  | .del dst dev proto => ["-6", "route", "del", dst, "dev", dev, "proto", proto]

/-- The IPv6 routes of the kernel, by their protocol. -/
abbrev Kernel := String → Bucket String Route

/-- What a call does. A removal names the device, and takes a route through another one for a
different route. -/
def Kernel.run (kernel : Kernel) : RouteCommand → Kernel
  | .show _ => kernel
  | .replace dst via dev proto => Function.update kernel proto ((kernel proto).put dst ⟨via, dev⟩)
  | .del dst dev proto =>
    if ((kernel proto).get dst).any (·.dev = dev) then
      Function.update kernel proto ((kernel proto).delete dst)
    else kernel

/-- The route that a binding wants, if it is a delegation of a pool that is routed. -/
def wantedRoute (c : Config) (b : Binding) : Option Route :=
  if b.origin ≠ .dhcpv6PD ∨ b.state ≠ .active ∨ b.via = "" then none
  else
    match c.scope b.scope with
    | none => none
    | some s => if s.enabled && s.pd.any (·.route) then some ⟨b.via, s.interface⟩ else none

/-- The map `want`: a later binding with the same prefix replaces an earlier one. -/
def wantedRoutes (c : Config) (bs : List Binding) : Bucket String Route :=
  bs.foldl (fun want b =>
    match wantedRoute c b with
    | some r => want.put b.address r
    | none => want) .empty

/-- The command for a route that is wanted and not there. -/
def replaceCommand (e : String × Route) : RouteCommand := .replace e.1 e.2.via e.2.dev routeProto

/-- The command for a route that is there and not wanted. -/
def delCommand (e : String × Route) : RouteCommand := .del e.1 e.2.dev routeProto

/-- `ReconcileRoutes`: the commands it runs, and the routes they leave. -/
def reconcileRoutes (c : Config) (L : Ledger) (now : Int) (order : Ranging (String × Route)) (kernel : Kernel) :
    Except Failure (List RouteCommand × Kernel) := do
  let snapshot ← L.snapshot now "" "" 0
  let want := wantedRoutes c snapshot.bindings
  let current := kernel routeProto
  let commands :=
    .show routeProto ::
      ((want.entries.filter fun e => current.get e.1 ≠ some e.2).map replaceCommand ++
        ((order.val current.entries).filter fun e => (want.get e.1).isNone).map delCommand)
  pure (commands, commands.foldl Kernel.run kernel)

end Ghostd.Addressbook
