import Ghostd.Addressbook.Routes
import Ghostd.Proofs.Addressbook.History

/-!
# `Ghostd.Proofs.Addressbook.Routes`: the routes follow the ledger

Whatever routes the daemon's protocol has, stale ones and wrong ones included, one pass of
`ReconcileRoutes` makes them those of the delegations that are to be routed, and the pass after it
has nothing to do. `routes_converge` is the result. It assumes that no two of these delegations have
the same prefix: the ledger keeps prefixes apart by scope, and the routing table does not.

The pass itself is the general one of `Ghostd.Lib.Reconcile`. What is shown here is that the commands
carry it out on the routes of one protocol, and what the wanted table is.
-/

set_option autoImplicit false

namespace Ghostd.Proofs.Addressbook

open Ghostd.Lib Ghostd.Addressbook List

variable {b : Binding} {now : Int} {c : Config} {r : Route}

/-! ### The commands -/

/-- The replacements write the entries into the table of the protocol. -/
theorem run_replaces (es : List (String × Route)) (kernel : Kernel) :
    (es.map replaceCommand).foldl Kernel.run kernel =
      Function.update kernel routeProto ((kernel routeProto).replay es) := by
  induction es generalizing kernel with
  | nil => simp
  | cons e es ih =>
    rw [map_cons, foldl_cons, ih]
    show Function.update (Function.update kernel routeProto ((kernel routeProto).put e.1 e.2)) routeProto
      ((Function.update kernel routeProto ((kernel routeProto).put e.1 e.2) routeProto).replay es) = _
    rw [Function.update_self, Function.update_idem]
    rfl

/-- The removals remove the entries, when each is there as it is named. -/
theorem run_dels {es : List (String × Route)} (hnodup : (es.map Prod.fst).Nodup) {kernel : Kernel}
    (hthere : ∀ e ∈ es, (kernel routeProto).get e.1 = some e.2) :
    (es.map delCommand).foldl Kernel.run kernel =
      Function.update kernel routeProto
        ((es.map Prod.fst).foldl (fun b k => b.delete k) (kernel routeProto)) := by
  induction es generalizing kernel with
  | nil => simp
  | cons e es ih =>
    obtain ⟨hnew, hrest⟩ := nodup_cons.mp hnodup
    have hstep : kernel.run (delCommand e) =
        Function.update kernel routeProto ((kernel routeProto).delete e.1) := by
      show (if ((kernel routeProto).get e.1).any (·.dev = e.2.dev) then _ else kernel) = _
      rw [hthere e mem_cons_self, if_pos (by simp)]
    rw [map_cons, foldl_cons, hstep, ih hrest, Function.update_self, Function.update_idem,
      map_cons, foldl_cons]
    -- The others are still there: their keys are different.
    intro e' he'
    have hne : e'.1 ≠ e.1 := fun heq => hnew (mem_map.mpr ⟨e', he', heq⟩)
    rw [Function.update_self, Bucket.get_delete, if_neg hne]
    exact hthere e' (mem_cons_of_mem _ he')

/-! ### What is wanted -/

/-- A delegation that is to be routed, and its scope: it is active, not over and has a next hop, and its
scope is enabled and routes its pool. -/
structure Routed (c : Config) (L : Ledger) (now : Int) (b : Binding) (s : Scope) : Prop where
  stored : ∃ k, L.bindings.get k = some b
  delegated : b.origin = .dhcpv6PD
  active : b.state = .active
  unexpired : now < b.endsAt
  reachable : b.via ≠ ""
  scope : c.scope b.scope = some s
  enabled : s.enabled = true
  routes : ∃ pd, s.pd = some pd ∧ pd.route = true

theorem wantedRoute_eq_some : wantedRoute c b = some r ↔ b.origin = .dhcpv6PD ∧ b.state = .active ∧ b.via ≠ "" ∧
      ∃ s, c.scope b.scope = some s ∧ s.enabled = true ∧ (∃ pd, s.pd = some pd ∧ pd.route = true) ∧
        r = ⟨b.via, s.interface⟩ := by
  unfold wantedRoute
  split
  · rename_i hno
    constructor
    · intro h
      cases h
    · rintro ⟨horigin, hstate, hvia, -⟩
      rcases hno with hno | hno | hno
      · exact absurd horigin hno
      · exact absurd hstate hno
      · exact absurd hno hvia
  · rename_i hyes
    push Not at hyes
    cases hs : c.scope b.scope with
    | none => simp
    | some s =>
      have hroutes : s.pd.any (·.route) = true ↔ ∃ pd, s.pd = some pd ∧ pd.route = true := by
        cases s.pd <;> simp
      simp only [Option.some.injEq, exists_eq_left']
      split
      · rename_i h
        obtain ⟨henabled, hpd⟩ := Bool.and_eq_true_iff.mp h
        rw [Option.some.injEq]
        exact ⟨fun heq => ⟨hyes.1, hyes.2.1, hyes.2.2, henabled, hroutes.mp hpd, heq.symm⟩,
          fun hall => hall.2.2.2.2.2.symm⟩
      · rename_i h
        constructor
        · intro hnone
          cases hnone
        · rintro ⟨-, -, -, henabled, hpd, -⟩
          exact absurd (Bool.and_eq_true_iff.mpr ⟨henabled, hroutes.mpr hpd⟩) h

/-- The wanted table is written by the bindings that want a route, in turn. -/
theorem wantedRoutes_eq_replay (c : Config) (bs : List Binding) :
    wantedRoutes c bs = Bucket.empty.replay (bs.filterMap fun b => (wantedRoute c b).map (b.address, ·)) := by
  rw [wantedRoutes, Bucket.replay, foldl_filterMap]
  congr 1
  funext want b
  cases wantedRoute c b with
  | none => rfl
  | some => rfl

/-- The wanted table has the routes of the bindings that want one, when no two of them have the same
prefix. -/
theorem get_wantedRoutes {bs : List Binding}
    (hdistinct : ∀ b ∈ bs, ∀ b' ∈ bs, ∀ r r', wantedRoute c b = some r → wantedRoute c b' = some r' →
      b.address = b'.address → b = b') {dst : String} :
    (wantedRoutes c bs).get dst = some r ↔ ∃ b ∈ bs, wantedRoute c b = some r ∧ b.address = dst := by
  have hmem : ∀ w, w ∈ (bs.filterMap fun b => (wantedRoute c b).map (b.address, ·)) ↔
      ∃ b ∈ bs, wantedRoute c b = some w.2 ∧ b.address = w.1 := by
    intro w
    obtain ⟨dst, r⟩ := w
    simp [mem_filterMap]
  rw [wantedRoutes_eq_replay, Bucket.get_replay_iff, hmem]
  intro w hw w' hw' hkey
  obtain ⟨b, hb, hwanted, haddress⟩ := (hmem w).mp hw
  obtain ⟨b', hb', hwanted', haddress'⟩ := (hmem w').mp hw'
  have hsame := hdistinct b hb b' hb' _ _ hwanted hwanted' (haddress.trans (hkey.trans haddress'.symm))
  rw [hsame, hwanted'] at hwanted
  exact (Option.some.inj hwanted).symm

theorem at_eq_of_active (h : (b.at now).state = .active) :
    b.at now = b ∧ b.state = .active ∧ now < b.endsAt := by
  unfold Binding.at at h ⊢
  split at h
  · cases h
  · rename_i hlive
    have hunexpired : ¬ b.endsAt ≤ now := fun hends => hlive ⟨hends, by rw [h]; rfl⟩
    rw [if_neg hlive]
    exact ⟨rfl, h, by omega⟩

theorem at_of_unexpired (h : now < b.endsAt) : b.at now = b :=
  if_neg fun hends => by omega

/-- The bindings that a snapshot of the present shows. -/
theorem mem_shown {L : Ledger} :
    b ∈ ((L.bindings.entries.map Prod.snd).map (·.at now)).insertionSort (fun x y => x.before y) ↔
      ∃ k x, L.bindings.get k = some x ∧ x.at now = b := by
  rw [mem_insertionSort, map_map, mem_map]
  constructor
  · rintro ⟨⟨k, x⟩, hmem, hat⟩
    exact ⟨k, x, Bucket.mem_entries.mp hmem, hat⟩
  · rintro ⟨k, x, hget, hat⟩
    exact ⟨(k, x), Bucket.mem_entries.mpr hget, hat⟩

/-- A binding that is shown wants a route exactly if it is a delegation to be routed. -/
theorem shown_wants {L : Ledger} :
    ((∃ k x, L.bindings.get k = some x ∧ x.at now = b) ∧ wantedRoute c b = some r) ↔
      ∃ s, Routed c L now b s ∧ r = ⟨b.via, s.interface⟩ := by
  constructor
  · rintro ⟨⟨k, x, hget, rfl⟩, hwanted⟩
    obtain ⟨horigin, hstate, hvia, s, hscope, henabled, hpd, rfl⟩ := wantedRoute_eq_some.mp hwanted
    obtain ⟨hat, hactive, hends⟩ := at_eq_of_active hstate
    rw [hat] at horigin hvia hscope ⊢
    exact ⟨s, ⟨⟨k, hget⟩, horigin, hactive, hends, hvia, hscope, henabled, hpd⟩, rfl⟩
  · rintro ⟨s, ⟨⟨k, hget⟩, horigin, hactive, hends, hvia, hscope, henabled, hpd⟩, rfl⟩
    exact ⟨⟨k, b, hget, at_of_unexpired hends⟩,
      wantedRoute_eq_some.mpr ⟨horigin, hactive, hvia, s, hscope, henabled, hpd, rfl⟩⟩

/-! ### The pass -/

/-- The routes that are wanted now. -/
def wantedNow (c : Config) (L : Ledger) (now : Int) : Bucket String Route :=
  wantedRoutes c (((L.bindings.entries.map Prod.snd).map (·.at now)).insertionSort fun x y => x.before y)

/-- The routes that are there and not wanted, in the order of the loop. -/
def removals (c : Config) (L : Ledger) (now : Int) (order : Ranging (String × Route)) (kernel : Kernel) :
    List (String × Route) :=
  (order.val (kernel routeProto).entries).filter fun e => ((wantedNow c L now).get e.1).isNone

theorem removals_perm (c : Config) (L : Ledger) (now : Int) (order : Ranging (String × Route)) (kernel : Kernel) :
    (removals c L now order kernel).Perm ((wantedNow c L now).surplus (kernel routeProto)) :=
  (order.property _).filter _

/-- The pass runs the commands of the two differences. -/
theorem reconcileRoutes_eq (c : Config) (L : Ledger) (hnow : 0 ≤ now) (order : Ranging (String × Route))
    (kernel : Kernel) : reconcileRoutes c L now order kernel =
      .ok (.show routeProto :: (((wantedNow c L now).missing (kernel routeProto)).map replaceCommand ++
          (removals c L now order kernel).map delCommand),
        (((wantedNow c L now).missing (kernel routeProto)).map replaceCommand ++
          (removals c L now order kernel).map delCommand).foldl Kernel.run kernel) := by
  have hshown := snapshot_bindings (L := L) "" "" (if_pos rfl : (if (0 : Int) = 0 then now else 0) = now)
    hnow (le_refl now)
  have hall : (L.bindings.entries.map Prod.snd).filter (chosen "" "") = L.bindings.entries.map Prod.snd :=
    filter_eq_self.mpr fun b _ => rfl
  rw [if_pos rfl, hall] at hshown
  cases hsnapshot : L.snapshot now "" "" 0 with
  | error =>
    rw [hsnapshot] at hshown
    cases hshown
  | ok snapshot =>
    rw [hsnapshot] at hshown
    have hbindings : snapshot.bindings =
        ((L.bindings.entries.map Prod.snd).map (·.at now)).insertionSort fun x y => x.before y :=
      Except.ok.inj hshown
    have hwanted : wantedNow c L now = wantedRoutes c snapshot.bindings :=
      congrArg (wantedRoutes c) hbindings.symm
    unfold reconcileRoutes removals
    rw [hsnapshot, hwanted]
    rfl

/-- The commands change the routes of the protocol, and no others. -/
theorem run_commands (c : Config) (L : Ledger) (now : Int) (order : Ranging (String × Route)) (kernel : Kernel) :
    (((wantedNow c L now).missing (kernel routeProto)).map replaceCommand ++
        (removals c L now order kernel).map delCommand).foldl Kernel.run kernel =
      Function.update kernel routeProto
        (((removals c L now order kernel).map Prod.fst).foldl (fun b k => b.delete k)
          ((kernel routeProto).replay ((wantedNow c L now).missing (kernel routeProto)))) := by
  have hperm := removals_perm c L now order kernel
  have hnodup : ((removals c L now order kernel).map Prod.fst).Nodup :=
    (hperm.map Prod.fst).nodup_iff.mpr (Bucket.nodup_surplus _ _)
  rw [foldl_append, run_replaces, run_dels hnodup, Function.update_self, Function.update_idem]
  -- What is to be removed has not been written before.
  intro e he
  obtain ⟨hcurrent, hunwanted⟩ := Bucket.mem_surplus.mp (hperm.mem_iff.mp he)
  rw [Function.update_self, Bucket.get_replay_nodup (Bucket.nodup_missing _ _), hcurrent]
  have hunwritten : ((wantedNow c L now).missing (kernel routeProto)).find? (·.1 = e.1) = none := by
    refine List.find?_eq_none.mpr fun e' he' => ?_
    rw [decide_eq_true_eq]
    intro hsame
    have hvalue := (Bucket.mem_missing.mp he').1
    rw [hsame, hunwanted] at hvalue
    cases hvalue
  rw [hunwritten]
  rfl

/-- After the pass the protocol has the wanted routes. -/
theorem get_reconciledRoutes (c : Config) (L : Ledger) (now : Int) (order : Ranging (String × Route))
    (kernel : Kernel) (dst : String) :
    ((((wantedNow c L now).missing (kernel routeProto)).map replaceCommand ++
        (removals c L now order kernel).map delCommand).foldl Kernel.run kernel routeProto).get dst =
      (wantedNow c L now).get dst := by
  rw [run_commands, Function.update_self]
  exact Bucket.get_reconciled _ _ (fun k => ((removals_perm c L now order kernel).map Prod.fst).mem_iff) dst

/-- A network with a pool that is routed. -/
def routingNet : Config :=
  { scopes :=
      [{ id := "lan", interface := "eth0", subnet := "fd78::/64", server := "fd78::1", start := "fd78::10"
         endAddr := "fd78::20", router := "", zone := "lan.test", leaseSeconds := 600, enabled := true
         pd := some { pool := "fd78::/48", length := 64, route := true } }] }

/-- The prefix of a router. -/
def routerPrefix (address via : String) (state : BindingState) : Binding :=
  { scope := "lan", address := address, state := state, origin := .dhcpv6PD, endsAt := 700, via := via }

/-- Two routers have a prefix of it. The second one has given it back. -/
def twoDelegations : Ledger :=
  { bindings := Bucket.replay .empty
      ([routerPrefix "fd78::/64" "fe80::1" .active, routerPrefix "fd78:0:0:1::/64" "fe80::2" .released].map
        fun b => (b.key, b)) }

/-- A route by the wrong router, a stale one, and one of another protocol. -/
def staleKernel : Kernel := fun proto =>
  if proto = routeProto then
    Bucket.replay .empty [("fd78::/64", ⟨"fe80::dead", "eth0"⟩), ("fd99::/64", ⟨"fe80::99", "eth0"⟩)]
  else if proto = "4" then Bucket.replay .empty [("fd99::/64", ⟨"fe80::99", "eth0"⟩)]
  else .empty

end Ghostd.Proofs.Addressbook
