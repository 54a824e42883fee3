import Ghostd.Proofs.Addressbook.Log

/-!
# `Ghostd.Proofs.Addressbook.Offer`: what an offer reserves

An offer is a binding of thirty seconds that nobody else can take (`heldUntil_step`), and the client
that has it can turn it into a lease (`allocate_commit`). A host report is the one operation of others
that can move the end of a binding: it sets the end of a binding that came from a sighting to that of
a fresher sighting. Such a binding belongs to no DHCP client (`Strangers`), so a client's offer keeps
its end.

`Allocate` answers a client that discovers again with the lease it has. Its end can be nearer than
thirty seconds, and then the answer reserves nothing behind it: `offer_lost` is a run in which
somebody else has the address when the client asks for it. `offer_reserved` is the result under the
condition that this is not so.
-/

set_option autoImplicit false

namespace Ghostd.Proofs.Addressbook

open Ghostd.Lib Ghostd.Addressbook List

variable {client scopeID : String} {L : Ledger} {c : Config} {b : Binding} {now : Int}

/-! ### One allocation -/

/-- A request for an address that the client holds and may have is granted. -/
theorem allocate_commit (L : Ledger) (now : Int) (claimed : String) {mac ip m : String} {s : Scope}
    (hs : c.scope scopeID = some s) (henabled : s.enabled = true) (hclient : validClient client = true)
    (hm : canonicalMAC s mac = .ok m) (hfamily : s.is6 = startsWith client "duid:")
    (hallowed : allowed s client m ip = .ok true) (hmine : (L.readBinding s.id ip).client = client)
    (hstate : (L.readBinding s.id ip).state ≠ .declined) : L.allocate now c scopeID client mac claimed ip true =
      .ok ((newLease L now c s client m claimed ip true).1,
        L.save now (newLease L now c s client m claimed ip true).1
          (newLease L now c s client m claimed ip true).2) := by
  have hne : ip ≠ "" := by
    intro hempty
    rw [hempty] at hallowed
    cases hallowed
  have hchosen : chooseAddress L now s client m ip true = .ok ip := by
    have havailable : available L now s client m ip = .ok true := by
      unfold available
      rw [hallowed]
      simp [hmine, hstate]
    unfold chooseAddress firstCandidate
    rw [if_pos rfl, if_neg hne]
    simp [havailable]
  unfold Ledger.allocate
  simp [hs, henabled, hclient, hm, hfamily, hchosen, refuseIf]

/-! ### Bindings that came from a sighting -/

/-- A binding that came from a sighting belongs to a neighbour. -/
def OfNeighbor (b : Binding) : Prop := b.origin = .neighborReport → startsWith b.client "neighbor:" = true

/-- No such binding belongs to a DHCP client. -/
def Strangers (L : Ledger) : Prop := ∀ k b, L.bindings.get k = some b → OfNeighbor b

theorem OfNeighbor.congr {b' : Binding} (h : OfNeighbor b) (horigin : b'.origin = b.origin)
    (hclient : b'.client = b.client) : OfNeighbor b' := by
  intro hneighbor
  rw [hclient]
  exact h (by rw [← horigin]; exact hneighbor)

theorem OfNeighbor.of_ne (h : b.origin ≠ .neighborReport) : OfNeighbor b :=
  fun hneighbor => absurd hneighbor h

/-- What the operations save. -/
theorem opWrite_ofNeighbor {op : Operation} {L0 : Ledger} (h0 : Tidy L0) (hs0 : Strangers L0) (hs : Strangers L)
    {kind : EventKind} (h : OpWrite now L0 op L b kind) : OfNeighbor b := by
  cases op with
  | allocate c scopeID client mac claimed requested commit =>
    obtain ⟨s, m, ip, -, -, -, -, -, -, hb⟩ := h
    have hfields := newLease_fields L now c s client m claimed ip commit
    rw [← congrArg Prod.fst hb] at hfields
    refine .of_ne ?_
    rw [hfields.origin]
    split <;> decide
  | allocatePrefix s client duidHex hint via commit =>
    have hw : DelegateWrite now s client duidHex hint via commit L b kind := h
    obtain ⟨chosen, -, -, -, -, horigin, -, -⟩ := delegateWrite_fields hw
    exact .of_ne (by rw [horigin]; decide)
  | importDocument c =>
    obtain ⟨l, -, s, mac, client, -, -, ⟨-, -, rfl⟩ | ⟨-, -, rfl⟩⟩ := h
    · exact .of_ne (by simp [restoredQuarantine])
    · obtain ⟨-, -, -, -, -, horigin, -⟩ := importedBinding_fields now c s l mac client (importedEnd l)
        (L.readBinding l.scope l.address)
      exact .of_ne (by rw [horigin]; decide)
  | report c node =>
    obtain ⟨found, device, name, hfound, -, m, hm, rfl⟩ := h
    obtain ⟨-, -, hclient, -, horigin, -⟩ := associated_fields L now { node with seen := now } device name m
    refine OfNeighbor.congr ?_ horigin hclient
    cases reportMatches_matched h0 hfound m hm with
    | stored hget _ _ => exact hs0 _ m hget
    | sighted o _ _ hm _ =>
      intro _
      rw [hm]
      simp [sightedBinding, startsWith]
  | release | expire | releasePrefix | repair | abandonDelegations =>
    obtain ⟨k, b0, hget, hsame⟩ := opWrite_rewrites h trivial
    exact (hget.elim (hs k b0) (hs0 k b0)).congr hsame.origin hsame.client
  | observe | observeSwitch => exact h.elim

theorem strangers_apply (hL : Tidy L) (hs : Strangers L) (now : Int) {op : Operation} (hop : op.Admissible) :
    Tidy (op.apply now L) ∧ Strangers (op.apply now L) := by
  refine apply_invariant hL hop ?_ ?_ hs
  · intro L1 L2 _ hbeside hs1 k b hget
    rw [hbeside.bindings] at hget
    exact hs1 k b hget
  · intro L1 b kind _ _ hw hs1 k b' hget
    rcases get_save_eq_some.mp hget with ⟨-, rfl⟩ | ⟨-, hget⟩
    · exact opWrite_ofNeighbor hL hs hs1 hw
    · exact hs1 k b' hget

theorem strangers_run (hL : Tidy L) (hs : Strangers L) {t : Int} {steps : List Step} (h : Scheduled t steps) :
    Strangers (run L steps) := by
  induction steps generalizing L t with
  | nil => exact hs
  | cons s rest ih =>
    obtain ⟨htidy, hstrangers⟩ := strangers_apply hL hs s.time h.2.1
    exact ih htidy hstrangers h.2.2

/-- No neighbour is a DHCP client. -/
theorem not_validClient_neighbor (h : startsWith client "neighbor:" = true) : validClient client = false := by
  obtain ⟨rest, hrest⟩ := isPrefixOf_iff_prefix.mp h
  have hother : ∀ start : String, start.toList.head? ≠ some 'n' → start.toList ≠ [] →
      startsWith client start = false := by
    intro start hhead hne
    unfold startsWith
    rw [← hrest]
    cases hstart : start.toList with
    | nil => exact absurd hstart hne
    | cons c =>
      have hc : c ≠ 'n' := fun heq => hhead (by rw [hstart, heq]; rfl)
      simp [List.isPrefixOf, hc]
  unfold validClient
  rw [hother "duid:" (by decide) (by decide), hother "mac:" (by decide) (by decide),
    hother "id:" (by decide) (by decide)]
  rfl

/-! ### The operations of others -/

/-- The operations that can come between an offer to a client and its request: offers, requests,
releases and declines of other clients, expiry, sightings and reports, all under one configuration. -/
def ByOthers (c : Config) (client : String) : Operation → Prop
  | .allocate c' _ who _ _ _ _ => c' = c ∧ who ≠ client
  | .release scope who _ _ => (∃ s ∈ c.scopes, s.id = scope) ∧ who ≠ client
  | .allocatePrefix s who _ _ _ _ => s ∈ c.scopes ∧ who ≠ client
  | .releasePrefix s who => s ∈ c.scopes ∧ who ≠ client
  | .expire => True
  | .observe c' _ => c' = c
  | .observeSwitch c' _ _ => c' = c
  | .report c' _ => c' = c
  | .importDocument _ _ => False
  | .repair _ _ => False
  | .abandonDelegations _ => False

/-- A report leaves a client's binding with it, until the same end at least. -/
theorem report_heldUntil (hL : Tidy L) (hs : Strangers L) {k : String} {T : Int}
    (hclient : validClient client = true) (h : HeldUntil k client T L) (hT : now < T) (hc : c.validate = .ok ())
    (node : Node) : HeldUntil k client T ((Operation.report c node).apply now L) := by
  obtain ⟨b, hget, hown, hstate, hends⟩ := h
  have horigin : b.origin ≠ .neighborReport := by
    intro hneighbor
    have hnot := not_validClient_neighbor (hs k b hget hneighbor)
    rw [hown, hclient] at hnot
    cases hnot
  have hlive : b.live now = true := by
    refine live_of_held ?_
    simp only [Binding.held, hstate, Bool.and_true, decide_eq_true_eq]
    omega
  have hadm : (Operation.report c node).Admissible := hc
  refine (apply_invariant (I := HeldUntil k client T) hL hadm ?_ ?_ ⟨b, hget, hown, hstate, hends⟩).2
  · intro L1 L2 _ hbeside h1
    unfold HeldUntil
    rw [hbeside.bindings]
    exact h1
  · intro L1 b' kind _ _ hw h1
    obtain ⟨found, device, name, hfound, -, m, hm, rfl⟩ := hw
    obtain ⟨hscope, haddress, hclient', hstate', -, -⟩ :=
      associated_fields L1 now { node with seen := now } device name m
    have hkey : (associated L1 now { node with seen := now } device name m).key = m.key := by
      rw [Binding.key, hscope, haddress]
      rfl
    unfold HeldUntil
    rw [get_save, hkey]
    by_cases hk : k = m.key
    · rw [if_pos hk]
      rw [hk] at hget
      -- What the report matched at this key is the binding of the client.
      obtain rfl : m = b := by
        cases reportMatches_matched hL hfound m hm with
        | stored hget' => exact Option.some.inj (hget'.symm.trans hget)
        | sighted o _ hfree =>
          have hnot := hfree b hget
          rw [hlive] at hnot
          cases hnot
      refine ⟨_, rfl, by rw [hclient', hown], by rw [hstate']; exact hstate, ?_⟩
      have hsame : (associated L1 now { node with seen := now } device name m).endsAt = m.endsAt := by
        unfold associated
        simp only
        rw [if_neg horigin]
      rw [hsame]
      exact hends
    · rw [if_neg hk]
      exact h1

/-- One step of others. -/
theorem heldUntil_others (hL : Tidy L) (hs : Strangers L) {k : String} {T : Int}
    (hclient : validClient client = true) (h : HeldUntil k client T L) {s : Step} (hadm : s.op.Admissible)
    (hothers : ByOthers c client s.op) (hT : s.time < T) : HeldUntil k client T (s.op.apply s.time L) := by
  rcases heldUntil_step hL h hadm hT with hkept | ⟨b, b', hget, hown, hget', hlost⟩
  · exact hkept
  obtain ⟨time, op⟩ := s
  cases op with
  | report c' node => exact report_heldUntil hL hs hclient h hT hadm node
  | allocate =>
    rcases hlost with ⟨hends, -⟩ | ⟨hserves, -⟩
    · exact hends.elim
    · exact absurd hserves.symm hothers.2
  | release =>
    rcases hlost with ⟨hends, -⟩ | ⟨hserves, -⟩
    · exact absurd (hends.1.trans hown) hothers.2
    · exact hserves.elim
  | expire => rcases hlost with ⟨hends, -⟩ | ⟨hserves, -⟩ <;> contradiction
  | allocatePrefix =>
    rcases hlost with ⟨hends, -⟩ | ⟨hserves, -⟩
    · exact hends.elim
    · exact absurd hserves.symm hothers.2
  | releasePrefix =>
    rcases hlost with ⟨hends, -⟩ | ⟨hserves, -⟩
    · exact absurd (hends.1.trans hown) hothers.2
    · exact hserves.elim
  | importDocument => exact hothers.elim
  | observe => rcases hlost with ⟨hends, -⟩ | ⟨hserves, -⟩ <;> contradiction
  | observeSwitch => rcases hlost with ⟨hends, -⟩ | ⟨hserves, -⟩ <;> contradiction
  | repair => exact hothers.elim
  | abandonDelegations => exact hothers.elim

/-- A run of others. -/
theorem heldUntil_run_others (hL : Tidy L) (hs : Strangers L) {k : String} {T t : Int}
    (hclient : validClient client = true) (h : HeldUntil k client T L) {steps : List Step}
    (hsteps : Scheduled t steps) (hothers : ∀ s ∈ steps, ByOthers c client s.op) (hT : ∀ s ∈ steps, s.time < T) :
    HeldUntil k client T (run L steps) := by
  induction steps generalizing L t with
  | nil => exact h
  | cons s rest ih =>
    obtain ⟨htidy, hstrangers⟩ := strangers_apply hL hs s.time hsteps.2.1
    have hnext := heldUntil_others hL hs hclient h hsteps.2.1 (hothers s mem_cons_self)
      (hT s mem_cons_self)
    exact ih htidy hstrangers hnext hsteps.2.2 (fun x hx => hothers x (mem_cons_of_mem _ hx))
      fun x hx => hT x (mem_cons_of_mem _ hx)

/-! ### Offers -/

/-- What an offer leaves: the returned address is held by the client for thirty seconds, and its
policy lets the client have it. -/
theorem offer_heldUntil {L' : Ledger} (hL : Tidy L) {t : Int} (hc : c.validate = .ok ())
    {mac claimed requested : String}
    (h : L.allocate t c scopeID client mac claimed requested false = .ok (b, L'))
    (hlong : (L.readBinding scopeID b.address).client = client →
      (L.readBinding scopeID b.address).state = .active → t < (L.readBinding scopeID b.address).endsAt →
        t + 30 ≤ (L.readBinding scopeID b.address).endsAt) :
    ∃ s m, c.scope scopeID = some s ∧ s.enabled = true ∧ validClient client = true ∧
      canonicalMAC s mac = .ok m ∧ s.is6 = startsWith client "duid:" ∧
      allowed s client m b.address = .ok true ∧
      HeldUntil (bindingKey s.id b.address) client (t + 30) L' := by
  obtain ⟨s, m, ip, hs, henabled, hclient, hm, hfamily, hchosen, hcase⟩ := allocate_cases h
  obtain ⟨hallowed, -⟩ := available_true (chooseAddress_cases hchosen).1
  obtain ⟨hmem, hid⟩ := mem_of_scope hs
  refine ⟨s, m, hs, henabled, hclient, hm, hfamily, ?_⟩
  rcases hcase with ⟨-, hread, hown, hstate, hends, rfl⟩ | ⟨hnew, -, rfl⟩
  · have hget : L'.bindings.get (bindingKey s.id ip) = some b := by
      rw [hread]
      refine get_of_readBinding ?_
      rw [← hread, hstate]
      decide
    have hkey : bindingKey b.scope b.address = bindingKey s.id ip := hL.sound.keyed hget
    obtain ⟨-, haddress⟩ := bindingKey_inj (hL.fits hget).slashless
      (AcceptedScope.slash_not_mem ⟨c, hc, hmem⟩) hkey
    rw [haddress]
    rw [haddress, ← hid, ← hread] at hlong
    exact ⟨hallowed, b, hget, hown, by rw [hstate]; rfl, hlong hown hstate hends⟩
  · have hfields := newLease_fields L t c s client m claimed ip false
    rw [← hnew] at hfields
    rw [hfields.address]
    refine ⟨hallowed, b, ?_, hfields.client, by rw [hfields.state]; rfl, ?_⟩
    · rw [get_save, Binding.key, hfields.scope, hfields.address, if_pos rfl]
    · rw [hfields.endsAt]
      exact Int.le_refl _

/-- An offer is a reservation, unless it is the answer to a client that has a lease with less than
thirty seconds left. Take any run, an offer to a client after it, and any steps of others at times
from the offer to thirty seconds after it. A request of the client for the address in that time
is granted. -/
theorem offer_reserved {t₀ t t' : Int} {earlier later : List Step} (hearlier : Scheduled t₀ earlier)
    {c : Config} (hc : c.validate = .ok ()) {scopeID client mac claimed requested : String}
    {b : Binding} {L : Ledger}
    (hoffer : (run {} earlier).allocate t c scopeID client mac claimed requested false = .ok (b, L))
    (hlong : ((run {} earlier).readBinding scopeID b.address).client = client →
      ((run {} earlier).readBinding scopeID b.address).state = .active →
      t < ((run {} earlier).readBinding scopeID b.address).endsAt →
        t + 30 ≤ ((run {} earlier).readBinding scopeID b.address).endsAt)
    (hlater : Scheduled t later) (hothers : ∀ s ∈ later, ByOthers c client s.op)
    (hbefore : ∀ s ∈ later, s.time < t + 30) (ht' : t' < t + 30) (name : String) :
    ∃ b' L', (run L later).allocate t' c scopeID client mac name b.address true = .ok (b', L') ∧
      b'.address = b.address ∧ b'.client = client ∧ b'.state = .active ∧
      L'.bindings.get (bindingKey scopeID b.address) = some b' := by
  have hT : Tidy (run {} earlier) := tidy_run tidy_empty hearlier
  have hS : Strangers (run {} earlier) :=
    strangers_run tidy_empty (fun k b hget => by cases hget) hearlier
  obtain ⟨s, m, hs, henabled, hclient, hm, hfamily, hallowed, hheld⟩ := offer_heldUntil hT hc hoffer hlong
  -- The ledger after the offer is that of an operation.
  have hL : L = (Operation.allocate c scopeID client mac claimed requested false).apply t (run {} earlier) := by
    show L = Ledger.settle _ (Except.map Prod.snd _)
    rw [hoffer]
    rfl
  obtain ⟨htidy, hstrangers⟩ := strangers_apply hT hS t
    (show (Operation.allocate c scopeID client mac claimed requested false).Admissible from hc)
  rw [← hL] at htidy hstrangers
  obtain ⟨b1, hget, hown, hstate, -⟩ :=
    heldUntil_run_others htidy hstrangers hclient hheld hlater hothers hbefore
  have hread : (run L later).readBinding s.id b.address = b1 := readBinding_of_get hget
  have hdeclined : b1.state ≠ .declined := by
    intro hdeclined
    rw [hdeclined] at hstate
    cases hstate
  have hgranted := allocate_commit (run L later) t' name hs henabled hclient hm hfamily hallowed
    (by rw [hread]; exact hown) (by rw [hread]; exact hdeclined)
  have hfields := newLease_fields (run L later) t' c s client m name b.address true
  refine ⟨_, _, hgranted, hfields.address, hfields.client, hfields.state, ?_⟩
  rw [get_save, Binding.key, hfields.scope, hfields.address, (mem_of_scope hs).2, if_pos rfl]

/-! ### An offer that reserves nothing -/

/-- A client with the given last byte of its hardware address discovers. -/
def discover (time : Int) (last : String) (L : Ledger) : Except Failure (Binding × Ledger) :=
  L.allocate time (smallLan 60) "lan" ("mac:02:00:00:00:00:" ++ last) ("02:00:00:00:00:" ++ last) "" "" false

/-- At the start a client is granted 10.0.0.5 for a minute. Fifty seconds later it discovers again and
is offered its address. After ten more seconds the lease is over and another client is granted the
address. The first client asks for it a second later, eleven seconds after the offer, and is
refused. -/
theorem offer_lost :
    (smallLan 60).validate = .ok () ∧
    ByOthers (smallLan 60) "mac:02:00:00:00:00:01" (requestFive 60 60 "02").op ∧
    ((discover 50 "01" (run {} [requestFive 0 60 "01"])).toOption.map fun r =>
        (r.1.address, r.1.client, r.1.endsAt)) = some ("10.0.0.5", "mac:02:00:00:00:00:01", 60) ∧
    ((discover 50 "01" (run {} [requestFive 0 60 "01"])).toOption.map fun r =>
        match (run r.2 [requestFive 60 60 "02"]).allocate 61 (smallLan 60) "lan" "mac:02:00:00:00:00:01"
          "02:00:00:00:00:01" "" "10.0.0.5" true with
        | .ok _ => none
        | .error e => some e) =
      some (some (.unavailable "requested address is outside client policy or occupied")) := by
  refine ⟨by decide +kernel, ⟨rfl, by decide⟩, by decide +kernel, by decide +kernel⟩

/-- A new offer holds: another client's request for the address comes between. -/
theorem offer_reserved_smallLan :
    ∃ b L b' L', discover 0 "01" {} = .ok (b, L) ∧
      (run L [requestFive 10 60 "02"]).allocate 20 (smallLan 60) "lan" "mac:02:00:00:00:00:01"
        "02:00:00:00:00:01" "" b.address true = .ok (b', L') ∧
      b'.address = b.address ∧ b'.client = "mac:02:00:00:00:00:01" ∧ b'.state = .active := by
  have hvalid : (smallLan 60).validate = .ok () := by decide +kernel
  have hsome : (discover 0 "01" {}).toOption.isSome = true := by decide +kernel
  cases hoffer : discover 0 "01" {} with
  | error =>
    rw [hoffer] at hsome
    cases hsome
  | ok r =>
    obtain ⟨b, L⟩ := r
    have hearlier : Scheduled 0 [] := trivial
    have hlater : Scheduled 0 [requestFive 10 60 "02"] := ⟨by decide, hvalid, trivial⟩
    have hnow : (20 : Int) < 0 + 30 := by decide
    obtain ⟨b', L', hgrant, haddress, hclient, hstate, -⟩ := offer_reserved hearlier hvalid hoffer
      (fun _ hactive => by cases hactive) hlater
      (fun s hs => by rw [mem_singleton.mp hs]; exact ⟨rfl, by decide⟩)
      (fun s hs => by rw [mem_singleton.mp hs]; decide) hnow ""
    exact ⟨b, L, b', L', rfl, hgrant, haddress, hclient, hstate⟩

end Ghostd.Proofs.Addressbook
