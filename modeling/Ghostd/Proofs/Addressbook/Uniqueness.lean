import Ghostd.Proofs.Addressbook.Tenure

/-!
# `Ghostd.Proofs.Addressbook.Uniqueness`: one binding for each address

The ledger keeps its bindings by the text of the address, and the policy compares addresses by
their text. Two texts can be one IPv6 address, so that the ledger keeps addresses apart only
as far as the texts that come into it are canonical.

They come from four places. The protocol handlers print what they pass to `Allocate`. The pool
is printed address by address. The configuration's own texts are compared as the operator
wrote them, and `ImportDocument` stores the text of the document. `unique_of_careful` proves
that addresses are unique, and nobody's but the client's, in every run in which the last two
are canonical and no import names an address reserved for another client.
`imported_twice` is a document that is accepted and puts two clients on one address.
-/

set_option autoImplicit false

namespace Ghostd.Proofs.Addressbook

open Ghostd.Lib Ghostd.Addressbook List

variable {L : Ledger} {p : Prefix} {s : Scope} {c' : Config} {b : Binding} {now : Int} {client : String}

/-! ### The property -/

/-- If the text is an address at all, it is its one spelling. -/
def Canonical (s : String) : Prop := ∀ a, parseAddr s = some a → s = a.text

theorem canonical_iff {s : String} : Canonical s ↔ (parseAddr s).all (fun a => s = a.text) = true := by
  unfold Canonical
  cases parseAddr s with
  | none => simp
  | some => simp

instance (s : String) : Decidable (Canonical s) := decidable_of_iff _ canonical_iff.symm

/-- The address is reserved, but neither for the client nor for its hardware address. -/
def ReservedElsewhere (s : Scope) (client mac : String) (a : Addr) : Prop :=
  ∃ r ∈ s.reservations, parseAddr r.address = some a ∧ r.client ≠ client ∧ r.client ≠ "mac:" ++ mac

/-- The live bindings of a scope that are no delegations have different addresses, and none has
the address of the server or the router or one reserved for another client. -/
def Unique (c : Config) (now : Int) (L : Ledger) : Prop :=
  (∀ k₁ k₂ b₁ b₂, L.bindings.get k₁ = some b₁ → L.bindings.get k₂ = some b₂ →
    b₁.live now = true → b₂.live now = true → b₁.origin ≠ .dhcpv6PD → b₂.origin ≠ .dhcpv6PD →
    b₁.scope = b₂.scope → k₁ ≠ k₂ →
      ∃ a₁ a₂, parseAddr b₁.address = some a₁ ∧ parseAddr b₂.address = some a₂ ∧ a₁ ≠ a₂) ∧
  (∀ k b s, L.bindings.get k = some b → b.live now = true → b.origin ≠ .dhcpv6PD →
    c.scope b.scope = some s →
      ∃ a, parseAddr b.address = some a ∧ parseAddr s.server ≠ some a ∧
        parseAddr s.router ≠ some a ∧ ¬ ReservedElsewhere s b.client b.mac a)

/-- The steps: `Allocate` with a canonical request or none, `Release`, `Expire` and
`ImportDocument`, all under one configuration. Scopes may be switched on and off between them,
since allocations need a scope that is on and imports one that is off. -/
def Uses (c : Config) : Operation → Prop
  | .allocate c' _ _ _ _ requested _ =>
    disabled c' = disabled c ∧ (requested = "" ∨ PlainAddress requested)
  | .release .. => True
  | .expire => True
  | .importDocument c' _ => disabled c' = disabled c
  | _ => False

/-! ### The condition -/

/-- The addresses of the configuration that the policy compares are canonical. -/
structure CanonicalConfig (c : Config) : Prop where
  server : ∀ s ∈ c.scopes, Canonical s.server
  router : ∀ s ∈ c.scopes, Canonical s.router
  reservations : ∀ s ∈ c.scopes, ∀ r ∈ s.reservations, Canonical r.address

/-- An import has canonical addresses, none of them reserved for another client. -/
def Careful (c : Config) : Operation → Prop
  | .importDocument _ doc => ∀ l ∈ doc.leases, Canonical l.address ∧
      ∀ s a, c.scope l.scope = some s → parseAddr l.address = some a →
        ¬ ReservedElsewhere s (importedClient s l ((parseMAC l.mac).elim "" macText))
          ((parseMAC l.mac).elim "" macText) a
  | _ => True

/-! ### Configurations that differ in what is enabled -/

theorem scope_disabled (c : Config) (id : String) :
    (disabled c).scope id = (c.scope id).map fun s => { s with enabled := false } := by
  unfold Config.scope disabled
  rw [List.find?_map]
  rfl

/-- The scope of the one configuration is that of the other, up to being enabled. -/
theorem scope_of_disabled_eq {c : Config} (h : disabled c' = disabled c) {id : String} {s' : Scope}
    (hs' : c'.scope id = some s') (hs : c.scope id = some s) : s' = { s with enabled := s'.enabled } := by
  have hsame := congrArg (Config.scope · id) h
  simp only [scope_disabled, hs', hs, Option.map_some, Option.some.injEq] at hsame
  cases s
  cases s'
  simp only [Scope.mk.injEq] at hsame ⊢
  tauto

/-! ### The invariant -/

/-- What is true of every stored binding: its address is plain, and the configuration has it
for nobody else. -/
structure Placed (c : Config) (b : Binding) : Prop where
  plain : PlainAddress b.address
  apart : ∀ s a, c.scope b.scope = some s → parseAddr b.address = some a →
    parseAddr s.server ≠ some a ∧ parseAddr s.router ≠ some a ∧
      ¬ ReservedElsewhere s b.client b.mac a

/-- A binding is as well placed as another one with the same address and client. -/
theorem Placed.congr {c : Config} {b' : Binding} (h : Placed c b) (hscope : b'.scope = b.scope)
    (haddress : b'.address = b.address) (hclient : b'.client = b.client) (hmac : b'.mac = b.mac) :
    Placed c b' where
  plain := by rw [haddress]; exact h.plain
  apart := by rw [hscope, haddress, hclient, hmac]; exact h.apart

/-- Different texts of different addresses: a canonical text that is not the text of `a` is not
`a`. -/
theorem Canonical.ne {s : String} (h : Canonical s) {a : Addr} (hs : a.text ≠ s) :
    parseAddr s ≠ some a := fun hparse => hs (h a hparse).symm

/-- What the policy lets a client have is nobody else's, if the texts it compares are
canonical. -/
theorem allowed_apart (hs : ScopeFacts s p) (hserver : Canonical s.server) (hrouter : Canonical s.router)
    (hreserved : ∀ r ∈ s.reservations, Canonical r.address) {mac : String} {a : Addr}
    (h : allowed s client mac a.text = .ok true) : parseAddr s.server ≠ some a ∧ parseAddr s.router ≠ some a ∧
      ¬ ReservedElsewhere s client mac a := by
  unfold allowed at h
  rw [parseAddr_text] at h
  simp only at h
  split at h
  · simp at h
  · rename_i hplace
    simp only [not_or, not_not] at hplace
    refine ⟨hserver.ne hplace.2.1, hrouter.ne hplace.2.2, ?_⟩
    rintro ⟨r, hr, hparse, hclient, hmac⟩
    have hr_text : r.address = a.text := hreserved r hr a hparse
    split at h
    · rename_i own hown
      simp only [pure_eq_ok, decide_eq_true_eq] at h
      have hmem := mem_of_find?_eq_some hown
      have hmatch := List.find?_some hown
      -- The reservation of the client and `r` have the same address, so they are one.
      have hsame : own = r := by
        refine inj_on_of_nodup_map hs.reservedOnce hmem hr ?_
        rw [h, hr_text]
      subst hsame
      simp only [Bool.or_eq_true, decide_eq_true_eq] at hmatch
      rcases hmatch with h | h
      · exact hclient h
      · exact hmac h
    · split at h
      · simp at h
      · rename_i hnone
        simp only [any_eq_true, decide_eq_true_eq, not_exists, not_and] at hnone
        exact hnone r hr hr_text

/-! ### Where an allocation takes its address from -/

theorem chooseAddress_plain (hs : ScopeFacts s p) {mac requested ip : String} {commit : Bool}
    (hreq : requested = "" ∨ PlainAddress requested)
    (hmine : ∀ b ∈ L.liveByClient s.id client, b.origin ≠ .dhcpv6PD → PlainAddress b.address)
    (hreserved : ∀ r ∈ s.reservations, PlainAddress r.address)
    (h : chooseAddress L now s client mac requested commit = .ok ip) : PlainAddress ip := by
  have hne : ip ≠ "" := by
    rintro rfl
    obtain ⟨hallowed, -⟩ := available_true (chooseAddress_cases h).1
    have hnone : parseAddr "" = none := by decide
    simp [allowed, hnone] at hallowed
  have hsource := chooseAddress_source (Q := fun ip => ip = "" ∨ PlainAddress ip) hs hreq
    (fun b hb horigin _ => Or.inr (hmine b hb horigin)) (fun r hr => Or.inr (hreserved r hr))
    (fun a ha => Or.inr ⟨a, ha, rfl⟩) h
  rcases hsource with h' | h'
  · exact absurd h' hne
  · exact h'

/-! ### One step -/

section Steps

variable {c : Config}

/-- The scope facts of a configuration hold for the same one with scopes switched on or off. -/
theorem ScopeFacts.of_disabled_eq {s' : Scope} (hs : ScopeFacts s p) (h : s' = { s with enabled := s'.enabled }) :
    ScopeFacts s' p := by
  rw [h]
  exact ⟨hs.label, hs.subnet, hs.masked, hs.server, hs.start, hs.endAddr, hs.router, hs.ordered,
    hs.leaseAtLeast, hs.leaseAtMost, hs.pool, hs.reservations, hs.reservedOnce⟩

theorem plain_of_reservation (hs : ScopeFacts s p) (hcan : ∀ r ∈ s.reservations, Canonical r.address) :
    ∀ r ∈ s.reservations, PlainAddress r.address := by
  intro r hr
  have hhost := (hs.reservations r hr).2.1
  cases ha : parseAddr r.address with
  | none => simp [hostAddress, ha] at hhost
  | some a => exact ⟨a, zone_of_hostAddress hhost ha, hcan r hr a ha⟩

theorem allocate_placed (hc : c.validate = .ok ()) (hcan : CanonicalConfig c) (hcc' : disabled c' = disabled c)
    {scopeID mac claimed requested : String} {commit : Bool} (hreq : requested = "" ∨ PlainAddress requested)
    (hL : Sound L) (hplaced : ∀ {k b}, L.bindings.get k = some b → Placed c b) {kind : EventKind}
    (h : AllocateWrite now c' scopeID client mac claimed requested commit L b kind) : Placed c b := by
  obtain ⟨s', m, ip, hs', -, -, -, -, hchosen, hb⟩ := h
  have hfields := newLease_fields L now c' s' client m claimed ip commit
  rw [← congrArg Prod.fst hb] at hfields
  -- The scope exists in `c` too, and differs at most in being enabled.
  obtain ⟨s, hs⟩ : ∃ s, c.scope scopeID = some s := by
    have hsame := congrArg (Config.scope · scopeID) hcc'
    simp only [scope_disabled, hs', Option.map_some] at hsame
    obtain ⟨s, hs, -⟩ := Option.map_eq_some_iff.mp hsame.symm
    exact ⟨s, hs⟩
  have hss' := scope_of_disabled_eq hcc' hs' hs
  obtain ⟨p, hfacts⟩ := scopeFacts_of_validate hc (mem_of_scope hs).1
  have hfacts' := hfacts.of_disabled_eq hss'
  have hserver : s'.server = s.server := by rw [hss']
  have hrouter : s'.router = s.router := by rw [hss']
  have hreservations : s'.reservations = s.reservations := by rw [hss']
  have hcanR : ∀ r ∈ s'.reservations, Canonical r.address := by
    rw [hreservations]
    exact hcan.reservations s (mem_of_scope hs).1
  have hplain : PlainAddress ip := by
    refine chooseAddress_plain hfacts' hreq ?_ (plain_of_reservation hfacts' hcanR) hchosen
    intro b' hb' _
    exact (hplaced (mem_liveByClient hL hb').1).plain
  obtain ⟨a, hzone, rfl⟩ := hplain
  obtain ⟨hallowed, -⟩ := available_true (chooseAddress_cases hchosen).1
  have hapart := allowed_apart hfacts' (by rw [hserver]; exact hcan.server s (mem_of_scope hs).1)
    (by rw [hrouter]; exact hcan.router s (mem_of_scope hs).1) hcanR hallowed
  refine ⟨by rw [hfields.address]; exact ⟨a, hzone, rfl⟩, ?_⟩
  intro s1 a1 hs1 ha1
  rw [hfields.scope, (mem_of_scope hs').2, hs, Option.some.injEq] at hs1
  subst hs1
  rw [hfields.address, parseAddr_text, Option.some.injEq] at ha1
  subst ha1
  rw [hfields.client, hfields.mac, ← hserver, ← hrouter]
  refine ⟨hapart.1, hapart.2.1, ?_⟩
  unfold ReservedElsewhere
  rw [← hreservations]
  exact hapart.2.2

theorem import_placed (hcan : CanonicalConfig c) (hcc' : disabled c' = disabled c) {doc : ImportDocument}
    (hcareful : Careful c (.importDocument c' doc)) {kind : EventKind} (h : ImportWrite now c' doc L b kind) :
    Placed c b := by
  obtain ⟨l, hl, s', mac, client, hcheck, -, hwrite⟩ := h
  obtain ⟨hs', -, -, hmac, hclient, p, ip, -, hip, hcontains, hserver', hrouter'⟩ :=
    checkImported_ok hcheck
  obtain ⟨hcanonical, hreserved⟩ := hcareful l hl
  have hfields : b.scope = l.scope ∧ b.address = l.address ∧ b.client = client ∧ b.mac = mac := by
    rcases hwrite with ⟨-, -, rfl⟩ | ⟨-, -, rfl⟩
    · exact ⟨rfl, rfl, rfl, rfl⟩
    · obtain ⟨h1, h2, h3, h4, -⟩ :=
        importedBinding_fields now c' s' l mac client (importedEnd l) (L.readBinding l.scope l.address)
      exact ⟨h1, h2, h3, h4⟩
  obtain ⟨hscope, haddress, hclientb, hmacb⟩ := hfields
  have htext : l.address = ip.text := hcanonical ip hip
  have hzone : ip.zone = "" := by
    simp only [Prefix.contains, Bool.and_eq_true, decide_eq_true_eq] at hcontains
    exact hcontains.1.1
  refine ⟨by rw [haddress, htext]; exact ⟨ip, hzone, rfl⟩, ?_⟩
  intro s a hs ha
  rw [hscope] at hs
  rw [haddress, hip, Option.some.injEq] at ha
  subst ha
  have hss' := scope_of_disabled_eq hcc' hs' hs
  have hserver : s'.server = s.server := by rw [hss']
  have hrouter : s'.router = s.router := by rw [hss']
  have hclient' : importedClient s' l mac = importedClient s l mac := by
    have h6 : s'.is6 = s.is6 := by
      unfold Scope.is6
      rw [hss']
    unfold importedClient
    rw [h6]
  have hmem := (mem_of_scope hs).1
  refine ⟨(hcan.server s hmem).ne ?_, (hcan.router s hmem).ne ?_, ?_⟩
  · rw [← htext, ← hserver]
    exact hserver'
  · rw [← htext, ← hrouter]
    exact hrouter'
  · rw [hclientb, hmacb, hclient, hclient', hmac]
    exact hreserved s ip hs hip

/-- Bindings are well placed after every step. -/
theorem placed_apply (hc : c.validate = .ok ()) (hcan : CanonicalConfig c) (hL : Sound L)
    (hplaced : ∀ {k b}, L.bindings.get k = some b → Placed c b) (now : Int) {op : Operation} (huses : Uses c op)
    (hcareful : Careful c op) :
    Sound (op.apply now L) ∧ ∀ {k b}, (op.apply now L).bindings.get k = some b → Placed c b := by
  rcases apply_effect L now op with heq | ⟨-, hsaves⟩
  · obtain ⟨hbindings, hindexes, -⟩ := notes_rest now L (stepSightings ⟨now, op⟩)
    rw [← heq] at hbindings hindexes
    exact ⟨hL.of_tables hbindings hindexes, fun hb => hplaced (by rwa [hbindings] at hb)⟩
  refine hsaves.invariant (I := fun L1 => Sound L1 ∧ ∀ {k b}, L1.bindings.get k = some b → Placed c b)
    (fun _ _ haside h1 => ⟨h1.1.aside haside, fun hb => h1.2 (by rwa [haside.bindings] at hb)⟩) ?_ ⟨hL, hplaced⟩
  intro L1 b kind hwrite h1
  refine ⟨h1.1.save now b kind, fun {k b'} hb' => ?_⟩
  rcases get_save_eq_some.mp hb' with ⟨-, rfl⟩ | ⟨-, hb'⟩
  · have hw := hwrite hL
    cases op with
    | allocate => exact allocate_placed hc hcan huses.1 huses.2 h1.1 h1.2 hw
    | importDocument c' doc =>
      exact import_placed hcan huses hcareful (show ImportWrite now c' doc L1 b' kind from hw)
    | release | expire =>
      obtain ⟨k, b0, hget, hsame⟩ := opWrite_rewrites hw trivial
      exact Placed.congr (hget.elim h1.2 hplaced) hsame.scope hsame.address hsame.client hsame.mac
    | allocatePrefix | releasePrefix | observe | observeSwitch | report | repair | abandonDelegations =>
      exact huses.elim
  · exact h1.2 hb'

end Steps

/-! ### Runs -/

/-- Addresses are unique as addresses. Take an accepted configuration with canonical addresses
and a run under it in which every import is careful. Then at every instant the live bindings
have different addresses, and none has an address that the configuration has for somebody
else. -/
theorem unique_of_careful {c : Config} (hc : c.validate = .ok ()) (hcan : CanonicalConfig c)
    {steps : List Step} (huses : ∀ s ∈ steps, Uses c s.op) (hcareful : ∀ s ∈ steps, Careful c s.op)
    (now : Int) : Unique c now (run {} steps) := by
  have hrun : Sound (run {} steps) ∧ ∀ {k b}, (run {} steps).bindings.get k = some b → Placed c b := by
    refine foldl_invariant
      (I := fun L => Sound L ∧ ∀ {k b}, L.bindings.get k = some b → Placed c b) ?_
      ⟨sound_empty, fun h => by simp at h⟩
    intro s hs L hL
    exact placed_apply hc hcan hL.1 hL.2 s.time (huses s hs) (hcareful s hs)
  refine ⟨?_, ?_⟩
  · intro k1 k2 b1 b2 h1 h2 _ _ _ _ hscope hk
    obtain ⟨a1, -, ha1⟩ := (hrun.2 h1).plain
    obtain ⟨a2, -, ha2⟩ := (hrun.2 h2).plain
    refine ⟨a1, a2, by rw [ha1, parseAddr_text], by rw [ha2, parseAddr_text], ?_⟩
    rintro rfl
    refine hk ?_
    rw [← hrun.1.keyed h1, ← hrun.1.keyed h2, Binding.key, Binding.key, hscope, ha1, ha2]
  · intro k b s hb _ _ hs
    obtain ⟨a, -, ha⟩ := (hrun.2 hb).plain
    have hparse : parseAddr b.address = some a := by rw [ha, parseAddr_text]
    exact ⟨a, hparse, (hrun.2 hb).apart s a hs hparse⟩

/-! ### Runs on a small IPv6 network -/

/-- One IPv6 scope, switched off for the import. -/
def smallNet : Config where
  scopes :=
    [{ id := "lan", interface := "eth0", subnet := "fd00::/64", server := "fd00::1",
       start := "fd00::5", endAddr := "fd00::8", router := "", zone := "lan.home",
       leaseSeconds := 3600, preferredSeconds := 1800, enabled := false }]

/-- The import of leases for the given addresses, each with a client of its own. -/
def adoptLeases (addresses : List String) : Step where
  time := 0
  op := .importDocument smallNet
    { serverDUID := "000300010200000000ff",
      leases := addresses.zipIdx.map fun (address, i) =>
        { scope := "lan", address := address, duid := "00030001020000000001",
          iaid := "0000000" ++ Nat.repr i, expiry := 3600 } }

/-- A document with an address in lower case and in upper case is accepted. Two clients then
have the address at once. -/
theorem imported_twice :
    smallNet.validate = .ok () ∧ Uses smallNet (adoptLeases ["fd00::a", "fd00::A"]).op ∧
      ¬ Unique smallNet 1 (run {} [adoptLeases ["fd00::a", "fd00::A"]]) := by
  refine ⟨by decide +kernel, rfl, ?_⟩
  rintro ⟨hdistinct, -⟩
  have hlower : ((run {} [adoptLeases ["fd00::a", "fd00::A"]]).bindings.get "lan/fd00::a").map
      (fun b => (b.scope, b.live 1, b.origin, b.address)) =
        some ("lan", true, .dnsmasqImport, "fd00::a") := by decide +kernel
  have hupper : ((run {} [adoptLeases ["fd00::a", "fd00::A"]]).bindings.get "lan/fd00::A").map
      (fun b => (b.scope, b.live 1, b.origin, b.address)) =
        some ("lan", true, .dnsmasqImport, "fd00::A") := by decide +kernel
  obtain ⟨b1, hb1, h1⟩ := Option.map_eq_some_iff.mp hlower
  obtain ⟨b2, hb2, h2⟩ := Option.map_eq_some_iff.mp hupper
  simp only [Prod.mk.injEq] at h1 h2
  obtain ⟨hscope1, hlive1, horigin1, haddress1⟩ := h1
  obtain ⟨hscope2, hlive2, horigin2, haddress2⟩ := h2
  obtain ⟨a1, a2, ha1, ha2, hne⟩ := hdistinct _ _ b1 b2 hb1 hb2 hlive1 hlive2
    (by rw [horigin1]; decide) (by rw [horigin2]; decide) (by rw [hscope1, hscope2]) (by decide)
  -- Both texts are the same address.
  have hsame : parseAddr "fd00::a" = parseAddr "fd00::A" := by decide +kernel
  rw [haddress1, hsame, ← haddress2, ha2] at ha1
  exact hne (Option.some.inj ha1).symm

/-- An import of two canonical addresses keeps them apart. -/
theorem unique_smallNet :
    smallNet.validate = .ok () ∧ Unique smallNet 1 (run {} [adoptLeases ["fd00::a", "fd00::b"]]) := by
  have hvalid : smallNet.validate = .ok () := by decide +kernel
  have hcanonical : Canonical "fd00::1" ∧ Canonical "" ∧ Canonical "fd00::a" ∧ Canonical "fd00::b" := by
    decide +kernel
  obtain ⟨hserver, hrouter, hten, heleven⟩ := hcanonical
  have hcan : CanonicalConfig smallNet := by
    refine ⟨?_, ?_, ?_⟩
    all_goals
      intro s hs
      rw [mem_singleton.mp hs]
    · exact hserver
    · exact hrouter
    · intro r hr
      simp at hr
  have hcareful : Careful smallNet (adoptLeases ["fd00::a", "fd00::b"]).op := by
    intro l hl
    refine ⟨?_, ?_⟩
    · simp only [zipIdx_cons, zipIdx_nil, map_cons, map_nil, mem_cons,
        not_mem_nil, or_false] at hl
      rcases hl with rfl | rfl
      · exact hten
      · exact heleven
    · intro s a hs _
      -- The scope has no reservation.
      rw [mem_singleton.mp (mem_of_scope hs).1]
      rintro ⟨r, hr, -⟩
      simp at hr
  refine ⟨hvalid, unique_of_careful hvalid hcan ?_ ?_ 1⟩
  · intro s hs
    rw [mem_singleton.mp hs]
    rfl
  · intro s hs
    rw [mem_singleton.mp hs]
    exact hcareful

end Ghostd.Proofs.Addressbook
