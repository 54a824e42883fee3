import Ghostd.Addressbook.Replicate
import Ghostd.Proofs.Addressbook.Delegation
import Ghostd.Proofs.Addressbook.Indexes

/-!
# `Ghostd.Proofs.Addressbook.Reached`: every ledger the program can build

`Reached` asks as little as possible of how the operations are called: the configurations are
accepted, an address that is asked for has no zone, and a client that asks for a prefix has no NUL.
Imported and released addresses are any text. So it takes in every ledger that the protocol handlers, the timers and the operator's requests
can bring about, also under changing configurations, and every replica of one.

`Filed` is what is true of all of them. Bindings and indexes belong together (`Sound`), the client
index has every live binding, a delegation is stored under the text of a masked prefix, and no stored
address has a zone. So what a client has is read off the bindings alone (`liveByClient_congr`).
-/

set_option autoImplicit false

namespace Ghostd.Proofs.Addressbook

open Ghostd.Lib Ghostd.Addressbook List

variable {L L' : Ledger} {client scope : String} {now : Int} {b : Binding} {c : Config} {s : Scope}

/-! ### Calls -/

/-- If the text is an address at all, it has no zone. -/
def Zoneless (s : String) : Prop := ∀ a, parseAddr s = some a → a.zone = ""

/-- How the program calls the operations: with accepted configurations, and with an address from
a packet or from the ledger. -/
def Operation.Called : Operation → Prop
  | .allocate c _ _ _ _ requested _ => c.validate = .ok () ∧ Zoneless requested
  | .release .. => True
  | .expire => True
  | .allocatePrefix s client .. => AcceptedScope s ∧ '\x00' ∉ client.toList
  | .releasePrefix .. => True
  | .importDocument c _ => c.validate = .ok ()
  | .observe c _ => c.validate = .ok ()
  | .observeSwitch c .. => c.validate = .ok ()
  | .report c _ => c.validate = .ok ()
  | .repair c _ => c.validate = .ok ()
  | .abandonDelegations _ => True

/-- The ledgers that the program builds: from the empty one by operations, by drawing or adopting a
server identity, and by replication from such ledgers. -/
inductive Reached : Ledger → Prop where
  | empty : Reached {}
  | operate {L : Ledger} (h : Reached L) (now : Int) {op : Operation} (hop : Operation.Called op) :
      Reached (op.apply now L)
  | identify {L : Ledger} (h : Reached L) (duid : List Nat) : Reached { L with duid := duid }
  | replicate {R R' : Replica} {leader : Ledger} (h : Reached R.ledger) (hleader : Reached leader)
      {now : Int} {events : List Event} {snap : Option Snapshot}
      (hevents : ∀ e ∈ events, e ∈ leader.events)
      (hR : R.applyReplicated now events snap = .ok R') : Reached R'.ledger

/-! ### The invariant -/

/-- The parts of the key of a binding, and whom it belongs to: the separators of the keys are not
among their characters, a delegation has a masked prefix, and no address has a zone. -/
structure Denotes (b : Binding) : Prop where
  slashless : '/' ∉ b.scope.toList
  scope : '\x00' ∉ b.scope.toList
  client : '\x00' ∉ b.client.toList
  address : '\x00' ∉ b.address.toList
  delegated : MaskedDelegation b
  zoneless : Zoneless b.address

/-- The same of a sighting. -/
structure Sighting (o : Observation) : Prop where
  slashless : '/' ∉ o.scope.toList
  scope : '\x00' ∉ o.scope.toList
  mac : '\x00' ∉ o.mac.toList
  address : '\x00' ∉ o.address.toList
  zoneless : Zoneless o.address

/-- The entry of a binding in the client index. -/
def clientEntry (b : Binding) : Index × String := (.client, indexKey [b.client, b.scope, b.address])

/-- The invariant of the ledgers that are reached. -/
structure Filed (L : Ledger) : Prop where
  sound : Sound L
  found : ∀ {k b}, L.bindings.get k = some b → liveState b.state = true → Indexed L (clientEntry b)
  stored : ∀ {k b}, L.bindings.get k = some b → Denotes b
  sighted : ∀ {k o}, L.observations.get k = some o → Sighting o
  logged : ∀ e ∈ L.events, Denotes e.binding ∧ ∀ o, e.observation = some o → Sighting o

theorem zoneless_empty : Zoneless "" := by
  intro a ha
  have hnone : parseAddr "" = none := by decide
  rw [hnone] at ha
  cases ha

theorem PlainAddress.zoneless {s : String} (h : PlainAddress s) : Zoneless s := by
  obtain ⟨a, hzone, rfl⟩ := h
  intro b hb
  rw [parseAddr_text, Option.some.injEq] at hb
  rw [← hb]
  exact hzone

theorem hostAddress_zoneless {p : Prefix} {v : String} (h : hostAddress p v = true) : Zoneless v :=
  fun _ ha => zone_of_hostAddress h ha

/-- The text of a prefix is that of no address: it has a slash, and no zone to have it in. -/
theorem parseAddr_prefixText (p : Prefix) : parseAddr p.text = none := by
  cases ha : parseAddr p.text with
  | none => rfl
  | some a =>
    have hpercent : '%' ∉ p.text.toList :=
      not_mem_prefixText (by decide) (by decide) (by decide) (by decide) p
    have hzone : a.zone = "" := zone_of_parseAddr hpercent ha
    exact absurd (slash_mem_text p) (not_mem_of_parseAddr (by decide) (by decide) (by decide) ha hzone)

theorem denotes_zero : Denotes {} :=
  ⟨by decide, by decide, by decide, by decide, fun h => (by cases h), zoneless_empty⟩

/-- A binding stands for the same as another one with its scope, address, client and origin. -/
theorem Denotes.congr {b' : Binding} (h : Denotes b) (hscope : b'.scope = b.scope)
    (haddress : b'.address = b.address) (hclient : b'.client = b.client) (horigin : b'.origin = b.origin) :
    Denotes b' where
  slashless := by rw [hscope]; exact h.slashless
  scope := by rw [hscope]; exact h.scope
  client := by rw [hclient]; exact h.client
  address := by rw [haddress]; exact h.address
  delegated := by
    unfold MaskedDelegation
    rw [haddress, horigin]
    exact h.delegated
  zoneless := by rw [haddress]; exact h.zoneless

/-- A text that is an address without a zone has no NUL. -/
theorem nul_not_mem_of_zoneless {s : String} {a : Addr} (h : parseAddr s = some a) (hzone : Zoneless s) :
    '\x00' ∉ s.toList :=
  not_mem_of_parseAddr digitValue_nul (by decide) (by decide) h (hzone a h)

theorem Denotes.of_address (hscope : labelPattern b.scope = true) (hclient : '\x00' ∉ b.client.toList)
    (horigin : b.origin ≠ .dhcpv6PD) {a : Addr} (ha : parseAddr b.address = some a) (h : Zoneless b.address) :
    Denotes b where
  slashless := slash_not_mem_label hscope
  scope := (plainName_of_label hscope).nul
  client := hclient
  address := nul_not_mem_of_zoneless ha h
  delegated hpd := absurd hpd horigin
  zoneless := h

theorem Denotes.of_masked {p : Prefix} (hscope : labelPattern b.scope = true)
    (hclient : '\x00' ∉ b.client.toList) (haddress : b.address = p.text) (hp : p = p.masked) : Denotes b where
  slashless := slash_not_mem_label hscope
  scope := (plainName_of_label hscope).nul
  client := hclient
  address := by
    rw [haddress]
    exact not_mem_prefixText digitValue_nul (by decide) (by decide) (by decide) p
  delegated _ := ⟨p, haddress, hp⟩
  zoneless := by
    intro a ha
    rw [haddress, parseAddr_prefixText] at ha
    cases ha

/-- The client entry of a binding is its only one in that index. -/
theorem mem_clientEntries {k : String} :
    (Index.client, k) ∈ indexEntries b ↔ liveState b.state = true ∧ (Index.client, k) = clientEntry b := by
  rw [mem_indexEntries]
  simp [clientEntry]

/-- Parts without a NUL are read back from an index key. -/
theorem indexKey_inj {x y z x' y' z' : String} (h : ∀ p ∈ [x, y, z], '\x00' ∉ p.toList)
    (h' : ∀ p ∈ [x', y', z'], '\x00' ∉ p.toList) (heq : indexKey [x, y, z] = indexKey [x', y', z']) :
    x = x' ∧ y = y' ∧ z = z' := by
  have hsplit := splitOn_indexKey_of_nul (by simp) h
  rw [heq, splitOn_indexKey_of_nul (by simp) h'] at hsplit
  simp only [map_cons, map_nil, List.cons.injEq, and_true, String.toList_inj] at hsplit
  exact ⟨hsplit.1.symm, hsplit.2.1.symm, hsplit.2.2.symm⟩

/-- The entry tells whose binding it is. -/
theorem clientEntry_inj {b' : Binding} (h : Denotes b) (h' : Denotes b') (heq : clientEntry b = clientEntry b') :
    b.client = b'.client ∧ b.scope = b'.scope ∧ b.address = b'.address :=
  indexKey_inj (by simp [h.client, h.scope, h.address]) (by simp [h'.client, h'.scope, h'.address])
    (Prod.mk.inj heq).2

theorem filed_empty : Filed {} where
  sound := sound_empty
  found h := by simp at h
  stored h := by simp at h
  sighted h := by simp at h
  logged _ he := by cases he

theorem Filed.save (h : Filed L) (hb : Denotes b) (now : Int) (kind : EventKind) :
    Filed (L.save now b kind) where
  sound := h.sound.save now b kind
  found := by
    intro k b' hget hlive
    rw [clientEntry, indexed_save]
    rcases get_save_eq_some.mp hget with ⟨-, rfl⟩ | ⟨hk, hget⟩
    · exact Or.inr (mem_clientEntries.mpr ⟨hlive, rfl⟩)
    · -- What is removed is the entry of the binding at the key that is written.
      refine Or.inl ⟨h.found hget hlive, fun hremoved => hk ?_⟩
      obtain ⟨hold, hentry⟩ := mem_clientEntries.mp hremoved
      have hstored : L.bindings.get (bindingKey b.scope b.address) = some (L.readBinding b.scope b.address) := by
        refine get_of_readBinding fun hunset => ?_
        rw [hunset] at hold
        cases hold
      obtain ⟨-, hscope, haddress⟩ := clientEntry_inj (h.stored hget) (h.stored hstored) hentry
      rw [← h.sound.keyed hget, Binding.key, hscope, haddress]
      exact h.sound.keyed hstored
  stored := by
    intro k b' hget
    rcases get_save_eq_some.mp hget with ⟨-, rfl⟩ | ⟨-, hget⟩
    · exact hb
    · exact h.stored hget
  sighted ho := h.sighted (by rwa [observations_save] at ho)
  logged := by
    intro e he
    rcases mem_events_save he with he | ⟨rfl, hnone⟩
    · exact h.logged e he
    · rw [hnone]
      exact ⟨hb, fun o ho => (by cases ho)⟩

theorem Filed.aside (h : Filed L) (hL' : Aside L L') : Filed L' where
  sound := h.sound.aside hL'
  found hb hlive := by
    rw [Indexed, hL'.indexes]
    exact h.found (by rwa [hL'.bindings] at hb) hlive
  stored hb := h.stored (by rwa [hL'.bindings] at hb)
  sighted ho := h.sighted (by rwa [hL'.observations] at ho)
  logged := by
    intro e he
    obtain ⟨notes, hevents, -, -, hnotes⟩ := hL'.noted
    rw [hevents] at he
    rcases mem_append.mp he with he | he
    · exact h.logged e he
    · obtain ⟨hbinding, hobservation⟩ := hnotes e he
      rw [hbinding, hobservation]
      exact ⟨denotes_zero, fun o ho => (by cases ho)⟩

/-- The rule for transactions: it is enough that every save is filed well. -/
theorem Filed.saves {P : Ledger → Binding → EventKind → Prop} (hL : Filed L) (h : Saves P now L L')
    (hP : ∀ L1 b kind, Filed L1 → P L1 b kind → Denotes b) : Filed L' :=
  h.invariant (fun _ _ haside h1 => h1.aside haside) (fun L1 b kind hb h1 => h1.save (hP L1 b kind h1 hb) now kind)
    hL

/-- An event with a sighting. -/
theorem Filed.sighting (h : Filed L) {e : Event} (hbinding : e.binding = {})
    (hobservation : ∀ o, e.observation = some o → Sighting o) : Filed (L.appendEvent e) where
  sound := ⟨h.sound.keyed, h.sound.indexed⟩
  found := h.found
  stored := h.stored
  sighted := h.sighted
  logged := by
    intro x hx
    rcases mem_append.mp hx with hx | hx
    · exact h.logged x hx
    · rw [mem_singleton.mp hx]
      exact ⟨by rw [hbinding]; exact denotes_zero, hobservation⟩

/-- A sighting that is stored. -/
theorem Filed.sight (h : Filed L) {k : String} {o : Observation} (ho : Sighting o) :
    Filed { L with observations := L.observations.put k o } where
  sound := ⟨h.sound.keyed, h.sound.indexed⟩
  found := h.found
  stored := h.stored
  sighted := by
    intro k' o' ho'
    rcases Bucket.get_put_eq_some.mp ho' with ⟨-, rfl⟩ | ⟨-, ho'⟩
    · exact ho
    · exact h.sighted ho'
  logged := h.logged

/-! ### Every operation -/

theorem allocateWrite_denotes (hL : Filed L) (hc : c.validate = .ok ())
    {scopeID mac claimed requested : String} (hreq : Zoneless requested) {commit : Bool} {kind : EventKind}
    (hb : AllocateWrite now c scopeID client mac claimed requested commit L b kind) : Denotes b := by
  obtain ⟨s, m, ip, hs, -, hclient, -, -, hchosen, hb⟩ := hb
  have hfields := newLease_fields L now c s client m claimed ip commit
  rw [← congrArg Prod.fst hb] at hfields
  obtain ⟨p, hfacts⟩ := scopeFacts_of_validate hc (mem_of_scope hs).1
  have hzone : Zoneless ip := by
    refine chooseAddress_source (Q := Zoneless) hfacts hreq ?_ ?_ ?_ hchosen
    · intro b' hb' _ _
      exact (hL.stored (mem_liveByClient hL.sound hb').1).zoneless
    · intro r hr
      exact hostAddress_zoneless (hfacts.reservations r hr).2.1
    · intro a ha
      exact PlainAddress.zoneless ⟨a, ha, rfl⟩
  obtain ⟨a, ha⟩ : ∃ a, parseAddr ip = some a := by
    have hallowed := (available_true (chooseAddress_cases hchosen).1).1
    cases ha : parseAddr ip with
    | none => simp [allowed, ha] at hallowed
    | some a => exact ⟨a, rfl⟩
  refine .of_address (by rw [hfields.scope]; exact hfacts.label)
    (by rw [hfields.client]; exact nul_not_mem_client hclient) ?_ (by rw [hfields.address]; exact ha)
    (by rw [hfields.address]; exact hzone)
  rw [hfields.origin]
  split <;> decide

theorem allocate_filed (hL : Filed L) (hc : c.validate = .ok ()) {scopeID mac claimed requested : String}
    (hreq : Zoneless requested) {commit : Bool} {r : Binding}
    (h : L.allocate now c scopeID client mac claimed requested commit = .ok (r, L')) : Filed L' :=
  hL.saves (allocate_saves h) fun _ _ _ h1 hb => allocateWrite_denotes h1 hc hreq hb

/-- The prefix that is delegated is masked: the one that is held is, and so are those of a pool. -/
theorem prefixChosen_masked (hL : Filed L) (hs : AcceptedScope s) {hint : String} {chosen : Prefix}
    (h : PrefixChosen now s client hint L chosen) : chosen = chosen.masked := by
  obtain ⟨pd, pool, hpd, hparsed, ⟨hmine, hparse⟩ | ⟨-, hchoose⟩⟩ := h
  · have hfound : myDelegation L now s client ∈ L.liveByClient s.id client ∧
        heldDelegation now (myDelegation L now s client) = true := lastBinding_mem hmine
    obtain ⟨hstored, -, -, -⟩ := mem_liveByClient hL.sound hfound.1
    obtain ⟨p, hp, hmasked⟩ :=
      (hL.stored hstored).delegated (by simpa using (Bool.and_eq_true_iff.mp hfound.2).1)
    rw [hp, parsePrefix_text, Option.some.injEq] at hparse
    rwa [← hparse]
  · obtain ⟨c, hc, hmem⟩ := hs
    obtain ⟨subnet, hfacts⟩ := scopeFacts_of_validate hc hmem
    obtain ⟨-, pool', hpool⟩ := hfacts.pool pd hpd
    obtain rfl : pool' = pool := Option.some.inj (hpool.parsed.symm.trans hparsed)
    have hin := choosePrefix_inPool hpool hchoose
    simp only [inPool, Bool.and_eq_true, decide_eq_true_eq] at hin
    exact hin.1.2

theorem importWrite_denotes (hc : c.validate = .ok ()) {doc : ImportDocument} {kind : EventKind}
    (hb : ImportWrite now c doc L b kind) : Denotes b := by
  obtain ⟨l, -, s, mac, client, hcheck, -, hwrite⟩ := hb
  obtain ⟨hs, -, hvalid, -, -, p, ip, -, hip, hcontains, -, -⟩ := checkImported_ok hcheck
  have hlabel : labelPattern l.scope = true := label_of_scope hc hs
  have hclient := nul_not_mem_client hvalid
  have hzone : Zoneless l.address := by
    intro a ha
    rw [hip, Option.some.injEq] at ha
    simp only [Prefix.contains, Bool.and_eq_true, decide_eq_true_eq] at hcontains
    rw [← ha]
    exact hcontains.1.1
  rcases hwrite with ⟨-, -, rfl⟩ | ⟨-, -, rfl⟩
  · exact .of_address hlabel hclient (by simp [restoredQuarantine]) hip hzone
  · obtain ⟨hscope, haddress, hclient', -, -, horigin, -⟩ := importedBinding_fields now c s l mac client
      (importedEnd l) (L.readBinding l.scope l.address)
    exact .of_address (by rw [hscope]; exact hlabel) (by rw [hclient']; exact hclient)
      (by rw [horigin]; decide) (by rw [haddress]; exact hip) (by rw [haddress]; exact hzone)

/-- What is recorded under accepted configurations. -/
theorem sighting_of_seen {o : Observation} (h : Seen o) : Sighting o where
  slashless := slash_not_mem_label h.label
  scope := (plainName_of_label h.label).nul
  mac := by
    obtain ⟨hw, hhw⟩ := h.mac
    rw [hhw]
    exact not_mem_macText digitValue_nul (by decide) hw
  address := PlainAddress.nul_not_mem h.address
  zoneless := PlainAddress.zoneless h.address

/-- The configuration of an operation that is called as it should be is accepted. -/
theorem Sights.called {op : Operation} (h : Operation.Sights c op) (hop : Operation.Called op) :
    c.validate = .ok () := by
  cases op with
  | observe c' =>
    obtain rfl : c' = c := h
    exact hop
  | observeSwitch c' =>
    obtain rfl : c' = c := h
    exact hop
  | _ => exact h.elim

/-- What a report is about: stored bindings, and sightings. -/
theorem reportMatches_denotes (hL : Filed L) {node : Node} {found : List Binding}
    (h : reportMatches L now c node = .ok found) : ∀ m ∈ found, Denotes m := by
  intro m hm
  obtain ⟨iface, -, address, -, hcandidate⟩ := reportMatches_candidate h m hm
  cases hcandidate with
  | found hmem => exact hL.stored (get_of_liveByAddress hL.sound hmem)
  | sighted ip _ s _ p _ o hget _ _ hm =>
    have hsighted := hL.sighted hget
    rw [hm]
    refine ⟨hsighted.slashless, hsighted.scope, ?_, hsighted.address, fun hpd => (by cases hpd),
      hsighted.zoneless⟩
    simp [sightedBinding, String.toList_append, hsighted.mac]

theorem Filed.apply (hL : Filed L) (now : Int) {op : Operation} (hop : Operation.Called op) :
    Filed (op.apply now L) := by
  rcases apply_effect L now op with heq | ⟨-, hsaves⟩
  · rw [heq]
    exact notes_invariant (fun h ho => h.sighted ho) (fun _ ho => ⟨ho.1, ho.2, ho.3, ho.4, ho.5⟩)
      (fun ho h => h.sight ho) (fun hbinding ho h => h.sighting hbinding ho)
      (fun o ho => sighting_of_seen (seen_of_stepSightings (fun _ hc => Sights.called hc hop) o ho)) hL
  refine hL.saves hsaves fun L1 b kind h1 hw => ?_
  have hw := hw hL.sound
  cases op with
  | allocate => exact allocateWrite_denotes h1 hop.1 hop.2 hw
  | allocatePrefix s client duidHex hint via commit =>
    obtain ⟨chosen, hchosen, hscope, haddress, hclient, -⟩ := delegateWrite_fields
      (show DelegateWrite now s client duidHex hint via commit L1 b kind from hw)
    exact .of_masked (by rw [hscope]; exact AcceptedScope.label hop.1) (by rw [hclient]; exact hop.2) haddress
      (prefixChosen_masked h1 hop.1 hchosen)
  | importDocument c doc => exact importWrite_denotes hop (show ImportWrite now c doc L1 b kind from hw)
  | report c node =>
    obtain ⟨found, device, name, hfound, -, m, hm, rfl⟩ := hw
    obtain ⟨hscope, haddress, hclient, -, horigin, -⟩ :=
      associated_fields L1 now { node with seen := now } device name m
    exact (reportMatches_denotes hL hfound m hm).congr hscope haddress hclient horigin
  | release | expire | releasePrefix | repair | abandonDelegations =>
    obtain ⟨k, b0, hget, hsame⟩ := opWrite_rewrites hw trivial
    exact Denotes.congr (hget.elim h1.stored hL.stored) hsame.scope hsame.address hsame.client hsame.origin
  | observe | observeSwitch => exact hw.elim

/-! ### Replication -/

/-- The parts of a ledger that `Filed` does not look at may change. -/
theorem Filed.of_tables (h : Filed L) (hbindings : L'.bindings = L.bindings) (hindexes : L'.indexes = L.indexes)
    (hobservations : L'.observations = L.observations) (hevents : L'.events = L.events) : Filed L' := by
  obtain ⟨⟨hkeyed, hindexed⟩, hfound, hstored, hsighted, hlogged⟩ := h
  unfold Indexed at hindexed hfound
  rw [← hbindings, ← hindexes] at hindexed hfound
  rw [← hbindings] at hkeyed hstored
  rw [← hobservations] at hsighted
  rw [← hevents] at hlogged
  exact ⟨⟨hkeyed, hindexed⟩, hfound, hstored, hsighted, hlogged⟩

theorem filed_of_reached (h : Reached L) : Filed L := by
  induction h with
  | empty => exact filed_empty
  | operate _ now hop ih => exact ih.apply now hop
  | identify _ duid ih => exact ih.of_tables rfl rfl rfl rfl
  | @replicate R R' leader _ _ now events snap hevents hR ih ihleader =>
    -- The loop applies events of the leader only, and the snapshot brings no binding.
    refine applyReplicated_invariant (fun {L1 e} he h1 => ?_) (fun {L1 L2 s} _ hadopt h1 => ?_) hR ih
    · obtain ⟨hbinding, hsighting⟩ := ihleader.logged e (hevents e he)
      exact applyEvent_invariant (fun ho h => h.sight ho) (fun hbinding ho h => h.sighting hbinding ho)
        (fun _ h => h.save hbinding now e.kind) hsighting h1
    · simp only [bind_eq_ok, pure_eq_ok, Ledger.adoptSnapshot] at hadopt
      obtain ⟨duid, -, rfl⟩ := hadopt
      exact h1.of_tables rfl rfl rfl rfl

/-! ### What a client has -/

/-- A key of the client index tells the client. -/
theorem client_of_start (h : Denotes b)
    (hstart : startsWith (clientEntry b).2 (Ledger.idxPrefix [client, scope]) = true) : b.client = client := by
  obtain ⟨rest, hrest⟩ := isPrefixOf_iff_prefix.mp hstart
  have hkey : indexKey [client, scope, String.ofList rest] = indexKey [b.client, b.scope, b.address] := by
    apply String.toList_inj.mp
    rw [show (indexKey [b.client, b.scope, b.address]).toList = (clientEntry b).2.toList from rfl, ← hrest]
    simp [Ledger.idxPrefix, indexKey, joinText, intercalate_cons_cons]
  have hsplit : (indexKey [client, scope, String.ofList rest]).toList.splitOn '\x00' =
      [b.client.toList, b.scope.toList, b.address.toList] := by
    rw [hkey, splitOn_indexKey_of_nul (by simp)]
    · rfl
    · simp [h.client, h.scope, h.address]
  exact (splitOn_indexKey hsplit).1.symm

/-- The live bindings of a client depend on nothing but those bindings. -/
theorem liveByClient_congr {M : Ledger} (hL : Filed L) (hM : Filed M)
    (h : ∀ b, b.client = client → liveState b.state = true →
      (L.bindings.get b.key = some b ↔ M.bindings.get b.key = some b)) :
    L.liveByClient scope client = M.liveByClient scope client := by
  -- The entry of the one ledger is that of the other, and leads to the same binding.
  have hentry : ∀ {L M : Ledger}, Filed L → Filed M →
      (∀ b, b.client = client → liveState b.state = true →
        (L.bindings.get b.key = some b ↔ M.bindings.get b.key = some b)) →
      ∀ k, (L.indexes .client).get k = some () → startsWith k (Ledger.idxPrefix [client, scope]) = true →
        (M.indexes .client).get k = some () ∧ ∀ target, Ledger.indexTarget .client k = some target →
          L.readBinding target.1 target.2 = M.readBinding target.1 target.2 := by
    intro L M hL hM h k hk hstart
    obtain ⟨b, hstored, hmem⟩ := hL.sound.indexed (show Indexed L (.client, k) from hk)
    obtain ⟨hlive, heq⟩ := mem_clientEntries.mp hmem
    obtain rfl : k = (clientEntry b).2 := congrArg Prod.snd heq
    have hclient := client_of_start (hL.stored hstored) hstart
    have hstored' := (h b hclient hlive).mp hstored
    refine ⟨hM.found hstored' hlive, ?_⟩
    intro target htarget
    obtain ⟨scope', address'⟩ := target
    obtain ⟨p, hsplit⟩ := splitOn_of_indexTarget htarget
    obtain ⟨-, hscope, haddress⟩ := splitOn_indexKey hsplit
    rw [← hscope, ← haddress, readBinding_of_get hstored, readBinding_of_get hstored']
  -- So the two indexes agree on the keys that start so, and they are sorted.
  have hfilter : ∀ L : Ledger, L.liveByClient scope client =
      ((L.indexes .client).entries.filter fun e => startsWith e.1 (Ledger.idxPrefix [client, scope])).filterMap
        fun e => (Ledger.indexTarget .client e.1).bind fun t =>
          if (L.readBinding t.1 t.2).scope = "" ∨ !liveState (L.readBinding t.1 t.2).state then none
          else some (L.readBinding t.1 t.2) := by
    intro L
    rw [filterMap_filter]
    rfl
  have hkeys : ((L.indexes .client).entries.filter fun e => startsWith e.1 (Ledger.idxPrefix [client, scope])) =
      (M.indexes .client).entries.filter fun e => startsWith e.1 (Ledger.idxPrefix [client, scope]) := by
    refine eq_of_sorted_of_mem ((L.indexes .client).sorted.filter _) ((M.indexes .client).sorted.filter _) ?_
    intro e
    obtain ⟨k, u⟩ := e
    simp only [mem_filter, Bucket.mem_entries]
    constructor
    · intro hk
      exact ⟨(hentry hL hM h k hk.1 hk.2).1, hk.2⟩
    · intro hk
      exact ⟨(hentry hM hL (fun b hb hlive => (h b hb hlive).symm) k hk.1 hk.2).1, hk.2⟩
  rw [hfilter L, hfilter M, ← hkeys]
  refine filterMap_congr fun e he => ?_
  obtain ⟨hmem, hstart⟩ := mem_filter.mp he
  cases htarget : Ledger.indexTarget .client e.1 with
  | none => rfl
  | some target =>
    have hread := (hentry hL hM h e.1 (Bucket.mem_entries.mp hmem) hstart).2 target htarget
    simp only [Option.bind_some, hread]

end Ghostd.Proofs.Addressbook
