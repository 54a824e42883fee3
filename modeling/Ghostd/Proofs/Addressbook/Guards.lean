import Ghostd.Lib.NetipText
import Ghostd.Proofs.Addressbook.Effects
import Ghostd.Proofs.Addressbook.Validate

/-!
# `Ghostd.Proofs.Addressbook.Guards`: what every operation leaves alone

A binding that is live at a key can only be written again for the client it belongs to. This
is `Guard`, a condition on a single save, and `Kept` is what a sequence of such saves leaves:
each live binding is unchanged, or still held by its client. A declined binding is live and
held by nobody, so it is unchanged. Here are the guards of every operation that does not end
bindings, and what the others end.

The guards of the source do not all look at the same states. `AllocatePrefix` treats a
declined binding as free. It never meets one, because a declined binding has a plain address
and a delegation has a prefix: `Fits` says this of every binding stored. `AllocatePrefix` also
trusts the client index (`mem_liveByClient`), and that the text of a delegation parses to the
prefix it was printed from (`parsePrefix_text`).

`Report` collects its matches before it writes. Two matches at one key belong to one client
(`Matched.client_eq`), so that the guard holds at each of its saves.
-/

set_option autoImplicit false

namespace Ghostd.Proofs.Addressbook

open Ghostd.Lib Ghostd.Addressbook List

variable {L L' L0 : Ledger} {now : Int} {b m : Binding} {address client hint ip mac : String} {c : Config}
    {kind : EventKind} {bs found : List Binding} {s : Scope} {commit : Bool} {o : Observation} {p : Prefix}
    {node : Node}

/-! ### Keys -/

/-- Without a slash in the scope the key gives scope and address back. -/
theorem bindingKey_inj {s s' a a' : String} (hs : '/' ∉ s.toList) (hs' : '/' ∉ s'.toList)
    (h : bindingKey s a = bindingKey s' a') : s = s' ∧ a = a' := by
  have hlist : s.toList ++ '/' :: a.toList = s'.toList ++ '/' :: a'.toList := by
    have := congrArg String.toList h
    simpa [bindingKey, String.toList_append] using this
  obtain ⟨hscope, haddr⟩ := append_cons_inj hs hs' hlist
  exact ⟨String.toList_inj.mp hscope, String.toList_inj.mp haddr⟩

theorem slash_mem_text (p : Prefix) : '/' ∈ p.text.toList := by
  rw [Prefix.text, String.toList_ofList]
  simp

theorem PlainAddress.slash_not_mem {s : String} (h : PlainAddress s) : '/' ∉ s.toList := by
  obtain ⟨a, hz, rfl⟩ := h
  exact a.not_mem_text hz (by decide) (by decide) (by decide)

/-! ### What is stored -/

/-- What is true of every binding that is written. -/
structure Fits (b : Binding) : Prop where
  label : labelPattern b.scope = true
  declined : b.state = .declined → PlainAddress b.address
  delegated : b.origin = .dhcpv6PD → ∃ p : Prefix, b.address = p.text

theorem Fits.slashless (h : Fits b) : '/' ∉ b.scope.toList := slash_not_mem_label h.label

/-- No scope is the empty text. -/
theorem Fits.scope_ne (h : Fits b) : b.scope ≠ "" := by
  intro hempty
  have hlabel := h.label
  rw [hempty] at hlabel
  exact absurd hlabel (by decide)

/-- A binding that fits still does when it is released. -/
theorem Fits.released {b' : Binding} (h : Fits b) (hscope : b'.scope = b.scope)
    (haddress : b'.address = b.address) (horigin : b'.origin = b.origin) (hstate : b'.state = .released) :
    Fits b' where
  label := by rw [hscope]; exact h.label
  declined hdeclined := by
    rw [hstate] at hdeclined
    cases hdeclined
  delegated := by rw [haddress, horigin]; exact h.delegated

/-- What is true of every sighting that is written. -/
structure Seen (o : Observation) : Prop where
  label : labelPattern o.scope = true
  address : PlainAddress o.address
  mac : ∃ hw : List Nat, o.mac = macText hw

/-- The invariant of runs. -/
structure Tidy (L : Ledger) : Prop where
  sound : Sound L
  fits : ∀ {k b}, L.bindings.get k = some b → Fits b
  sighted : ∀ {k o}, L.observations.get k = some o → bindingKey o.scope o.address = k ∧ Seen o

theorem tidy_empty : Tidy {} where
  sound := sound_empty
  fits h := by simp at h
  sighted h := by simp at h

theorem Tidy.aside (h : Aside L L') (hL : Tidy L) : Tidy L' where
  sound := hL.sound.aside h
  fits hb := hL.fits (by rwa [h.bindings] at hb)
  sighted ho := hL.sighted (by rwa [h.observations] at ho)

theorem Tidy.save (hL : Tidy L) (hb : Fits b) (now : Int) (kind : EventKind) : Tidy (L.save now b kind) where
  sound := hL.sound.save now b kind
  fits := by
    intro k b' h
    rcases get_save_eq_some.mp h with ⟨-, rfl⟩ | ⟨-, h⟩
    · exact hb
    · exact hL.fits h
  sighted h := hL.sighted (by rwa [observations_save] at h)

/-- The scope that was asked for is named by a label. -/
theorem label_of_scope (hc : c.validate = .ok ()) {id : String} (h : c.scope id = some s) :
    labelPattern id = true := by
  obtain ⟨hmem, hid⟩ := mem_of_scope h
  obtain ⟨p, hp⟩ := scopeFacts_of_validate hc hmem
  rw [← hid]
  exact hp.label

theorem AcceptedScope.label (h : AcceptedScope s) : labelPattern s.id = true := by
  obtain ⟨c, hc, hs⟩ := h
  obtain ⟨p, hp⟩ := scopeFacts_of_validate hc hs
  exact hp.label

theorem AcceptedScope.slash_not_mem (h : AcceptedScope s) : '/' ∉ s.id.toList :=
  slash_not_mem_label (AcceptedScope.label h)

/-! ### Guarded saves -/

/-- The save spares what is live: if a live binding is at its key, a client holds it and the
new binding is held by the same one. The end is the same, unless the operation serves the
client there. -/
def Guard (now : Int) (serves : String → String → Prop) (L : Ledger) (b : Binding) : Prop :=
  ∀ old, L.bindings.get b.key = some old → old.live now = true →
    old.held now = true ∧ b.held now = true ∧ b.client = old.client ∧
      (b.endsAt = old.endsAt ∨ serves b.key b.client)

/-- What guarded saves leave of the live bindings. -/
def Kept (now : Int) (serves : String → String → Prop) (L L' : Ledger) : Prop :=
  ∀ k b, L.bindings.get k = some b → b.live now = true →
    ∃ b', L'.bindings.get k = some b' ∧
      (b' = b ∨ (b.held now = true ∧ b'.held now = true ∧ b'.client = b.client ∧
        (b'.endsAt = b.endsAt ∨ serves k b.client)))

theorem live_of_held (h : b.held now = true) : b.live now = true := by
  rw [Binding.live_eq, h, Bool.true_or]

theorem Kept.refl (now : Int) (serves : String → String → Prop) (L : Ledger) : Kept now serves L L :=
  fun _ b hb _ => ⟨b, hb, Or.inl rfl⟩

theorem Kept.aside {serves : String → String → Prop} (h : Aside L L') (hL : Kept now serves L0 L) :
    Kept now serves L0 L' := by
  intro k b hb hlive
  rw [h.bindings]
  exact hL k b hb hlive

theorem Kept.save {serves : String → String → Prop} (hL : Kept now serves L0 L) (hguard : Guard now serves L b)
    (kind : EventKind) : Kept now serves L0 (L.save now b kind) := by
  intro k b0 hb0 hlive
  obtain ⟨b1, hb1, hkept⟩ := hL k b0 hb0 hlive
  rw [get_save]
  by_cases hk : k = b.key
  · rw [if_pos hk]
    refine ⟨b, rfl, Or.inr ?_⟩
    subst hk
    have hlive1 : b1.live now = true := by
      rcases hkept with rfl | ⟨-, hheld, -, -⟩
      · exact hlive
      · exact live_of_held hheld
    obtain ⟨hheld1, hheld, hclient, hends⟩ := hguard b1 hb1 hlive1
    rcases hkept with rfl | ⟨hheld0, -, hclient0, hends0⟩
    · exact ⟨hheld1, hheld, hclient, by rwa [hclient] at hends⟩
    · refine ⟨hheld0, hheld, by rw [hclient, hclient0], ?_⟩
      rw [hclient, hclient0] at hends
      rcases hends with h | h
      · rw [h]
        exact hends0
      · exact Or.inr h
  · rw [if_neg hk]
    exact ⟨b1, hb1, hkept⟩

/-- Saves that fit and are guarded keep the invariant and the live bindings. -/
theorem Saves.kept {P : Ledger → Binding → EventKind → Prop} (h : Saves P now L L')
    {serves : String → String → Prop} (hP : ∀ L b kind, P L b kind → Tidy L → Fits b ∧ Guard now serves L b)
    (hL : Tidy L) : Tidy L' ∧ Kept now serves L L' := by
  refine h.invariant (I := fun L' => Tidy L' ∧ Kept now serves L L') ?_ ?_ ⟨hL, .refl now serves L⟩
  · intro L1 L2 haside h1
    exact ⟨h1.1.aside haside, h1.2.aside haside⟩
  · intro L1 b kind hPb h1
    obtain ⟨hfits, hguard⟩ := hP L1 b kind hPb h1.1
    exact ⟨h1.1.save hfits now kind, h1.2.save hguard kind⟩

/-! ### Allocate -/

/-- The identity of a lease is its device, name, start, node and evidence. -/
theorem leaseIdentity_eq (L : Ledger) (now : Int) (c : Config) (s : Scope) (old b : Binding) :
    ∃ device name start nodeID evidence,
      leaseIdentity L now c s old b =
        { b with device := device, name := name, start := start, nodeID := nodeID,
                 evidence := evidence } := by
  have hold : ∀ b' : Binding, ∃ device name start nodeID evidence,
      (if old.client = b'.client ∧ old.endsAt > now ∧ old.state ≠ .declined then
        { b' with device := old.device, name := old.name, start := old.start,
                  nodeID := old.nodeID, evidence := old.evidence }
      else b') = { b' with device := device, name := name, start := start, nodeID := nodeID,
                           evidence := evidence } := by
    intro b'
    split
    · exact ⟨_, _, _, _, _, rfl⟩
    · exact ⟨_, _, _, _, _, rfl⟩
  unfold leaseIdentity
  obtain ⟨device, name, start, nodeID, evidence, heq⟩ :=
    hold { b with device := deviceID s.id b.client, name := deviceID s.id b.client }
  simp only at heq ⊢
  rw [heq]
  simp only
  split
  · split
    · exact ⟨_, _, _, _, _, rfl⟩
    · exact ⟨_, _, _, _, _, rfl⟩
  · split
    · exact ⟨_, _, _, _, _, rfl⟩
    · exact ⟨_, _, _, _, _, rfl⟩

/-- The fields of a new lease that do not depend on who the device is. -/
structure LeaseFields (now : Int) (s : Scope) (client mac ip : String) (commit : Bool)
    (b : Binding) : Prop where
  scope : b.scope = s.id
  address : b.address = ip
  client : b.client = client
  mac : b.mac = mac
  origin : b.origin = if s.is6 then .dhcpv6 else .dhcpv4
  state : b.state = if commit then .active else .offered
  endsAt : b.endsAt = if commit then now + s.leaseSeconds else now + 30
  duid : b.duid = if s.is6 then (clientParts b.client).1 else ""
  iaid : b.iaid = if s.is6 then (clientParts b.client).2 else ""

theorem newLease_fields (L : Ledger) (now : Int) (c : Config) (s : Scope)
    (client mac claimed ip : String) (commit : Bool) :
    LeaseFields now s client mac ip commit (newLease L now c s client mac claimed ip commit).1 := by
  unfold newLease
  obtain ⟨device, name, start, nodeID, evidence, heq⟩ :=
    leaseIdentity_eq L now c s (L.readBinding s.id ip)
      { scope := s.id, address := ip, client := client, mac := mac, claimedName := claimed,
        state := .offered, origin := if s.is6 then .dhcpv6 else .dhcpv4, start := now,
        endsAt := now + 30,
        duid := if s.is6 then (clientParts client).1 else "",
        iaid := if s.is6 then (clientParts client).2 else "" }
  simp only [heq]
  cases commit with
  | true => exact ⟨rfl, rfl, rfl, rfl, rfl, rfl, rfl, rfl, rfl⟩
  | false => exact ⟨rfl, rfl, rfl, rfl, rfl, rfl, rfl, rfl, rfl⟩

/-- The address is available: no live binding is there, or one the client holds. -/
theorem available_true (h : available L now s client mac ip = .ok true) : allowed s client mac ip = .ok true ∧
      ((L.readBinding s.id ip).live now = true →
        (L.readBinding s.id ip).client = client ∧ (L.readBinding s.id ip).state ≠ .declined) := by
  simp only [available, bind_eq_ok] at h
  obtain ⟨ok, hok, h⟩ := h
  cases ok with
  | false => simp at h
  | true =>
    refine ⟨hok, ?_⟩
    intro hlive
    simpa [hlive] using h

/-- A live binding that is not declined is held. -/
theorem held_of_live (h : b.live now = true) (hd : b.state ≠ .declined) : b.held now = true := by
  rw [Binding.live_eq] at h
  simpa [hd] using h

/-- An address of the subnet has no zone. -/
theorem zone_of_hostAddress {v : String} {a : Addr} (h : hostAddress p v = true) (ha : parseAddr v = some a) :
    a.zone = "" := by
  simp only [hostAddress, ha, Option.elim_some, Prefix.contains, Bool.and_eq_true,
    decide_eq_true_eq] at h
  exact h.1.1.1.1

/-- The address chosen is the one asked for, one the client holds, a reserved one or one of the
pool. -/
theorem chooseAddress_source {Q : String → Prop} (hs : ScopeFacts s p) {requested : String} (hreq : Q requested)
    (hmine : ∀ b ∈ L.liveByClient s.id client, b.origin ≠ .dhcpv6PD → b.held now = true → Q b.address)
    (hreserved : ∀ r ∈ s.reservations, Q r.address) (hpool : ∀ a : Addr, a.zone = "" → Q a.text)
    (h : chooseAddress L now s client mac requested commit = .ok ip) : Q ip := by
  have hfirst : ∀ ip, firstCandidate L now s client mac requested commit = .ok ip → Q ip := by
    intro ip h
    unfold firstCandidate at h
    split at h
    · split at h
      · simp at h
      · rw [pure_eq_ok] at h
        rwa [← h]
    · simp only [bind_eq_ok, pure_eq_ok] at h
      obtain ⟨candidate, hfold, rfl⟩ := h
      cases hr : reservation s client mac with
      | some r => exact hreserved r (mem_of_find?_eq_some hr)
      | none =>
        refine foldlM_invariant (I := Q) ?_ hreq hfold
        intro b hb ip ip' hip hstep
        unfold keepAddress at hstep
        split at hstep
        · rename_i hkept
          simp only [bind_eq_ok] at hstep
          obtain ⟨ok, -, hstep⟩ := hstep
          split at hstep
          · rw [pure_eq_ok] at hstep
            rw [← hstep]
            exact hmine b hb hkept.1 hkept.2
          · rw [pure_eq_ok] at hstep
            rwa [← hstep]
        · rw [pure_eq_ok] at hstep
          rwa [← hstep]
  rcases (chooseAddress_cases h).2 with hcandidate | ⟨first, a, hparse, hzone, rfl⟩
  · exact hfirst ip hcandidate
  · exact hpool a (by rw [hzone]; exact zone_of_hostAddress hs.start hparse)

theorem allocate_guard (hc : c.validate = .ok ()) {scopeID claimed requested : String}
    (h : AllocateWrite now c scopeID client mac claimed requested commit L b kind) :
    Fits b ∧ Guard now (fun _ who => who = client) L b := by
  obtain ⟨s, m, ip, hs, -, -, -, -, hchosen, hb⟩ := h
  have hfields := newLease_fields L now c s client m claimed ip commit
  rw [← congrArg Prod.fst hb] at hfields
  obtain ⟨p, hfacts⟩ := scopeFacts_of_validate hc (mem_of_scope hs).1
  have hfits : Fits b := by
    refine ⟨?_, ?_, ?_⟩
    · rw [hfields.scope]
      exact hfacts.label
    · intro hstate
      rw [hfields.state] at hstate
      cases commit <;> cases hstate
    · intro horigin
      rw [hfields.origin] at horigin
      split at horigin <;> cases horigin
  refine ⟨hfits, ?_⟩
  intro old hold hlive
  have hread : L.readBinding s.id ip = old := by
    refine readBinding_of_get ?_
    rw [← hold, Binding.key, hfields.scope, hfields.address]
  obtain ⟨-, hmine⟩ := available_true (chooseAddress_cases hchosen).1
  rw [hread] at hmine
  obtain ⟨hclient, hstate⟩ := hmine hlive
  refine ⟨held_of_live hlive hstate, ?_, by rw [hfields.client, hclient], Or.inr hfields.client⟩
  have hlease := hfacts.leaseAtLeast
  unfold Binding.held
  rw [hfields.state, hfields.endsAt]
  cases commit with
  | true => simp [heldState]; omega
  | false => simp [heldState]

/-! ### Release, expire, import and repair -/

theorem release_fits {scope : String} (hL : Tidy L) (hscope : '/' ∉ scope.toList) (hplain : PlainAddress ip)
    (h : ReleaseWrite now scope client ip L b kind) : Fits b := by
  obtain ⟨b0, hget, -, -, hb⟩ := h
  have hfits := hL.fits hget
  obtain ⟨-, haddress⟩ := bindingKey_inj hfits.slashless hscope (hL.sound.keyed hget)
  rcases hb with rfl | rfl
  · exact hfits.released rfl rfl rfl rfl
  · exact ⟨hfits.label, fun _ => (by rw [← haddress] at hplain; exact hplain), hfits.delegated⟩

theorem expire_guard (hL : Tidy L) (h : ExpireWrite now L b kind) :
    Fits b ∧ Guard now (fun _ _ => False) L b := by
  obtain ⟨k, b0, hget, -, hends, rfl⟩ := h
  have hfits := hL.fits hget
  refine ⟨⟨hfits.label, fun hstate => (by cases hstate), hfits.delegated⟩, ?_⟩
  intro old hold hlive
  have hkeyed := hL.sound.keyed hget
  have hkey : ({ b0 with state := .expired } : Binding).key = k := hkeyed
  rw [hkey, hget, Option.some.injEq] at hold
  subst hold
  simp [Binding.live] at hlive
  omega

theorem repair_guard (hL : Tidy L) (h : RepairWrite now L b kind) :
    Fits b ∧ Guard now (fun _ _ => False) L b := by
  obtain ⟨scope, address, b0, hget, hstate, hends, device, name, nodeID, evidence, -, rfl⟩ := h
  have hfits := hL.fits hget
  refine ⟨⟨hfits.label, hfits.declined, hfits.delegated⟩, ?_⟩
  intro old hold hlive
  have hkeyed := hL.sound.keyed hget
  have hkey : ({ b0 with device := device, name := name, nodeID := nodeID,
                         evidence := evidence } : Binding).key = bindingKey scope address := hkeyed
  rw [hkey, hget, Option.some.injEq] at hold
  subst hold
  have hheld : b0.held now = true := held_of_live hlive (by rw [hstate]; decide)
  exact ⟨hheld, hheld, rfl, Or.inl rfl⟩

/-- The fields of an imported binding that do not depend on who the device is. -/
theorem importedBinding_fields (now : Int) (c : Config) (s : Scope) (l : ImportedLease)
    (mac client : String) (ends : Int) (old : Binding) :
    let b := importedBinding now c s l mac client ends old
    b.scope = l.scope ∧ b.address = l.address ∧ b.client = client ∧ b.mac = mac ∧
      b.state = .active ∧ b.origin = .dnsmasqImport ∧ b.endsAt = ends := by
  unfold importedBinding
  simp only
  split
  · split <;> exact ⟨rfl, rfl, rfl, rfl, rfl, rfl, rfl⟩
  · split <;> exact ⟨rfl, rfl, rfl, rfl, rfl, rfl, rfl⟩

/-- What the checks say of the scope and the address of an imported lease. -/
theorem checkImported_ok {doc : ImportDocument} {l : ImportedLease}
    (h : checkImported L c doc l = .ok (s, mac, client)) :
    c.scope l.scope = some s ∧ s.enabled = false ∧ validClient client = true ∧
      mac = (parseMAC l.mac).elim "" macText ∧ client = importedClient s l mac ∧
      ∃ p ip, parsePrefix s.subnet = some p ∧ parseAddr l.address = some ip ∧
        p.contains ip = true ∧ l.address ≠ s.server ∧ l.address ≠ s.router := by
  unfold checkImported at h
  cases hs : c.scope l.scope with
  | none => simp [hs] at h
  | some =>
    simp only [hs, bind_eq_ok, refuseIf_eq_ok, exists_const, mustParsePrefix_eq_ok, pure_eq_ok,
      Prod.mk.injEq] at h
    obtain ⟨-, -, henabled, p, hp, haddr, -, hclient, rfl, rfl, rfl⟩ := h
    cases hip : parseAddr l.address with
    | none => simp [hip] at haddr
    | some ip =>
      simp only [hip, Option.elim_some, Bool.not_eq_false', Bool.and_eq_true, decide_eq_true_eq] at haddr
      exact ⟨rfl, henabled, by simpa using hclient, rfl, rfl, p, ip, hp, rfl, haddr.1.1.1.1,
        haddr.1.2, haddr.2⟩

theorem import_guard (hc : c.validate = .ok ()) {doc : ImportDocument}
    (hdoc : ∀ l ∈ doc.leases, ∃ a : Addr, l.address = a.text) (h : ImportWrite now c doc L b kind) :
    Fits b ∧ Guard now (fun k _ => ∃ l ∈ doc.leases, bindingKey l.scope l.address = k) L b := by
  obtain ⟨l, hl, s, mac, client, hcheck, hends, hwrite⟩ := h
  obtain ⟨hs, -, -, -, -, p, ip, -, hip, hcontains, -, -⟩ := checkImported_ok hcheck
  have hlabel := label_of_scope hc hs
  have hplain : PlainAddress l.address := by
    obtain ⟨a, ha⟩ := hdoc l hl
    rw [ha, parseAddr_text, Option.some.injEq] at hip
    subst hip
    refine ⟨a, ?_, ha⟩
    simp only [Prefix.contains, Bool.and_eq_true, decide_eq_true_eq] at hcontains
    exact hcontains.1.1
  rcases hwrite with ⟨-, hfree, rfl⟩ | ⟨-, hmine, rfl⟩
  · refine ⟨⟨hlabel, fun _ => hplain, fun horigin => by cases horigin⟩, ?_⟩
    intro old hold hlive
    have hread : L.readBinding l.scope l.address = old := readBinding_of_get hold
    rw [hread, hlive] at hfree
    cases hfree
  · obtain ⟨hscope, haddress, hclient, -, hstate, horigin, hend⟩ :=
      importedBinding_fields now c s l mac client (importedEnd l) (L.readBinding l.scope l.address)
    refine ⟨⟨by rw [hscope]; exact hlabel, ?_, ?_⟩, ?_⟩
    · intro h
      rw [hstate] at h
      cases h
    · intro h
      rw [horigin] at h
      cases h
    · intro old hold hlive
      have hkey : bindingKey l.scope l.address
          = (importedBinding now c s l mac client (importedEnd l)
              (L.readBinding l.scope l.address)).key := by
        rw [Binding.key, hscope, haddress]
      have hread : L.readBinding l.scope l.address = old := readBinding_of_get (by rw [hkey]; exact hold)
      rw [hread] at hmine
      obtain ⟨hown, hnot⟩ := hmine hlive
      refine ⟨held_of_live hlive hnot, ?_, by rw [hclient, hown], Or.inr ⟨l, hl, hkey⟩⟩
      unfold Binding.held
      rw [hstate, hend]
      simpa [heldState] using hends

/-! ### Prefix delegation -/

theorem delegation_fields (L : Ledger) (now : Int) (s : Scope) (client duidHex via address : String) :
    let b := delegation L now s client duidHex via address
    b.scope = s.id ∧ b.address = address ∧ b.client = client ∧ b.origin = .dhcpv6PD ∧
      b.state = .offered ∧ b.endsAt = now + 30 := by
  unfold delegation
  simp only
  split
  · split
    · exact ⟨rfl, rfl, rfl, rfl, rfl, rfl⟩
    · split <;> exact ⟨rfl, rfl, rfl, rfl, rfl, rfl⟩
  · split
    · exact ⟨rfl, rfl, rfl, rfl, rfl, rfl⟩
    · split <;> exact ⟨rfl, rfl, rfl, rfl, rfl, rfl⟩

/-- The fields of what `AllocatePrefix` writes. -/
theorem delegateWrite_fields {duidHex via : String}
    (h : DelegateWrite now s client duidHex hint via commit L b kind) :
    ∃ chosen, PrefixChosen now s client hint L chosen ∧ b.scope = s.id ∧ b.address = chosen.text ∧
      b.client = client ∧ b.origin = .dhcpv6PD ∧ heldState b.state = true ∧
      b.endsAt = if commit then now + s.leaseSeconds else now + 30 := by
  obtain ⟨chosen, hchosen, rfl⟩ := h
  obtain ⟨hscope, haddress, hclient, horigin, hstate, hends⟩ :=
    delegation_fields L now s client duidHex via chosen.text
  refine ⟨chosen, hchosen, ?_⟩
  cases commit with
  | true => exact ⟨hscope, haddress, hclient, horigin, rfl, rfl⟩
  | false => exact ⟨hscope, haddress, hclient, horigin, by simp [hstate, heldState], hends⟩

theorem lastBinding_found {p : Binding → Bool} (h : lastBinding p bs ≠ {}) :
    lastBinding p bs ∈ bs ∧ p (lastBinding p bs) = true := by
  unfold lastBinding at h ⊢
  cases hlast : (bs.filter p).getLast? with
  | none =>
    rw [hlast] at h
    exact absurd rfl h
  | some => exact mem_filter.mp (mem_of_getLast? hlast)

theorem lastBinding_mem {p : Binding → Bool} (h : (lastBinding p bs).address ≠ "") :
    lastBinding p bs ∈ bs ∧ p (lastBinding p bs) = true := by
  refine lastBinding_found fun hzero => h ?_
  rw [hzero]

theorem scanPrefixes_free {free : Prefix → Bool} {pool : Prefix} {length n i : Nat}
    (h : scanPrefixes free pool length n i = some p) : free p = true := by
  induction n generalizing i with
  | zero => cases h
  | succ n ih =>
    rw [scanPrefixes] at h
    split at h
    · rename_i hfree
      rwa [← Option.some.inj h]
    · exact ih h

theorem choosePrefix_free {scope : String} {pool : Prefix} {length : Nat}
    (h : choosePrefix L now scope client hint pool length = some p) :
    freePrefix L now scope client p = true := by
  unfold choosePrefix at h
  simp only at h
  split at h
  · rename_i q hq
    have hfilter := (Option.filter_eq_some_iff.mp hq).2
    rw [← Option.some.inj h]
    exact (Bool.and_eq_true_iff.mp hfilter).2
  · exact scanPrefixes_free h

/-- Whoever holds the chosen prefix is the client. The delegation a client holds is found
through the index, and its text is that of the prefix it parses to. -/
theorem prefixChosen_free (hL : Sound L)
    (hdelegated : ∀ {k b}, L.bindings.get k = some b → b.origin = .dhcpv6PD → ∃ p : Prefix, b.address = p.text)
    {chosen : Prefix} (h : PrefixChosen now s client hint L chosen) {old : Binding}
    (hold : L.bindings.get (bindingKey s.id chosen.text) = some old) (hheld : old.held now = true) :
    old.client = client := by
  obtain ⟨pd, pool, -, -, ⟨hmine, hparse⟩ | ⟨-, hchoose⟩⟩ := h
  · have hfound : myDelegation L now s client ∈ L.liveByClient s.id client ∧
        heldDelegation now (myDelegation L now s client) = true := lastBinding_mem hmine
    generalize myDelegation L now s client = mine at hfound hparse
    obtain ⟨hstored, -, hclient, hscope⟩ := mem_liveByClient hL hfound.1
    have horigin : mine.origin = .dhcpv6PD := by
      simpa using (Bool.and_eq_true_iff.mp hfound.2).1
    obtain ⟨p, hp⟩ := hdelegated hstored horigin
    rw [hp, parsePrefix_text, Option.some.injEq] at hparse
    have hkey : bindingKey s.id chosen.text = mine.key := by
      rw [Binding.key, hscope, hp, hparse]
    rw [hkey, hstored, Option.some.injEq] at hold
    rw [← hold, hclient]
  · have hfree := choosePrefix_free hchoose
    have hread : L.readBinding s.id chosen.text = old := readBinding_of_get hold
    simpa [freePrefix, hread, hheld] using hfree

theorem delegate_guard (hs : AcceptedScope s) {duidHex via : String} (hL : Tidy L)
    (h : DelegateWrite now s client duidHex hint via commit L b kind) :
    Fits b ∧ Guard now (fun _ who => who = client) L b := by
  obtain ⟨chosen, hchosen, hscope, haddress, hclient, horigin, hstate, hends⟩ :=
    delegateWrite_fields h
  have hslash : '/' ∉ s.id.toList := AcceptedScope.slash_not_mem hs
  have hkey : b.key = bindingKey s.id chosen.text := by rw [Binding.key, hscope, haddress]
  refine ⟨⟨by rw [hscope]; exact AcceptedScope.label hs, ?_, fun _ => ⟨chosen, haddress⟩⟩, ?_⟩
  · intro hdeclined
    rw [hdeclined] at hstate
    cases hstate
  · intro old hold hlive
    rw [hkey] at hold
    -- A quarantine has a plain address, so it is at no key of a prefix.
    have hnot : old.state ≠ .declined := by
      intro hdeclined
      have hplain := (hL.fits hold).declined hdeclined
      have hkeyed := hL.sound.keyed hold
      obtain ⟨-, haddr⟩ := bindingKey_inj (hL.fits hold).slashless hslash hkeyed
      rw [haddr] at hplain
      exact PlainAddress.slash_not_mem hplain (slash_mem_text chosen)
    have hheld := held_of_live hlive hnot
    have hown := prefixChosen_free hL.sound (fun hb => (hL.fits hb).delegated) hchosen hold hheld
    refine ⟨hheld, ?_, by rw [hclient, hown], Or.inr hclient⟩
    obtain ⟨c, hc, hsc⟩ := hs
    obtain ⟨p, hfacts⟩ := scopeFacts_of_validate hc hsc
    have hlease := hfacts.leaseAtLeast
    unfold Binding.held
    rw [hstate, hends]
    split
    · simp only [Bool.and_true, decide_eq_true_eq]
      omega
    · simp

/-! ### Ending bindings -/

/-- Ending bindings leaves every other key alone. -/
theorem endBindings_get (L : Ledger) (now : Int) (bs : List Binding) (ended : Binding → Binding)
    (hkey : ∀ b, (ended b).key = b.key) (k : String) :
    (L.endBindings now bs ended).bindings.get k = L.bindings.get k ∨
      ∃ b ∈ bs, b.key = k ∧ (L.endBindings now bs ended).bindings.get k = some (ended b) := by
  refine (endBindings_saves L now bs ended).invariant
    (I := fun L' => L'.bindings.get k = L.bindings.get k ∨
      ∃ b ∈ bs, b.key = k ∧ L'.bindings.get k = some (ended b)) ?_ ?_ (Or.inl rfl)
  · intro L1 L2 haside h1
    rwa [haside.bindings]
  · intro L1 b kind hb h1
    obtain ⟨b0, hb0, rfl⟩ := hb
    rw [get_save]
    by_cases hk : k = (ended b0).key
    · rw [if_pos hk]
      exact Or.inr ⟨b0, hb0, by rw [hk, hkey], rfl⟩
    · rw [if_neg hk]
      exact h1

theorem endBindings_tidy (hL : Tidy L) (now : Int) {ended : Binding → Binding}
    (hfits : ∀ b ∈ bs, Fits (ended b)) : Tidy (L.endBindings now bs ended) := by
  refine (endBindings_saves L now bs ended).invariant (I := Tidy) ?_ ?_ hL
  · intro L1 L2 haside h1
    exact h1.aside haside
  · intro L1 b kind hb h1
    obtain ⟨b0, hb0, rfl⟩ := hb
    exact h1.save (hfits b0 hb0) now kind

/-! ### Report -/

/-- The hardware address of a reported interface, as the ledger writes it. -/
def reportedMAC (iface : InterfaceReport) : String := (parseMAC iface.mac).elim "" macText

/-- The binding that stands for a sighting. -/
def sightedBinding (now : Int) (o : Observation) : Binding :=
  { scope := o.scope, address := o.address, mac := o.mac, client := "neighbor:" ++ o.mac,
    device := deviceID o.scope o.mac, origin := .neighborReport, state := .active, start := now,
    endsAt := o.until_ }

/-- Why a binding is matched with one address of a report: it is found under the address and has the
hardware address, or a fresh sighting that has; or it stands for a fresh sighting of the address in a
scope, where nothing is live. -/
inductive Candidate (L : Ledger) (now : Int) (c : Config) (mac address : String) (m : Binding) : Prop where
  | found (hmem : m ∈ L.liveByAddress address) (hstate : m.state = .active) (hends : now < m.endsAt)
      (hmac : m.mac = mac ∨ ∃ o, L.observations.get m.key = some o ∧ freshSighting now mac o = true)
  | sighted (ip : Addr) (hip : parseAddr address = some ip) (s : Scope) (hs : s ∈ c.scopes) (p : Prefix)
      (hcontains : p.contains ip = true) (o : Observation)
      (hget : L.observations.get (bindingKey s.id ip.text) = some o) (hfresh : freshSighting now mac o = true)
      (hfree : (L.readBinding o.scope o.address).live now = false) (hm : m = sightedBinding now o)

theorem matchBinding_candidate {found : List String × List Binding} (hb : b ∈ L.liveByAddress address) :
    ∀ m ∈ (matchBinding L now mac found b).2, m ∈ found.2 ∨ Candidate L now c mac address m := by
  intro m hm
  unfold matchBinding at hm
  split at hm
  · exact Or.inl hm
  · rename_i hskip
    simp only [not_or, not_not, not_le] at hskip
    split at hm
    · exact Or.inl hm
    · rename_i hmac
      rcases mem_append.mp hm with hm | hm
      · exact Or.inl hm
      · obtain rfl := mem_singleton.mp hm
        refine Or.inr (.found hb hskip.2.1 hskip.2.2 ?_)
        by_cases hsame : m.mac = mac
        · exact Or.inl hsame
        · cases ho : L.observations.get m.key with
          | none => simp [ho, hsame] at hmac
          | some o => exact Or.inr ⟨o, rfl, by simpa [ho, hsame] using hmac⟩

theorem matchSighting_candidate {ip : Addr} (hip : parseAddr address = some ip)
    {found found' : List String × List Binding} (hs : s ∈ c.scopes)
    (h : matchSighting L now mac ip found s = .ok found') :
    ∀ m ∈ found'.2, m ∈ found.2 ∨ Candidate L now c mac address m := by
  intro m hm
  simp only [matchSighting, bind_eq_ok] at h
  obtain ⟨p, -, h⟩ := h
  split at h
  · rw [pure_eq_ok] at h
    exact Or.inl (by rwa [h])
  · rename_i hskip
    simp only [not_or, Bool.not_eq_true', Bool.not_eq_false] at hskip
    split at h
    · rw [pure_eq_ok] at h
      exact Or.inl (by rwa [h])
    · rename_i o ho
      obtain ⟨hget, hfresh⟩ := Option.filter_eq_some_iff.mp ho
      split at h
      · rw [pure_eq_ok] at h
        exact Or.inl (by rwa [h])
      · rename_i hfree
        rw [pure_eq_ok] at h
        rw [← h] at hm
        rcases mem_append.mp hm with hm | hm
        · exact Or.inl hm
        · exact Or.inr (.sighted ip hip s hs p hskip.1 o hget hfresh (by simpa using hfree)
            (mem_singleton.mp hm))

/-- Everything a report matches is a candidate for one of its addresses. -/
theorem reportMatches_candidate (h : reportMatches L now c node = .ok found) :
    ∀ m ∈ found, ∃ iface ∈ node.interfaces, ∃ address ∈ iface.addresses,
      Candidate L now c (reportedMAC iface) address m := by
  simp only [reportMatches, bind_eq_ok, pure_eq_ok] at h
  obtain ⟨acc, hacc, rfl⟩ := h
  let I : List String × List Binding → Prop := fun acc => ∀ m ∈ acc.2, ∃ iface ∈ node.interfaces,
    ∃ address ∈ iface.addresses, Candidate L now c (reportedMAC iface) address m
  -- The three loops only ever add candidates, for the interface and the address they are at.
  have hadd : ∀ {acc acc' : List String × List Binding} {iface address}, iface ∈ node.interfaces →
      address ∈ iface.addresses → I acc →
      (∀ m ∈ acc'.2, m ∈ acc.2 ∨ Candidate L now c (reportedMAC iface) address m) → I acc' := by
    intro acc acc' iface address hiface haddress hI hstep m hm
    rcases hstep m hm with hm | hm
    · exact hI m hm
    · exact ⟨iface, hiface, address, haddress, hm⟩
  refine foldlM_invariant (I := I) ?_ (fun m hm => (by cases hm)) hacc
  intro iface hiface acc1 acc2 h1 hstep
  refine foldlM_invariant (I := I) ?_ h1 hstep
  intro address haddress acc3 acc4 h3 hstep
  have hbindings : I ((L.liveByAddress address).foldl (matchBinding L now (reportedMAC iface)) acc3) :=
    foldl_invariant (I := I)
      (fun b hb _ hI => hadd hiface haddress hI (matchBinding_candidate hb)) h3
  unfold matchAddress at hstep
  simp only at hstep
  split at hstep
  · rw [pure_eq_ok] at hstep
    rw [← hstep]
    exact hbindings
  · rename_i ip hip
    refine foldlM_invariant (I := I) ?_ hbindings hstep
    intro s hs acc5 acc6 h5 hstep
    exact hadd hiface haddress h5 (matchSighting_candidate hip hs hstep)

/-- A binding that a report matched: a live active one, or a new one for a fresh sighting at a
key where nothing is live. -/
inductive Matched (L : Ledger) (now : Int) (m : Binding) : Prop where
  | stored (hget : L.bindings.get m.key = some m) (hstate : m.state = .active)
      (hends : now < m.endsAt)
  | sighted (o : Observation) (hget : L.observations.get m.key = some o)
      (hfree : ∀ old, L.bindings.get m.key = some old → old.live now = false)
      (hm : m = sightedBinding now o)
      (hends : now < o.until_)

theorem Matched.held (h : Matched L now m) : m.state = .active ∧ now < m.endsAt := by
  cases h with
  | stored _ hstate hends => exact ⟨hstate, hends⟩
  | sighted o _ _ hm hends =>
    subst hm
    exact ⟨rfl, hends⟩

/-- Two matches at one key belong to one client. -/
theorem Matched.client_eq {m' : Binding} (h : Matched L now m) (h' : Matched L now m') (hkey : m.key = m'.key) :
    m.client = m'.client := by
  have hlive : ∀ b : Binding, b.state = .active → now < b.endsAt → b.live now = true := by
    intro b hstate hends
    simp [Binding.live, hstate, liveState, hends]
  cases h with
  | stored hget hstate hends =>
    cases h' with
    | stored hget' =>
      rw [hkey, hget', Option.some.injEq] at hget
      rw [hget]
    | sighted o _ hfree =>
      have hnot := hfree m (by rw [← hkey]; exact hget)
      rw [hlive m hstate hends] at hnot
      cases hnot
  | sighted o hget hfree hm _ =>
    cases h' with
    | stored hget' hstate hends =>
      have hnot := hfree m' (by rw [hkey]; exact hget')
      rw [hlive m' hstate hends] at hnot
      cases hnot
    | sighted o' hget' _ hm' =>
      rw [hkey, hget', Option.some.injEq] at hget
      rw [hm, hm', hget]

/-- A binding that is found under an address is the one that is stored at its key. -/
theorem get_of_liveByAddress (hL : Sound L) (hb : b ∈ L.liveByAddress address) :
    L.bindings.get b.key = some b := by
  obtain ⟨k, scope, address', -, -, -, hread, hlive⟩ := mem_liveFromIndex hb
  have hget : L.bindings.get (bindingKey scope address') = some b := by
    rw [hread]
    refine get_of_readBinding fun hunset => ?_
    rw [hread, hunset] at hlive
    cases hlive
  rw [hL.keyed hget]
  exact hget

/-- Where bindings and sightings are stored at their own keys, a candidate is matched. -/
theorem Candidate.matched (hL : Sound L)
    (hsighted : ∀ {k o}, L.observations.get k = some o → bindingKey o.scope o.address = k)
    (h : Candidate L now c mac address m) : Matched L now m := by
  cases h with
  | found hmem hstate hends => exact .stored (get_of_liveByAddress hL hmem) hstate hends
  | sighted ip _ s _ p _ o hget hfresh hfree hm =>
    have hkey : m.key = bindingKey s.id ip.text := by
      rw [hm]
      exact hsighted hget
    have hends : now < o.until_ := by
      simpa using (Bool.and_eq_true_iff.mp hfresh).1
    refine .sighted o (by rw [hkey]; exact hget) ?_ hm hends
    intro old hold
    have hread : L.readBinding o.scope o.address = old := by
      refine readBinding_of_get ?_
      rw [hsighted hget, ← hkey]
      exact hold
    rwa [hread] at hfree

/-- Everything a report matches is such a binding. -/
theorem reportMatches_matched (hL : Tidy L) (h : reportMatches L now c node = .ok found) :
    ∀ m ∈ found, Matched L now m := by
  intro m hm
  obtain ⟨iface, -, address, -, hcandidate⟩ := reportMatches_candidate h m hm
  exact hcandidate.matched hL.sound fun ho => (hL.sighted ho).1

/-- A report changes device, name, node and evidence, and the end of a sighting to that of a
fresh one. -/
theorem associated_fields (L : Ledger) (now : Int) (node : Node) (device name : String) (b : Binding) :
    let b' := associated L now node device name b
    b'.scope = b.scope ∧ b'.address = b.address ∧ b'.client = b.client ∧ b'.state = b.state ∧
      b'.origin = b.origin ∧ (now < b.endsAt → now < b'.endsAt) := by
  unfold associated
  simp only
  split
  · split
    · rename_i o ho
      have hfresh := (Option.filter_eq_some_iff.mp ho).2
      refine ⟨rfl, rfl, rfl, rfl, rfl, fun _ => ?_⟩
      simpa using (Bool.and_eq_true_iff.mp hfresh).1
    · exact ⟨rfl, rfl, rfl, rfl, rfl, id⟩
  · exact ⟨rfl, rfl, rfl, rfl, rfl, id⟩

theorem Matched.fits (hL : Tidy L) (h : Matched L now m) :
    labelPattern m.scope = true ∧ (m.origin = .dhcpv6PD → ∃ p : Prefix, m.address = p.text) := by
  cases h with
  | stored hget => exact ⟨(hL.fits hget).label, (hL.fits hget).delegated⟩
  | sighted o hget _ hm =>
    subst hm
    exact ⟨(hL.sighted hget).2.label, fun h => (by cases h)⟩

theorem associated_fits (hL0 : Tidy L0) (h : Matched L0 now m) (L : Ledger) (node : Node) (device name : String) :
    Fits (associated L now node device name m) := by
  obtain ⟨hscope, haddress, -, hstate, horigin, -⟩ := associated_fields L now node device name m
  obtain ⟨hlabel, hdelegated⟩ := h.fits hL0
  refine ⟨by rw [hscope]; exact hlabel, ?_, ?_⟩
  · intro hdeclined
    rw [hstate, h.held.1] at hdeclined
    cases hdeclined
  · intro hpd
    rw [haddress]
    exact hdelegated (by rw [← horigin]; exact hpd)

/-- The saves of a report keep the live bindings. The guard of each save is about the ledger at
that moment, so the induction carries that what is live at the key of a match is held by the
client of the match. -/
theorem report_kept (hL : Tidy L) {device name : String} (hfound : ∀ m ∈ found, Matched L now m)
    (h : Saves (ReportWrite now node device name found) now L L') :
    Tidy L' ∧ Kept now (fun _ _ => True) L L' := by
  have hstart : ∀ m ∈ found, ∀ old, L.bindings.get m.key = some old → old.live now = true →
      old.held now = true ∧ old.client = m.client := by
    intro m hm old hold hlive
    cases hfound m hm with
    | stored hget hstate =>
      rw [hget, Option.some.injEq] at hold
      subst hold
      exact ⟨held_of_live hlive (by rw [hstate]; decide), rfl⟩
    | sighted o _ hfree =>
      rw [hfree old hold] at hlive
      cases hlive
  have hall := h.invariant
    (I := fun L1 => (Tidy L1 ∧ Kept now (fun _ _ => True) L L1) ∧
      ∀ m ∈ found, ∀ old, L1.bindings.get m.key = some old → old.live now = true →
        old.held now = true ∧ old.client = m.client) ?_ ?_ ⟨⟨hL, .refl _ _ L⟩, hstart⟩
  · exact hall.1
  · intro L1 L2 haside h1
    refine ⟨⟨h1.1.1.aside haside, h1.1.2.aside haside⟩, ?_⟩
    intro m hm old hold
    rw [haside.bindings] at hold
    exact h1.2 m hm old hold
  · intro L1 b kind hb h1
    obtain ⟨m, hm, rfl⟩ := hb
    obtain ⟨hscope, haddress, hclient, hstate, -, hends⟩ :=
      associated_fields L1 now node device name m
    obtain ⟨hactive, hlater⟩ := (hfound m hm).held
    have hkey : (associated L1 now node device name m).key = m.key := by
      rw [Binding.key, hscope, haddress]
      rfl
    have hheld : (associated L1 now node device name m).held now = true := by
      simp [Binding.held, hstate, hactive, heldState, hends hlater]
    have hfits := associated_fits hL (hfound m hm) L1 node device name
    have hguard : Guard now (fun _ _ => True) L1 (associated L1 now node device name m) := by
      intro old hold hlive
      rw [hkey] at hold
      obtain ⟨hold', hown⟩ := h1.2 m hm old hold hlive
      exact ⟨hold', hheld, by rw [hclient, hown], Or.inr trivial⟩
    refine ⟨⟨h1.1.1.save hfits now kind, h1.1.2.save hguard kind⟩, ?_⟩
    intro m' hm' old hold hlive
    rw [get_save, hkey] at hold
    split at hold
    · rename_i hsame
      rw [← Option.some.inj hold]
      exact ⟨hheld, by rw [hclient, (hfound m hm).client_eq (hfound m' hm') hsame.symm]⟩
    · exact h1.2 m' hm' old hold hlive

/-! ### Observe -/

theorem Tidy.sight (hL : Tidy L) (ho : Seen o) :
    Tidy { L with observations := L.observations.put (bindingKey o.scope o.address) o } where
  sound := ⟨hL.sound.keyed, hL.sound.indexed⟩
  fits := hL.fits
  sighted := by
    intro k o1 ho1
    rcases Bucket.get_put_eq_some.mp ho1 with ⟨rfl, rfl⟩ | ⟨-, ho1⟩
    · exact ⟨rfl, ho⟩
    · exact hL.sighted ho1

/-- Whatever is logged, the tables stay tidy. -/
theorem Tidy.appendEvent (hL : Tidy L) (e : Event) : Tidy (L.appendEvent e) where
  sound := ⟨hL.sound.keyed, hL.sound.indexed⟩
  fits := hL.fits
  sighted := hL.sighted

/-- What is recorded under accepted configurations is seen. -/
theorem seen_of_stepSightings {st : Step} (hc : ∀ c, Operation.Sights c st.op → c.validate = .ok ()) :
    ∀ o ∈ stepSightings st, Seen o := by
  intro o ho
  obtain ⟨c, s, ip, mac, ttl, o0, hsights, hs, hzone, rfl⟩ := stepSightings_recorded ho
  exact ⟨label_of_scope (hc c hsights) hs, ⟨ip, hzone, rfl⟩, mac, rfl⟩

theorem Seen.closed (h : Seen o) (t : Int) : Seen { o with until_ := t } := ⟨h.label, h.address, h.mac⟩

/-- The configuration of an operation that is called as it should be is accepted. -/
theorem Sights.admissible {op : Operation} (h : Operation.Sights c op) (hop : op.Admissible) :
    c.validate = .ok () := by
  cases op with
  | observe c' =>
    obtain rfl : c' = c := h
    exact hop
  | observeSwitch c' =>
    obtain rfl : c' = c := h
    exact hop
  | _ => exact h.elim

theorem notes_tidy {op : Operation} (hop : op.Admissible) (hL : Tidy L) :
    Tidy ((stepSightings ⟨now, op⟩).foldl (noteSighting now) L) :=
  notes_invariant (fun h ho => (h.sighted ho).2) (fun t ho => ho.closed t) (fun ho h => h.sight ho)
    (fun _ _ h => h.appendEvent _) (seen_of_stepSightings fun _ hc => Sights.admissible hc hop) hL

end Ghostd.Proofs.Addressbook
