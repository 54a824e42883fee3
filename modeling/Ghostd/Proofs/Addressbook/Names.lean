import Ghostd.Proofs.Addressbook.Import
import Ghostd.Proofs.Addressbook.Repairs
import Ghostd.Proofs.Addressbook.Zones

/-!
# `Ghostd.Proofs.Addressbook.Names`: one device behind a local name

The name of a binding comes from one of three sources (`Rightful`). A generated name is the device's own
identifier. A declared name is that of a device of the inventory. Any other name was chosen: by an
operator, or by a node for itself. Names of different sources are different, as long as nobody chooses or
declares a generated one. Generated names and declared names tell their device. So only a chosen name can
come to stand for two devices.

`Repair` looks for another live holder of a name before it gives it. `Report` looks for holders of
other nodes only, and `Allocate` does not look when it brings back the name of an association or of an
offer. `name_one_device` says that names stand for one device each along every run in which those two
give no name that another device holds (`Candid`). `name_two_devices` is a run in which one does.
-/

set_option autoImplicit false

namespace Ghostd.Proofs.Addressbook

open Ghostd.Lib Ghostd.Addressbook List

variable {L L' : Ledger} {client device k name : String} {c : Config} {now : Int} {b : Binding} {node : Node}
    {doc : ImportDocument} {found : List Binding} {r : IdentityRepair} {s : Scope}

/-! ### Sources of names -/

/-- The name is the identifier that is generated for some client. -/
def Generated (name : String) : Prop := ∃ scope client, name = deviceID scope client

/-- Where a device has its name from. -/
inductive Rightful (c : Config) (device name : String) : Prop where
  | generated (hself : name = device) (hgenerated : Generated name)
  | declared (d : DeviceConfig) (hd : d ∈ c.devices) (hid : d.id = device) (hname : d.name = name)
  | chosen (hlabel : labelPattern name = true) (hgenerated : ¬ Generated name)
      (hfree : ∀ d ∈ c.devices, d.name ≠ name)

/-- The inventory declares no generated name. -/
def Ungenerated (c : Config) : Prop := ∀ d ∈ c.devices, ¬ Generated d.name

theorem device_of_name (hc : c.validate = .ok ()) {d d' : DeviceConfig} (hd : d ∈ c.devices)
    (hd' : d' ∈ c.devices) (hname : d.name = d'.name) : d = d' := by
  exact inj_on_of_nodup_map (device_names hc).1 hd hd' hname

/-- A generated or a declared name tells the device. -/
theorem Rightful.device_eq (hc : c.validate = .ok ()) (hungenerated : Ungenerated c) {device' : String}
    (h : Rightful c device name) (h' : Rightful c device' name)
    (hknown : Generated name ∨ ∃ d ∈ c.devices, d.name = name) : device = device' := by
  rcases hknown with hgenerated | ⟨d, hd, hname⟩
  · -- Nobody else has a generated name.
    have hself : ∀ {x : String}, Rightful c x name → x = name := by
      intro x hx
      cases hx with
      | generated hself => exact hself.symm
      | declared d hd _ hname =>
        rw [← hname] at hgenerated
        exact absurd hgenerated (hungenerated d hd)
      | chosen _ hnot => exact absurd hgenerated hnot
    rw [hself h, hself h']
  · have hdevice : ∀ {x : String}, Rightful c x name → x = d.id := by
      intro x hx
      cases hx with
      | generated _ hgenerated =>
        rw [← hname] at hgenerated
        exact absurd hgenerated (hungenerated d hd)
      | declared d' hd' hid hname' =>
        rw [device_of_name hc hd hd' (hname.trans hname'.symm), hid]
      | chosen _ _ hfree => exact absurd hname (hfree d hd)
    rw [hdevice h, hdevice h']

theorem Rightful.plain (hc : c.validate = .ok ()) (h : Rightful c device name) : PlainName name := by
  cases h with
  | generated _ hgenerated =>
    obtain ⟨scope, client, rfl⟩ := hgenerated
    exact plainName_deviceID scope client
  | declared d hd _ hname =>
    rw [← hname]
    exact plainName_of_label (labels_of_device hc hd).2
  | chosen hlabel => exact plainName_of_label hlabel

/-! ### What is known of every ledger of a run -/

/-- The entry of a binding in the name index. -/
def nameEntry (b : Binding) : Index × String := (.name, indexKey [b.name, b.scope, b.address])

/-- Every binding has its name from one of the sources, and is found under it while it is active. -/
structure Titled (c : Config) (L : Ledger) : Prop where
  filed : Filed L
  rightful : ∀ {k b}, L.bindings.get k = some b → Rightful c b.device b.name
  shelved : ∀ {k b}, L.bindings.get k = some b → b.state = .active → Indexed L (nameEntry b)

theorem titled_empty (c : Config) : Titled c {} where
  filed := filed_empty
  rightful h := by simp at h
  shelved h := by simp at h

theorem mem_nameEntries (h : (Index.name, k) ∈ indexEntries b) : (Index.name, k) = nameEntry b := by
  rw [mem_indexEntries] at h
  rw [nameEntry, h.2.2.2]

section Saving

variable {c : Config} {L L' : Ledger}

theorem Titled.aside (h : Titled c L) (hL' : Aside L L') : Titled c L' where
  filed := h.filed.aside hL'
  rightful hb := h.rightful (by rwa [hL'.bindings] at hb)
  shelved hb hactive := by
    rw [Indexed, hL'.indexes]
    exact h.shelved (by rwa [hL'.bindings] at hb) hactive

theorem Titled.save (hc : c.validate = .ok ()) (h : Titled c L) (hb : Denotes b)
    (hname : Rightful c b.device b.name) (now : Int) (kind : EventKind) : Titled c (L.save now b kind) where
  filed := h.filed.save hb now kind
  rightful := by
    intro k b' hget
    rcases get_save_eq_some.mp hget with ⟨-, rfl⟩ | ⟨-, hget⟩
    · exact hname
    · exact h.rightful hget
  shelved := by
    intro k b' hget hactive
    rw [nameEntry, indexed_save]
    rcases get_save_eq_some.mp hget with ⟨-, rfl⟩ | ⟨hk, hget⟩
    · refine Or.inr (mem_indexEntries.mpr ⟨by rw [hactive]; rfl, hactive, ?_, rfl⟩)
      exact (hname.plain hc).ne
    · -- What is removed is the entry of the binding at the key that is written.
      refine Or.inl ⟨h.shelved hget hactive, fun hremoved => hk ?_⟩
      have hold : (L.readBinding b.scope b.address).state ≠ .unset := by
        intro hunset
        have hactive := (mem_indexEntries.mp hremoved).2.1
        rw [hunset] at hactive
        cases hactive
      have hstored := get_of_readBinding hold
      have hkeys := (Prod.mk.inj (mem_nameEntries hremoved)).2
      have hparts : ∀ {k : String} {x : Binding}, L.bindings.get k = some x →
          ∀ p ∈ [x.name, x.scope, x.address], '\x00' ∉ p.toList := by
        intro k x hx
        have hx' := h.filed.stored hx
        simp [((h.rightful hx).plain hc).nul, hx'.scope, hx'.address]
      obtain ⟨-, hscope, haddress⟩ := indexKey_inj (hparts hget) (hparts hstored) hkeys
      rw [← h.filed.sound.keyed hget, Binding.key, hscope, haddress]
      exact h.filed.sound.keyed hstored

/-- Every binding that is saved is in the log afterwards. -/
theorem Saves.logged {P : Ledger → Binding → EventKind → Prop} {es : List Event} (h : Saves P now L L')
    (hes : L'.events <+: es) : Saves (fun L1 b kind => P L1 b kind ∧ ∃ e ∈ es, e.binding = b) now L L' := by
  induction h with
  | refl => exact .refl
  | @save L1 b kind _ hP ih =>
    rw [events_save] at hes
    have hmem := hes.subset (mem_append_right _ (mem_singleton.mpr rfl))
    exact .save (ih ((prefix_append _ _).trans hes)) ⟨hP, _, hmem, rfl⟩
  | aside _ haside ih =>
    obtain ⟨notes, hevents, -⟩ := haside.noted
    rw [hevents] at hes
    exact .aside (ih ((prefix_append _ _).trans hes)) haside

theorem denotes_of_save {kind : EventKind} (h : Filed (L.save now b kind)) : Denotes b := by
  have hevents := h.logged
  rw [events_save] at hevents
  exact (hevents _ (mem_append_right _ (mem_singleton.mpr rfl))).1

/-- The rule for transactions: it is enough that every save has a rightful name. -/
theorem Titled.saves (hc : c.validate = .ok ()) {P : Ledger → Binding → EventKind → Prop} (hL : Titled c L)
    (h : Saves P now L L') (hL' : Filed L') {I : Ledger → Prop} (hI : I L)
    (haside : ∀ L1 L2, Aside L1 L2 → I L1 → I L2) (hsave : ∀ L1 b kind, Titled c L1 → I L1 → P L1 b kind →
      Rightful c b.device b.name ∧ I (L1.save now b kind)) : Titled c L' ∧ I L' := by
  refine (Saves.logged h prefix_rfl).invariant (I := fun L1 => Titled c L1 ∧ I L1) ?_ ?_ ⟨hL, hI⟩
  · intro L1 L2 haside' h1
    exact ⟨h1.1.aside haside', haside L1 L2 haside' h1.2⟩
  · intro L1 b kind hb h1
    obtain ⟨hP, e, he, rfl⟩ := hb
    obtain ⟨hname, hI'⟩ := hsave L1 e.binding kind h1.1 h1.2 hP
    exact ⟨h1.1.save hc (hL'.logged e he).1 hname now kind, hI'⟩

end Saving

/-! ### One device -/

/-- The two scopes publish in one zone. -/
def SameZone (c : Config) (x y : String) : Prop :=
  ∃ s s', c.scope x = some s ∧ c.scope y = some s' ∧ s.zone = s'.zone

theorem SameZone.symm {x y : String} (h : SameZone c x y) : SameZone c y x := by
  obtain ⟨s, s', hs, hs', hzone⟩ := h
  exact ⟨s', s, hs', hs, hzone.symm⟩

/-- The binding is stored, and active at the instant. -/
structure Published (L : Ledger) (now : Int) (b : Binding) : Prop where
  stored : L.bindings.get b.key = some b
  active : b.state = .active
  ends : now < b.endsAt

/-- A name stands for one device in each zone. -/
def OneDevice (c : Config) (L : Ledger) (now : Int) : Prop :=
  ∀ b b', Published L now b → Published L now b' → SameZone c b.scope b'.scope → b.name = b'.name →
    b.device = b'.device

/-- Every holder of the name in the zone of the scope, apart from the keys, is the device. -/
def Unheld (c : Config) (L : Ledger) (now : Int) (keys : List String) (scope device name : String) : Prop :=
  ∀ b, Published L now b → b.key ∉ keys → SameZone c b.scope scope → b.name = name → b.device = device

theorem Published.later {now' : Int} (h : Published L now' b) (hnow : now ≤ now') : Published L now b :=
  ⟨h.stored, h.active, by have := h.ends; omega⟩

theorem OneDevice.later {now' : Int} (h : OneDevice c L now) (hnow : now ≤ now') : OneDevice c L now' :=
  fun b b' hb hb' => h b b' (hb.later hnow) (hb'.later hnow)

theorem Published.congr (h : Published L' now b) (hsame : L'.bindings.get b.key = L.bindings.get b.key) :
    Published L now b :=
  ⟨by rw [← hsame]; exact h.stored, h.active, h.ends⟩

theorem OneDevice.congr (h : OneDevice c L now) (hL' : L'.bindings = L.bindings) : OneDevice c L' now :=
  fun b b' hb hb' => h b b' (hb.congr (by rw [hL'])) (hb'.congr (by rw [hL']))

/-- A save keeps it, where the name that it gives to an active binding is not held by another device. -/
theorem OneDevice.save (h : OneDevice c L now) {x : Binding}
    (hx : x.state = .active → now < x.endsAt → Unheld c L now [x.key] x.scope x.device x.name)
    (kind : EventKind) : OneDevice c (L.save now x kind) now := by
  -- A published binding is the one that was saved, or was published before at another key.
  have hcases : ∀ b, Published (L.save now x kind) now b → b = x ∨ (Published L now b ∧ b.key ∉ [x.key]) := by
    intro b hb
    rcases get_save_eq_some.mp hb.stored with ⟨-, rfl⟩ | ⟨hk, hstored⟩
    · exact Or.inl rfl
    · exact Or.inr ⟨⟨hstored, hb.active, hb.ends⟩, by simpa using hk⟩
  intro b b' hb hb' hzone hname
  rcases hcases b hb with rfl | ⟨hold, hother⟩
  · rcases hcases b' hb' with rfl | ⟨hold', hother'⟩
    · rfl
    · exact (hx hb.active hb.ends b' hold' hother' hzone.symm hname.symm).symm
  · rcases hcases b' hb' with rfl | ⟨hold', hother'⟩
    · exact hx hb'.active hb'.ends b hold hother hzone hname
    · exact h b b' hold hold' hzone hname

/-- A generated or a declared name is held by no other device. -/
theorem Titled.unheld (hc : c.validate = .ok ()) (hungenerated : Ungenerated c) (h : Titled c L) (now : Int)
    (keys : List String) (scope : String) (hname : Rightful c device name)
    (hknown : Generated name ∨ ∃ d ∈ c.devices, d.name = name) : Unheld c L now keys scope device name := by
  intro b hb _ _ hsame
  have hrightful := h.rightful hb.stored
  rw [hsame] at hrightful
  exact hrightful.device_eq hc hungenerated hname hknown

/-! ### Allocations and imports -/

/-- A reservation decides alone. -/
theorem leaseIdentity_reserved {old : Binding} {r : Reservation} (hr : reservation s b.client b.mac = some r)
    {d : DeviceConfig} (hd : c.device r.device = some d) :
    (leaseIdentity L now c s old b).device = d.id ∧ (leaseIdentity L now c s old b).name = d.name := by
  unfold leaseIdentity
  by_cases hcarry : old.client = b.client ∧ old.endsAt > now ∧ old.state ≠ .declined
  · cases ha : L.readAssociation b.client <;> simp [hcarry, ha, hr, hd]
  · cases ha : L.readAssociation b.client <;> simp [hcarry, ha, hr, hd]

/-- Where a new lease has its name from: the inventory, the client's association, the running lease of the
client at the address, or it is generated. -/
theorem leaseIdentity_source (L : Ledger) (now : Int) (hc : c.validate = .ok ()) (hs : s ∈ c.scopes)
    (old b : Binding) : let x := leaseIdentity L now c s old b
    (∃ d ∈ c.devices, x.device = d.id ∧ x.name = d.name) ∨
      (∃ a, L.readAssociation b.client = some a ∧ x.device = a.device ∧ x.name = a.name) ∨
      (old.client = b.client ∧ now < old.endsAt ∧ old.state ≠ .declined ∧ x.device = old.device ∧
        x.name = old.name) ∨
      (x.device = deviceID s.id b.client ∧ x.name = deviceID s.id b.client) := by
  cases hr : reservation s b.client b.mac with
  | some =>
    obtain ⟨d, hd, hfind⟩ := device_of_reservation hc hs (mem_of_find?_eq_some hr)
    exact Or.inl ⟨d, hd, leaseIdentity_reserved hr hfind⟩
  | none =>
    unfold leaseIdentity
    by_cases hcarry : old.client = b.client ∧ old.endsAt > now ∧ old.state ≠ .declined
    · simp only [if_pos hcarry]
      cases ha : L.readAssociation b.client with
      | none =>
        rw [hr]
        exact Or.inr (Or.inr (Or.inl ⟨hcarry.1, hcarry.2.1, hcarry.2.2, rfl, rfl⟩))
      | some a =>
        rw [hr]
        exact Or.inr (Or.inl ⟨a, rfl, rfl, rfl⟩)
    · simp only [if_neg hcarry]
      cases ha : L.readAssociation b.client with
      | none =>
        rw [hr]
        exact Or.inr (Or.inr (Or.inr ⟨rfl, rfl⟩))
      | some a =>
        rw [hr]
        exact Or.inr (Or.inl ⟨a, rfl, rfl, rfl⟩)

/-- The same of an imported lease, which knows no association. -/
theorem importedBinding_source (now : Int) (hc : c.validate = .ok ()) (hs : s ∈ c.scopes) (l : ImportedLease)
    (mac client : String) (ends : Int) (old : Binding) : let x := importedBinding now c s l mac client ends old
    (∃ d ∈ c.devices, x.device = d.id ∧ x.name = d.name) ∨
      (old.client = client ∧ old.state = .active ∧ now < old.endsAt ∧ x.device = old.device ∧ x.name = old.name) ∨
      (x.device = deviceID l.scope client ∧ x.name = deviceID l.scope client) := by
  unfold importedBinding
  cases hr : reservation s client mac with
  | some =>
    obtain ⟨d, hd, hfind⟩ := device_of_reservation hc hs (mem_of_find?_eq_some hr)
    simp only [hfind, Option.getD_some]
    exact Or.inl ⟨d, hd, rfl, rfl⟩
  | none =>
    simp only
    by_cases hcarry : old.client = client ∧ old.state = .active ∧ old.endsAt > now
    · rw [if_pos hcarry]
      exact Or.inr (Or.inl ⟨hcarry.1, hcarry.2.1, hcarry.2.2, rfl, rfl⟩)
    · rw [if_neg hcarry]
      exact Or.inr (Or.inr ⟨rfl, rfl⟩)

theorem rightful_device (h : ∃ d ∈ c.devices, device = d.id ∧ name = d.name) :
    Rightful c device name ∧ ∃ d ∈ c.devices, d.name = name := by
  obtain ⟨d, hd, rfl, rfl⟩ := h
  exact ⟨.declared d hd rfl rfl, d, hd, rfl⟩

theorem rightful_deviceID {scope : String} (h : device = deviceID scope client ∧ name = deviceID scope client) :
    Rightful c device name ∧ Generated name := by
  obtain ⟨rfl, rfl⟩ := h
  exact ⟨.generated rfl ⟨scope, client, rfl⟩, scope, client, rfl⟩

/-- The associations have their names from the same sources. -/
def Entitled (c : Config) (L : Ledger) : Prop :=
  ∀ {client a}, L.readAssociation client = some a → Rightful c a.device a.name

/-- A binding that is read with a client is a stored one. -/
theorem get_of_client {scope address : String} (hclient : validClient client = true)
    (h : (L.readBinding scope address).client = client) :
    L.bindings.get (bindingKey scope address) = some (L.readBinding scope address) := by
  unfold Ledger.readBinding at h ⊢
  cases hget : L.bindings.get (bindingKey scope address) with
  | some => rfl
  | none =>
    rw [hget] at h
    rw [← h] at hclient
    cases hclient

/-- What an allocation asks of the names that it brings back: the name of the client's association, or of a
lease of the client at the address that is not active, is held by no other device. -/
def BringsBack (c : Config) (L : Ledger) (now : Int) (scopeID client mac requested : String) (commit : Bool) : Prop :=
  ∀ s m ip, c.scope scopeID = some s → canonicalMAC s mac = .ok m →
    chooseAddress L now s client m requested commit = .ok ip →
      (∀ a, L.readAssociation client = some a → Unheld c L now [bindingKey s.id ip] s.id a.device a.name) ∧
        ∀ b, L.bindings.get (bindingKey s.id ip) = some b → b.client = client → b.state ≠ .active →
          Unheld c L now [bindingKey s.id ip] s.id b.device b.name

section Operations

variable {c : Config} (hc : c.validate = .ok ()) (hungenerated : Ungenerated c) {L : Ledger} {now : Int}
  (hL : Titled c L) (hone : OneDevice c L now)

include hc hungenerated hL hone

/-- The name of an active binding is held by no other device, at the key of that binding. -/
theorem unheld_self (hb : L.bindings.get k = some b) (hactive : b.state = .active) (hends : now < b.endsAt) :
    Unheld c L now [k] b.scope b.device b.name := by
  intro b' hb' _ hzone hname
  have hkey : b.key = k := hL.filed.sound.keyed hb
  exact hone b' b hb' ⟨by rw [hkey]; exact hb, hactive, hends⟩ hzone hname

theorem allocate_one_device (hentitled : Entitled c L) {scopeID mac claimed requested : String} {commit : Bool}
    (hcandid : commit = true → BringsBack c L now scopeID client mac requested commit) {r : Binding}
    (hL' : Filed L') (h : L.allocate now c scopeID client mac claimed requested commit = .ok (r, L')) :
    Titled c L' ∧ OneDevice c L' now := by
  obtain ⟨s, m, ip, hs, henabled, hvalid, hmac, hfamily, hchosen, hcases⟩ := allocate_cases h
  rcases hcases with ⟨-, -, -, -, -, rfl⟩ | ⟨hr, -, rfl⟩
  · exact ⟨hL, hone⟩
  · have hfields := newLease_fields L now c s client m claimed ip commit
    rw [← hr] at hfields
    have hkey : r.key = bindingKey s.id ip := by rw [Binding.key, hfields.scope, hfields.address]
    have hmem := (mem_of_scope hs).1
    obtain ⟨base, hclient, -, hdevice, hname, -, -⟩ := newLease_identity L now c s client m claimed ip commit
    rw [← hr] at hdevice hname
    -- The saved binding is in the log.
    have hdenotes : Denotes r := denotes_of_save hL'
    have hboth : Rightful c r.device r.name ∧
        (commit = true → Unheld c L now [bindingKey s.id ip] s.id r.device r.name) := by
      have hsource := leaseIdentity_source L now hc hmem (L.readBinding s.id ip) base
      simp only [← hdevice, ← hname, hclient] at hsource
      rcases hsource with hd | ⟨a, ha, hadevice, haname⟩ | ⟨hown, hlater, -, hodevice, honame⟩ | hid
      · obtain ⟨hrightful, hknown⟩ := rightful_device hd
        exact ⟨hrightful, fun _ => hL.unheld hc hungenerated now _ _ hrightful (Or.inr hknown)⟩
      · rw [hadevice, haname]
        exact ⟨hentitled ha, fun hcommit => ((hcandid hcommit) s m ip hs hmac hchosen).1 a ha⟩
      · have hold := get_of_client hvalid hown
        rw [hodevice, honame]
        refine ⟨hL.rightful hold, fun hcommit => ?_⟩
        by_cases hactive : (L.readBinding s.id ip).state = .active
        · -- A renewal: the lease that runs has the name already.
          have hself := unheld_self hc hungenerated hL hone hold hactive hlater
          have hslash : '/' ∉ s.id.toList := by
            rw [(mem_of_scope hs).2]
            exact slash_not_mem_label (label_of_scope hc hs)
          have hscope := (bindingKey_inj (hL.filed.stored hold).slashless hslash (hL.filed.sound.keyed hold)).1
          rwa [hscope] at hself
        · exact ((hcandid hcommit) s m ip hs hmac hchosen).2 _ hold hown hactive
      · obtain ⟨hrightful, hknown⟩ := rightful_deviceID (c := c) hid
        exact ⟨hrightful, fun _ => hL.unheld hc hungenerated now _ _ hrightful (Or.inl hknown)⟩
    refine ⟨hL.save hc hdenotes hboth.1 now _, hone.save ?_ _⟩
    intro hactive _
    have hcommit : commit = true := by
      cases commit with
      | true => rfl
      | false =>
        rw [hfields.state] at hactive
        cases hactive
    rw [hkey, hfields.scope]
    exact hboth.2 hcommit

omit hc hungenerated in
/-- A binding that only ends keeps its name. -/
theorem ended_one_device {x : Binding} {kind : EventKind} (hb : L.bindings.get k = some b)
    (hdevice : x.device = b.device) (hname : x.name = b.name) (hstate : x.state ≠ .active) :
    Rightful c x.device x.name ∧ OneDevice c (L.save now x kind) now := by
  rw [hdevice, hname]
  exact ⟨hL.rightful hb, hone.save (fun hactive => absurd hactive hstate) kind⟩

omit hungenerated in
theorem release_one_device {scope ip : String} {decline : Bool} (hL' : Filed L')
    (h : L.release now scope client ip decline = .ok L') : Titled c L' ∧ OneDevice c L' now := by
  refine hL.saves hc (release_saves h) hL' (I := fun L1 => OneDevice c L1 now) hone (fun _ _ haside h => h.congr haside.bindings) ?_
  intro L1 b kind h1 hone1 hwrite
  obtain ⟨b0, hget, -, -, rfl | rfl⟩ := hwrite
  · exact ended_one_device h1 hone1 hget rfl rfl (by simp)
  · exact ended_one_device h1 hone1 hget rfl rfl (by simp)

omit hungenerated in
theorem expire_one_device (hL' : Filed (L.expire now)) : Titled c (L.expire now) ∧ OneDevice c (L.expire now) now := by
  refine hL.saves hc (expire_saves L now) hL' (I := fun L1 => OneDevice c L1 now) hone (fun _ _ haside h => h.congr haside.bindings) ?_
  intro L1 b kind h1 hone1 hwrite
  obtain ⟨k, b0, hget, -, -, rfl⟩ := hwrite
  exact ended_one_device h1 hone1 hget rfl rfl (by simp)

theorem import_one_device (hL' : Filed L') (h : L.importDocument now c doc = .ok L') :
    Titled c L' ∧ OneDevice c L' now := by
  refine hL.saves hc (importDocument_saves h) hL' (I := fun L1 => OneDevice c L1 now) hone (fun _ _ haside h => h.congr haside.bindings) ?_
  intro L1 b kind h1 hone1 hwrite
  obtain ⟨l, hl, s, mac, client, hcheck, hends, hwrite⟩ := hwrite
  obtain ⟨hs, -, hvalid, -, -, -⟩ := checkImported_ok hcheck
  have hmem := (mem_of_scope hs).1
  rcases hwrite with ⟨-, -, rfl⟩ | ⟨-, -, hb⟩
  · -- A restored quarantine is not active.
    have hrightful : Rightful c (deviceID l.scope client) (deviceID l.scope client) :=
      (rightful_deviceID ⟨rfl, rfl⟩).1
    exact ⟨hrightful, hone1.save (fun hactive => by cases hactive) kind⟩
  · obtain ⟨hscope, haddress, -⟩ := importedBinding_fields now c s l mac client (importedEnd l)
      (L1.readBinding l.scope l.address)
    rw [← hb] at hscope haddress
    have hkey : b.key = bindingKey l.scope l.address := by rw [Binding.key, hscope, haddress]
    have hsource := importedBinding_source now hc hmem l mac client (importedEnd l) (L1.readBinding l.scope l.address)
    simp only [← hb] at hsource
    have hboth : Rightful c b.device b.name ∧ Unheld c L1 now [b.key] b.scope b.device b.name := by
      rw [hkey, hscope]
      rcases hsource with hd | ⟨hown, hactive, hlater, hdevice, hname⟩ | hid
      · obtain ⟨hrightful, hknown⟩ := rightful_device hd
        exact ⟨hrightful, h1.unheld hc hungenerated now _ _ hrightful (Or.inr hknown)⟩
      · have hold := get_of_client hvalid hown
        have hslash : '/' ∉ l.scope.toList := slash_not_mem_label (label_of_scope hc hs)
        have hself := unheld_self hc hungenerated h1 hone1 hold hactive hlater
        rw [(bindingKey_inj (h1.filed.stored hold).slashless hslash (h1.filed.sound.keyed hold)).1] at hself
        rw [hdevice, hname]
        exact ⟨h1.rightful hold, hself⟩
      · obtain ⟨hrightful, hknown⟩ := rightful_deviceID (c := c) hid
        exact ⟨hrightful, h1.unheld hc hungenerated now _ _ hrightful (Or.inl hknown)⟩
    exact ⟨hboth.1, hone1.save (fun _ _ => hboth.2) kind⟩

end Operations

/-! ### Reports -/

/-- The name that a node gives itself: the first label of its DNS name. -/
def nodeLabel (node : Node) : String := (splitText node.dnsName ".").getD 0 ""

/-- The name of an undeclared node is generated, or its label, which is then nobody's in the inventory. -/
theorem nodeName_cases (L : Ledger) (now : Int) (c : Config) (node : Node) (device : String) :
    nodeName L now c node device = device ∨
      (nodeName L now c node device = nodeLabel node ∧ labelPattern (nodeLabel node) = true ∧
        ∀ d ∈ c.devices, d.name ≠ nodeLabel node) := by
  -- Each check falls back to the device.
  let Q : String → Prop := fun name =>
    name = device ∨ (name = nodeLabel node ∧ labelPattern (nodeLabel node) = true ∧ ∀ d ∈ c.devices, d.name ≠ nodeLabel node)
  show Q (nodeName L now c node device)
  unfold nodeName
  refine iteInduction (motive := Q) (fun _ => Or.inl rfl) fun _ => ?_
  refine iteInduction (motive := Q) (fun _ => Or.inl rfl) fun hdeclared => ?_
  by_cases hlabel : (!labelPattern (nodeLabel node) || decide (nodeLabel node = "ns")) = true
  · exact Or.inl (if_pos hlabel)
  · have hkept : (if (!labelPattern (nodeLabel node) || decide (nodeLabel node = "ns")) = true then device
        else nodeLabel node) = nodeLabel node := if_neg hlabel
    refine Or.inr ⟨hkept, ?_, fun d hd hname => hdeclared (any_eq_true.mpr ⟨d, hd, ?_⟩)⟩
    · by_contra hnot
      simp [hnot] at hlabel
    · rw [Bool.or_eq_true]
      exact Or.inl (decide_eq_true (hname.trans hkept.symm))

/-- The identity of a report is that of a declared device, or the node's own. -/
theorem reportIdentity_source (h : reportIdentity L now c node found = .ok (device, name)) :
    (∃ d ∈ c.devices, device = d.id ∧ name = d.name) ∨
      (device = deviceID "tailnet" node.id ∧ name = nodeName L now c node device) := by
  simp only [reportIdentity, bind_eq_ok] at h
  obtain ⟨acc, hfold, h⟩ := h
  have hacc : acc.1 = "" ∨ ∃ d ∈ c.devices, acc.1 = d.id ∧ acc.2 = d.name := by
    refine foldlM_invariant
      (I := fun acc : String × String => acc.1 = "" ∨ ∃ d ∈ c.devices, acc.1 = d.id ∧ acc.2 = d.name) ?_ ?_ hfold
    · intro b _ acc1 acc2 h1 hstep
      simp only [judgeMatch, bind_eq_ok, refuseIf_eq_ok, exists_const] at hstep
      obtain ⟨-, hstep⟩ := hstep
      cases hd : c.device b.device with
      | none =>
        rw [hd, pure_eq_ok] at hstep
        rwa [← hstep]
      | some d =>
        rw [hd] at hstep
        simp only [bind_eq_ok, refuseIf_eq_ok, exists_const, pure_eq_ok] at hstep
        obtain ⟨-, -, rfl⟩ := hstep
        exact Or.inr ⟨d, mem_of_find?_eq_some hd, rfl, rfl⟩
    · refine foldl_invariant
        (I := fun acc : String × String => acc.1 = "" ∨ ∃ d ∈ c.devices, acc.1 = d.id ∧ acc.2 = d.name)
        (fun d hd acc h1 => ?_) (Or.inl rfl)
      split
      · exact Or.inr ⟨d, hd, rfl, rfl⟩
      · exact h1
  obtain ⟨device', name'⟩ := acc
  simp only at h hacc
  split at h
  · obtain ⟨rfl, rfl⟩ := Prod.mk.inj (pure_eq_ok.mp h)
    exact Or.inr ⟨rfl, rfl⟩
  · rename_i hne
    obtain ⟨rfl, rfl⟩ := Prod.mk.inj (pure_eq_ok.mp h)
    exact Or.inl (hacc.resolve_left hne)

/-- A report gives a rightful name, unless the node calls itself by a generated one. -/
theorem reportIdentity_rightful (h : reportIdentity L now c node found = .ok (device, name))
    (hlabel : Generated (nodeLabel node) → nodeLabel node = deviceID "tailnet" node.id) :
    Rightful c device name := by
  rcases reportIdentity_source h with hd | ⟨rfl, hname⟩
  · exact (rightful_device hd).1
  · have hself : Rightful c (deviceID "tailnet" node.id) (deviceID "tailnet" node.id) :=
      (rightful_deviceID ⟨rfl, rfl⟩).1
    rcases nodeName_cases L now c node (deviceID "tailnet" node.id) with hgenerated | ⟨hchosen, hpattern, hfree⟩
    · rwa [hname, hgenerated]
    · rw [hname, hchosen]
      by_cases hgenerated : Generated (nodeLabel node)
      · rwa [hlabel hgenerated]
      · exact .chosen hpattern hgenerated hfree

/-- At the key is a binding of the device with the name. -/
def Bears (L : Ledger) (k device name : String) : Prop :=
  ∃ x, L.bindings.get k = some x ∧ x.device = device ∧ x.name = name

/-- One step of the loop of a report over its matches: the match bears the identity afterwards, and what bore it
before bears it still. -/
theorem associate_bears {L0 : Ledger} {m : Binding}
    (hm : m.device = device → m.name = name → L0.bindings.get m.key = some m)
    (hL : L.bindings.get m.key = L0.bindings.get m.key ∨ Bears L m.key device name)
    (h : associate now node device name L m = .ok L') :
    Bears L' m.key device name ∧ ∀ k, k ≠ m.key → L'.bindings.get k = L.bindings.get k := by
  simp only [associate, bind_eq_ok, refuseIf_eq_ok, exists_const] at h
  obtain ⟨-, h⟩ := h
  obtain ⟨hdevice, hname, -⟩ := associated_identity L now node device name m
  obtain ⟨hscope, haddress, -⟩ := associated_fields L now node device name m
  have hkey : (associated L now node device name m).key = m.key := by rw [Binding.key, hscope, haddress, Binding.key]
  split at h
  · rw [pure_eq_ok] at h
    rw [← h]
    refine ⟨⟨_, by rw [get_save, hkey, if_pos rfl], hdevice, hname⟩, fun k hk => ?_⟩
    rw [get_save, hkey, if_neg hk]
  · rename_i hsame
    rw [pure_eq_ok] at h
    rw [← h]
    refine ⟨?_, fun _ _ => rfl⟩
    simp only [not_or, not_not] at hsame
    rcases hL with hL | hL
    · exact ⟨m, hL.trans (hm hsame.1 hsame.2.2.1), hsame.1, hsame.2.2.1⟩
    · exact hL

/-- The whole loop: every match bears the identity afterwards. -/
theorem associate_all {L0 : Ledger}
    (hfound : ∀ m ∈ found, m.device = device → m.name = name → L0.bindings.get m.key = some m)
    (hL : ∀ k, L.bindings.get k = L0.bindings.get k ∨ Bears L k device name)
    (h : found.foldlM (associate now node device name) L = .ok L') :
    (∀ k, Bears L k device name → Bears L' k device name) ∧ ∀ m ∈ found, Bears L' m.key device name := by
  induction found generalizing L with
  | nil =>
    rw [foldlM_nil, pure_eq_ok] at h
    rw [← h]
    exact ⟨fun _ hk => hk, fun m hm => by cases hm⟩
  | cons m found ih =>
    rw [foldlM_cons, bind_eq_ok] at h
    obtain ⟨L1, hstep, h⟩ := h
    obtain ⟨hbears, hother⟩ := associate_bears (hfound m mem_cons_self) (hL m.key) hstep
    have hkept : ∀ k, Bears L k device name → Bears L1 k device name := by
      intro k hk
      by_cases hkm : k = m.key
      · rwa [hkm]
      · obtain ⟨x, hx, hidentity⟩ := hk
        exact ⟨x, (hother k hkm).trans hx, hidentity⟩
    have hL1 : ∀ k, L1.bindings.get k = L0.bindings.get k ∨ Bears L1 k device name := by
      intro k
      by_cases hkm : k = m.key
      · exact Or.inr (by rwa [hkm])
      · exact (hL k).imp (fun hk => (hother k hkm).trans hk) (hkept k)
    obtain ⟨hlater, hall⟩ := ih (fun m' hm' => hfound m' (mem_cons_of_mem m hm')) hL1 h
    refine ⟨fun k hk => hlater k (hkept k hk), fun m' hm' => ?_⟩
    rcases mem_cons.mp hm' with rfl | hm'
    · exact hlater _ hbears
    · exact hall m' hm'

/-- What a report asks: the node does not call itself by a generated name of another, and nobody outside its
matches holds its name for another device, in the zone of a match. -/
def Modest (c : Config) (L : Ledger) (now : Int) (node : Node) : Prop :=
  (Generated (nodeLabel node) → nodeLabel node = deviceID "tailnet" node.id) ∧
    ∀ found device name, reportMatches L now c { node with seen := now } = .ok found →
      reportIdentity L now c { node with seen := now } found = .ok (device, name) →
        ∀ m ∈ found, Unheld c L now (found.map Binding.key) m.scope device name

section Joining

variable {c : Config} (hc : c.validate = .ok ()) {L : Ledger} {now : Int} (hL : Titled c L)
  (hone : OneDevice c L now)

include hc hL hone

theorem joinReport_one_device (hcandid : Modest c L now node) {joined : List Binding} (hL' : Filed L')
    (h : L.joinReport now c node = .ok (joined, L')) : Titled c L' ∧ OneDevice c L' now := by
  obtain ⟨found, device, name, hfound, hidentity, hsaves⟩ := joinReport_saves h
  have hrightful : Rightful c device name := reportIdentity_rightful hidentity hcandid.1
  have htitled : Titled c L' := by
    refine (hL.saves hc hsaves hL' (I := fun _ => True) trivial (fun _ _ _ _ => trivial) ?_).1
    intro L1 b kind _ _ hwrite
    obtain ⟨m, -, rfl⟩ := hwrite
    obtain ⟨hdevice, hname, -⟩ := associated_identity L1 now { node with seen := now } device name m
    rw [hdevice, hname]
    exact ⟨hrightful, trivial⟩
  refine ⟨htitled, ?_⟩
  -- The matches bear the identity of the report; everything else is as before.
  have hstored : ∀ m ∈ found, m.device = device → m.name = name → L.bindings.get m.key = some m := by
    intro m hm hdevice hname
    obtain ⟨iface, -, text, -, hcandidate⟩ := reportMatches_candidate hfound m hm
    cases hcandidate with
    | found hmem => exact get_of_liveByAddress hL.filed.sound hmem
    | sighted ip _ sc _ p _ o _ _ _ hsighted =>
      -- A binding that is new has no name yet.
      rw [hsighted] at hname
      exact absurd hname.symm (hrightful.plain hc).ne
  have hbears : ∀ m ∈ found, Bears L' m.key device name := by
    simp only [Ledger.joinReport, bind_eq_ok, pure_eq_ok, hfound, Except.ok.injEq, exists_eq_left', hidentity,
      Prod.mk.injEq] at h
    obtain ⟨L1, hassociate, -, rfl⟩ := h
    exact (associate_all hstored (fun _ => Or.inl rfl) hassociate).2
  have hcases : ∀ b, Published L' now b →
      (b.device = device ∧ b.name = name ∧ ∃ m ∈ found, m.scope = b.scope) ∨
        (Published L now b ∧ b.key ∉ found.map Binding.key) := by
    intro b hb
    by_cases hkey : b.key ∈ found.map Binding.key
    · obtain ⟨m, hm, hmkey⟩ := mem_map.mp hkey
      obtain ⟨x, hx, hdevice, hname⟩ := hbears m hm
      rw [hmkey, hb.stored, Option.some.injEq] at hx
      subst hx
      have hslash := (reportMatches_denotes hL.filed hfound m hm).slashless
      exact Or.inl ⟨hdevice, hname, m, hm, (bindingKey_inj hslash (hL'.stored hb.stored).slashless hmkey).1⟩
    · rcases report_writes hsaves b.key with hsame | ⟨m, hm, hmkey, -⟩
      · exact Or.inr ⟨hb.congr hsame, hkey⟩
      · exact absurd (mem_map.mpr ⟨m, hm, hmkey⟩) hkey
  have hheld := hcandid.2 found device name hfound hidentity
  intro b b' hb hb' hzone hsame
  rcases hcases b hb with ⟨hdevice, hname, m, hm, hscope⟩ | ⟨hold, hother⟩
  · rcases hcases b' hb' with ⟨hdevice', -, -⟩ | ⟨hold', hother'⟩
    · rw [hdevice, hdevice']
    · rw [← hscope] at hzone
      rw [hdevice, hheld m hm b' hold' hother' hzone.symm (hsame.symm.trans hname)]
  · rcases hcases b' hb' with ⟨hdevice', hname', m, hm, hscope⟩ | ⟨hold', -⟩
    · rw [← hscope] at hzone
      rw [hdevice', hheld m hm b hold hother hzone (hsame.trans hname')]
    · exact hone b b' hold hold' hzone hsame

theorem report_one_device (hcandid : Modest c L now node) :
    Titled c (L.report now c node).2 ∧ OneDevice c (L.report now c node).2 now := by
  have hL' : Filed (L.report now c node).2 :=
    hL.filed.apply now (show Operation.Called (.report c node) from hc)
  unfold Ledger.report at hL' ⊢
  cases hcheck : checkReport node with
  | error => exact ⟨hL, hone⟩
  | ok =>
    rw [hcheck] at hL'
    cases hjoin : L.joinReport now c node with
    | ok =>
      rw [hjoin] at hL'
      exact joinReport_one_device hc hL hone hcandid hL' hjoin
    | error e =>
      have haudit : ∀ message, Titled c (L.audit now .identityConflict message) ∧
          OneDevice c (L.audit now .identityConflict message) now := by
        intro message
        have haside := aside_audit L now .identityConflict message
        exact ⟨hL.aside haside, hone.congr haside.bindings⟩
      cases e with
      | panic => exact ⟨hL, hone⟩
      | error => exact haudit _
      | unavailable => exact haudit _

end Joining

/-! ### Repairs -/

/-- A repair that is accepted has a name of its own source, unless it is another's generated one. -/
theorem repair_rightful (hpattern : labelPattern r.name = true)
    (hconflict : (c.devices.any (repairConflict r)) = false) (hgenerated : Generated r.name → r.name = r.device) :
    Rightful c r.device r.name := by
  by_cases hname : Generated r.name
  · exact .generated (hgenerated hname) hname
  · by_cases hdeclared : ∃ d ∈ c.devices, d.name = r.name
    · obtain ⟨d, hd, hsame⟩ := hdeclared
      refine .declared d hd ?_ hsame
      by_contra hother
      rw [any_eq_false] at hconflict
      exact hconflict d hd (by simp [repairConflict, hsame, hother])
    · exact .chosen hpattern hname fun d hd hsame => hdeclared ⟨d, hd, hsame⟩

/-- The holders of a name are found under it. -/
theorem Titled.holder (hc : c.validate = .ok ()) (hL : Titled c L) (hb : Published L now b)
    (hscope : b.scope ≠ "") : b ∈ L.activeByName b.name := by
  have hdenotes := hL.filed.stored hb.stored
  have hsplit : (nameEntry b).2.toList.splitOn '\x00' = [b.name.toList, b.scope.toList, b.address.toList] :=
    splitOn_indexKey_of_nul (by simp)
      (by simp [((hL.rightful hb.stored).plain hc).nul, hdenotes.scope, hdenotes.address])
  have htarget : Ledger.indexTarget .name (nameEntry b).2 = some (b.scope, b.address) := by
    simp [Ledger.indexTarget, hsplit]
  have hstart : startsWith (nameEntry b).2 (Ledger.idxPrefix [b.name]) = true := by
    refine isPrefixOf_iff_prefix.mpr ⟨b.scope.toList ++ '\x00' :: b.address.toList, ?_⟩
    simp [nameEntry, Ledger.idxPrefix, indexKey, joinText, intercalate_cons_cons]
  have hread : L.readBinding b.scope b.address = b := readBinding_of_get hb.stored
  refine mem_filter.mpr ⟨mem_filterMap.mpr ⟨((nameEntry b).2, ()), ?_, ?_⟩, by simp [hb.active]⟩
  · exact Bucket.mem_entries.mpr (hL.shelved hb.stored hb.active)
  · simp [hstart, htarget, hread, hscope, hb.active, liveState]

theorem putAssociation_cases {a : Association} (h : (L.putAssociation now r).readAssociation client = some a) :
    L.readAssociation client = some a ∨ (a.device = r.device ∧ a.name = r.name) := by
  unfold Ledger.putAssociation Ledger.readAssociation at h
  split at h
  · exact Or.inl (Bucket.get_delete_eq_some.mp h).2
  · split at h
    · exact Or.inl h
    · rcases Bucket.get_put_eq_some.mp h with ⟨-, rfl⟩ | ⟨-, h⟩
      · exact Or.inr ⟨rfl, rfl⟩
      · exact Or.inl h

theorem repairOne_one_device (hc : c.validate = .ok ()) (hL : Titled c L) (hentitled : Entitled c L)
    (hone : OneDevice c L now) (hgenerated : Generated r.name → r.name = r.device)
    (h : repairOne now c L r = .ok L') : Titled c L' ∧ Entitled c L' ∧ OneDevice c L' now := by
  have hrepair := repairOne_accepted h
  have hrightful := repair_rightful hrepair.label hrepair.inventory hgenerated
  have hkey : (repaired L r).key = bindingKey r.scope r.address := by
    rw [← hL.filed.sound.keyed hrepair.stored]
    rfl
  have hdenotes : Denotes (repaired L r) := (hL.filed.stored hrepair.stored).congr rfl rfl rfl rfl
  have haside := putAssociation_aside (L.save now (repaired L r) .identityRepair) now hrepair.label
  have hsaved : Titled c (L.save now (repaired L r) .identityRepair) := hL.save hc hdenotes hrightful now _
  rw [hrepair.result]
  refine ⟨hsaved.aside haside, ?_, OneDevice.congr (hone.save ?_ _) haside.bindings⟩
  · -- An association that is kept has the name of the repair.
    intro client a ha
    rcases putAssociation_cases ha with hold | ⟨hdevice, hname⟩
    · rw [Ledger.readAssociation, associations_save] at hold
      exact hentitled hold
    · rw [hdevice, hname]
      exact hrightful
  · -- Another holder would have been found.
    intro _ _ b hb hother hzone hname
    by_contra hdevice
    have hscope : b.scope ≠ "" := by
      obtain ⟨s, -, hs, -⟩ := hzone
      intro hempty
      have hlabel := label_of_scope hc hs
      rw [hempty] at hlabel
      cases hlabel
    have hholder := hL.holder hc hb hscope
    rw [show b.name = r.name from hname] at hholder
    obtain ⟨hscope', haddress⟩ := hrepair.unheld b hholder hdevice hb.ends
    exact hother (by rw [hkey, Binding.key, hscope', haddress]; exact mem_singleton.mpr rfl)

/-! ### Runs -/

/-- The operation is one of those that write leases, sightings and identities, under the configuration. -/
def Operation.Under (c : Config) : Operation → Prop
  | .allocate c' .. | .importDocument c' _ | .observe c' _ | .observeSwitch c' .. | .report c' _ | .repair c' _ => c' = c
  | .release .. | .expire => True
  | _ => False

/-- The operation gives no name that another device holds. `Repair` looks for holders itself, as long as nobody
asks it for a generated name. -/
def Candid (c : Config) (L : Ledger) (now : Int) : Operation → Prop
  | .allocate _ scopeID client mac _ requested commit =>
    commit = true → BringsBack c L now scopeID client mac requested commit
  | .report _ node => Modest c L now node
  | .repair _ changes => ∀ r ∈ changes, Generated r.name → r.name = r.device
  | _ => True

theorem associations_importLease {l : ImportedLease} (h : importLease now c doc L l = .ok L') :
    L'.associations = L.associations := by
  rcases importLease_cases h with ⟨rfl, -⟩ | ⟨b, rfl, -⟩
  · rfl
  · rw [associations_save]

theorem associations_adoptServer (h : L.adoptServer c doc = .ok L') : L'.associations = L.associations := by
  unfold Ledger.adoptServer Ledger.adoptDUID at h
  split at h
  · split at h
    · simp only [bind_eq_ok, refuseIf_eq_ok, exists_const, pure_eq_ok] at h
      obtain ⟨-, -, -, rfl⟩ := h
      rfl
    · simp at h
  · rw [pure_eq_ok] at h
    rw [h]

theorem associations_expire (L : Ledger) (now : Int) : (L.expire now).associations = L.associations := by
  unfold Ledger.expire
  refine foldl_invariant (I := fun L1 : Ledger => L1.associations = L.associations) (fun k _ L1 h1 => ?_) rfl
  unfold Ledger.expireKey
  cases L1.bindings.get (ofLex k).2 with
  | none => exact h1
  | some =>
    simp only
    split
    · rw [associations_save, h1]
    · exact h1

theorem associations_joinReport {joined : List Binding} (h : L.joinReport now c node = .ok (joined, L')) :
    L'.associations = L.associations := by
  simp only [Ledger.joinReport, bind_eq_ok, pure_eq_ok, Prod.mk.injEq] at h
  obtain ⟨found, -, identity, -, L1, hfold, -, rfl⟩ := h
  show L1.associations = L.associations
  refine foldlM_invariant (I := fun L1 => L1.associations = L.associations) ?_ rfl hfold
  intro m _ L2 L3 h2 hstep
  simp only [associate, bind_eq_ok, refuseIf_eq_ok, exists_const] at hstep
  obtain ⟨-, hstep⟩ := hstep
  split at hstep
  · rw [pure_eq_ok] at hstep
    rw [← hstep, associations_save, h2]
  · rw [pure_eq_ok] at hstep
    rw [← hstep, h2]

/-- What is known of the ledgers of a run, at the instant of the last step. -/
structure Named (c : Config) (now : Int) (L : Ledger) : Prop where
  titled : Titled c L
  entitled : Entitled c L
  one : OneDevice c L now

/-- An operation that leaves the associations. -/
theorem Named.of_associations (h : Named c now L) (hassociations : L'.associations = L.associations)
    (hL' : Titled c L' ∧ OneDevice c L' now) : Named c now L' where
  titled := hL'.1
  entitled ha := h.entitled (by rwa [Ledger.readAssociation, hassociations] at ha)
  one := hL'.2

/-- A step keeps it. -/
theorem Named.step (hc : c.validate = .ok ()) (hungenerated : Ungenerated c) (h : Named c now L)
    {op : Operation} (hcalled : Operation.Called op) (hunder : Operation.Under c op)
    (hcandid : Candid c L now op) : Named c now (op.apply now L) := by
  have hL' : Filed (op.apply now L) := h.titled.filed.apply now hcalled
  have hnotes : ∀ os : List Observation, Filed (os.foldl (noteSighting now) L) →
      Named c now (os.foldl (noteSighting now) L) := by
    intro os hfiled
    obtain ⟨hbindings, hindexes, hassociations⟩ := notes_rest now L os
    refine h.of_associations hassociations ⟨⟨hfiled, ?_, ?_⟩, h.one.congr hbindings⟩
    · intro k b hb
      exact h.titled.rightful (by rwa [hbindings] at hb)
    · intro k b hb hactive
      rw [Indexed, hindexes]
      exact h.titled.shelved (by rwa [hbindings] at hb) hactive
  cases op with
  | allocate c' =>
    obtain rfl : c' = c := hunder
    refine settle_map_cases (Q := fun L' => Filed L' → Named c' now L') (fun _ => h) (fun b L' hr hfiled => ?_) hL'
    refine h.of_associations ?_ (allocate_one_device hc hungenerated h.titled h.one h.entitled hcandid hfiled hr)
    obtain ⟨s, m, ip, -, -, -, -, -, -, hcases⟩ := allocate_cases hr
    rcases hcases with ⟨-, -, -, -, -, rfl⟩ | ⟨-, -, rfl⟩
    · rfl
    · rw [associations_save]
  | release =>
    refine settle_cases (Q := fun L' => Filed L' → Named c now L') (fun _ => h) (fun L' hr hfiled => ?_) hL'
    refine h.of_associations ?_ (release_one_device hc h.titled h.one hfiled hr)
    obtain ⟨b, kind, -, rfl⟩ := release_eq hr
    rw [associations_save]
  | expire =>
    exact h.of_associations (associations_expire L now) (expire_one_device hc h.titled h.one hL')
  | importDocument c' =>
    obtain rfl : c' = c := hunder
    refine settle_cases (Q := fun L' => Filed L' → Named c' now L') (fun _ => h) (fun L' hr hfiled => ?_) hL'
    refine h.of_associations ?_ (import_one_device hc hungenerated h.titled h.one hfiled hr)
    simp only [Ledger.importDocument, bind_eq_ok, refuseIf_eq_ok, exists_const] at hr
    obtain ⟨-, L1, hadopt, hloop⟩ := hr
    exact foldlM_invariant (I := fun L2 : Ledger => L2.associations = L.associations)
      (fun _ _ _ _ h1 hstep => (associations_importLease hstep).trans h1) (associations_adoptServer hadopt) hloop
  | observe =>
    rw [apply_observe] at hL' ⊢
    exact hnotes _ hL'
  | observeSwitch =>
    rw [apply_observeSwitch] at hL' ⊢
    exact hnotes _ hL'
  | report c' node =>
    obtain rfl : c' = c := hunder
    refine h.of_associations ?_ (report_one_device hc h.titled h.one hcandid)
    show (L.report now c' node).2.associations = L.associations
    unfold Ledger.report
    cases checkReport node with
    | error => rfl
    | ok =>
      cases hjoin : L.joinReport now c' node with
      | ok => exact associations_joinReport hjoin
      | error e => cases e <;> rfl
  | repair c' =>
    obtain rfl : c' = c := hunder
    refine settle_cases h fun L' hr => ?_
    simp only [Ledger.repair, bind_eq_ok, refuseIf_eq_ok, exists_const] at hr
    refine foldlM_invariant (fun r hmem L1 L2 h1 hstep => ?_) h hr.2
    obtain ⟨htitled, hentitled, hone⟩ :=
      repairOne_one_device hc h1.titled h1.entitled h1.one (hcandid r hmem) hstep
    exact ⟨htitled, hentitled, hone⟩
  | allocatePrefix => exact hunder.elim
  | releasePrefix => exact hunder.elim
  | abandonDelegations => exact hunder.elim

/-- A run with its clock: the instant of the last step, and the ledger. -/
def clocked (s : Int × Ledger) (st : Step) : Int × Ledger := (st.time, st.op.apply st.time s.2)

theorem clocked_run (t : Int) (L : Ledger) (steps : List Step) : (steps.foldl clocked (t, L)).2 = run L steps := by
  induction steps generalizing t L with
  | nil => rfl
  | cons st steps ih => exact ih st.time (st.op.apply st.time L)

/-- The steps that names stay apart along: they come in the order of time, are under the configuration, and
give no name that another device holds. -/
def Discreet (c : Config) (s : Int × Ledger) (st : Step) : Prop :=
  s.1 ≤ st.time ∧ Operation.Called st.op ∧ Operation.Under c st.op ∧ Candid c s.2 st.time st.op

/-- Another client is granted 10.0.0.6. -/
def requestSix (time : Int) : Step where
  time := time
  op := .allocate (smallLan 7200) "lan" "mac:02:00:00:00:00:02" "02:00:00:00:00:02" "" "10.0.0.6" true

/-- An operator names the device at 10.0.0.5, without a node. -/
def nameLaptop : IdentityRepair where
  scope := "lan"
  address := "10.0.0.5"
  client := "mac:02:00:00:00:00:01"
  expectedDevice := deviceID "lan" "mac:02:00:00:00:00:01"
  device := "kitchen"
  name := "laptop"
  nodeID := ""
  reason := "verified"

/-- Two clients, and an operator who names the device of the first. -/
def twoClients : List Step :=
  [requestFive 0 7200 "01", requestSix 10, ⟨20, .repair (smallLan 7200) [nameLaptop]⟩]

theorem not_generated (h : name.toList.take 7 ≠ "device-".toList) : ¬ Generated name := by
  rintro ⟨scope, client, rfl⟩
  refine h ?_
  rw [deviceID, String.toList_ofList, take_take, String.toList_append]
  exact take_left' rfl

/-- The second client is a node that calls itself by the name that the operator gave to the first. -/
def reportSix : Step where
  time := 30
  op := .report (smallLan 7200)
    { id := "n2", dnsName := "laptop.ts.net",
      interfaces := [{ mac := "02:00:00:00:00:02", addresses := ["10.0.0.6"] }] }

end Ghostd.Proofs.Addressbook
