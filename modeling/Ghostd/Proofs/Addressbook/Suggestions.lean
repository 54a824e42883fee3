import Ghostd.Addressbook.Suggest
import Ghostd.Lib.Hex
import Ghostd.Proofs.Addressbook.Built

/-!
# `Ghostd.Proofs.Addressbook.Suggestions`: which suggestions can be applied

`Suggest` flags a peer that another device stands for, and a lease that several peers fit. `Repair`
refuses more: a name or a device that the inventory gives to another, a name that another lease has, and a
lease that is reserved for another device. `suggestion_ready_iff` says that these three are all that can
stand in the way of a suggestion, and `suggestion_refused` shows two of them.

The repair of a suggestion is well posed (`wellPosed_proposedRepair`) and meets the binding as it expects
it. What is left of `Repair` is the three checks (`repairOne_ok_iff`).
-/

set_option autoImplicit false

namespace Ghostd.Proofs.Addressbook

open Ghostd.Lib Ghostd.Addressbook List

variable {r : IdentityRepair} {now : Int} {L : Ledger} {c : Config}

/-! ### What is proposed -/

/-- A generated device name is a label. -/
theorem labelPattern_deviceID (scope client : String) : labelPattern (deviceID scope client) = true := by
  have hhex : ∀ x ∈ (encodeHex (sha256 (utf8Bytes (scope ++ "/" ++ client)))).toList,
      lowerAlphanum x = true := by
    intro x hx
    obtain ⟨d, hd, rfl⟩ := isDigit_of_mem_encodeHex hx
    have hall : ∀ d : Nat, d < 16 → lowerAlphanum d.digitChar = true := by decide
    exact hall d hd
  -- The digest is not empty, so the text ends with one of its digits.
  obtain ⟨x, xs, hdigits⟩ : ∃ x xs,
      (encodeHex (sha256 (utf8Bytes (scope ++ "/" ++ client)))).toList.take 16 = x :: xs := by
    rw [encodeHex, String.toList_ofList]
    exact ⟨_, _, rfl⟩
  have htext : (deviceID scope client).toList = "device-".toList ++ x :: xs := by
    rw [deviceID, String.toList_ofList, String.toList_append, take_append, ← hdigits]
    rfl
  have hlower : ∀ y ∈ x :: xs, lowerAlphanum y = true := by
    intro y hy
    rw [← hdigits] at hy
    exact hhex y (mem_of_mem_take hy)
  have hlength : (x :: xs).length ≤ 16 := by
    rw [← hdigits, length_take]
    exact Nat.min_le_left _ _
  unfold labelPattern
  simp only [htext, Bool.and_eq_true, all_eq_true, decide_eq_true_eq]
  refine ⟨⟨⟨⟨?_, by simp⟩, ?_⟩, rfl⟩, ?_⟩
  · intro y hy
    rcases mem_append.mp hy with hy | hy
    · have hlead : ("device-".toList.all fun c => lowerAlphanum c || c = '-') = true := by decide
      exact all_eq_true.mp hlead y hy
    · rw [hlower y hy]
      rfl
  · rw [length_append]
    have hlead : "device-".toList.length = 7 := by decide
    omega
  · rw [List.getLast?_append_cons, List.getLast?_eq_some_getLast (cons_ne_nil x xs)]
    exact hlower _ (getLast_mem _)

theorem deviceID_ne_ns (scope client : String) : deviceID scope client ≠ "ns" := by
  intro h
  have hhead : (deviceID scope client).toList.head? = some 'd' := by
    rw [deviceID, String.toList_ofList, String.toList_append]
    rfl
  rw [h] at hhead
  exact absurd hhead (by decide)

/-- The name that is proposed can be a name. -/
theorem proposedName_valid (p : Peer) : labelPattern (proposedName p) = true ∧ proposedName p ≠ "ns" := by
  simp only [proposedName]
  split
  · exact ⟨labelPattern_deviceID _ _, deviceID_ne_ns _ _⟩
  · rename_i hvalid
    simp only [Bool.or_eq_true, Bool.not_eq_true', decide_eq_true_eq, not_or, Bool.not_eq_false] at hvalid
    exact hvalid

/-- A repair with a device, a name and a reason that can be written. -/
structure WellPosed (r : IdentityRepair) : Prop where
  device : labelPattern r.device = true
  name : labelPattern r.name = true
  notNS : r.name ≠ "ns"
  reason : r.reason.toList.all isSpace = false
  length : byteLength r.reason ≤ 512

theorem proposedReason_fits (strength : Strength) :
    ("suggested from peer inventory (" ++ strength.text ++ ")").toList.all isSpace = false ∧
      byteLength ("suggested from peer inventory (" ++ strength.text ++ ")") ≤ 512 := by
  cases strength with
  | endpoint => decide
  | hostname => decide

theorem wellPosed_proposedRepair (b : Binding) (p : Peer) (strength : Strength) :
    WellPosed (proposedRepair b p strength) where
  device := labelPattern_deviceID _ _
  name := (proposedName_valid p).1
  notNS := (proposedName_valid p).2
  reason := (proposedReason_fits strength).1
  length := (proposedReason_fits strength).2

/-- A suggestion proposes the repair of a live lease for one of the peers. -/
theorem mem_suggest {inventory : Bucket String Peer} {sg : Suggestion} (h : sg ∈ L.suggest now c inventory) :
    ∃ b ∈ L.forEachLive, ∃ p strength, b.state = .active ∧ now < b.endsAt ∧ sg.scope = b.scope ∧
      sg.address = b.address ∧ sg.repair = proposedRepair b p strength := by
  obtain ⟨b, hb, hsg⟩ := mem_flatMap.mp h
  rw [mem_insertionSort, mem_filter, decide_eq_true_eq] at hb
  obtain ⟨hlive, hactive, hends⟩ := hb
  split at hsg
  · cases hsg
  · split at hsg
    · cases hsg
    · obtain ⟨one, hone, rfl⟩ := mem_map.mp hsg
      obtain ⟨p, -, hp⟩ := mem_filterMap.mp hone
      unfold suggestOne at hp
      obtain ⟨strength, -, hp⟩ := Option.bind_eq_some_iff.mp hp
      cases hp
      exact ⟨b, hlive, p, strength, hactive, hends, rfl, rfl, rfl⟩

/-! ### What stands in the way -/

/-- Nothing that `Repair` protects stands in the way of a repair of a binding. -/
structure Unopposed (c : Config) (L : Ledger) (now : Int) (r : IdentityRepair) : Prop where
  /-- The inventory has the name and the device for each other, or not at all. -/
  inventory : ∀ d ∈ c.devices,
    (d.id ≠ r.device → d.name ≠ r.name ∧ r.name ∉ d.aliases) ∧
      (d.id = r.device → d.name = r.name ∧ (d.declaresNodes = true → d.hasNode r.nodeID = true))
  /-- No other lease that lives has the name, except the device's own. -/
  holders : ∀ k b, L.bindings.get k = some b → b.state = .active → now < b.endsAt → b.name = r.name →
    b.device = r.device ∨ (b.scope = r.scope ∧ b.address = r.address)
  /-- The lease is not reserved for another device. -/
  reservations : ∀ b s reserved, L.bindings.get (bindingKey r.scope r.address) = some b →
    c.scope b.scope = some s → reservation s b.client b.mac = some reserved → reserved.device = r.device

theorem repairConflict_eq_false {d : DeviceConfig} : repairConflict r d = false ↔
      (d.id ≠ r.device → d.name ≠ r.name ∧ r.name ∉ d.aliases) ∧
        (d.id = r.device → d.name = r.name ∧ (d.declaresNodes = true → d.hasNode r.nodeID = true)) := by
  unfold repairConflict DeviceConfig.hasAlias
  by_cases hid : d.id = r.device
  · simp [hid]
  · simp [hid]

theorem repair_singleton (L : Ledger) (now : Int) (c : Config) (r : IdentityRepair) :
    L.repair now c [r] = repairOne now c L r := by
  show ((pure () : Except Failure Unit) >>= fun _ => [r].foldlM (repairOne now c) L) = _
  rw [pure_bind, foldlM_cons]
  simp

/-- A lease in the way of the name. -/
def inTheWay (now : Int) (r : IdentityRepair) (other : Binding) : Bool :=
  other.device ≠ r.device && other.endsAt > now && !(other.scope = r.scope && other.address = r.address)

/-- A repair that is well posed and meets its binding as expected is accepted exactly if the three checks
that are left pass. -/
theorem repairOne_ok_iff {b : Binding} (hposed : WellPosed r) (hread : L.readBinding r.scope r.address = b)
    (hclient : b.client = r.client) (hdevice : b.device = r.expectedDevice) (hactive : b.state = .active)
    (hends : now < b.endsAt) : (∃ L', repairOne now c L r = .ok L') ↔
      (∀ d ∈ c.devices, repairConflict r d = false) ∧
        (∀ other ∈ L.activeByName r.name, inTheWay now r other = false) ∧
        ∀ s reserved, c.scope b.scope = some s → reservation s b.client b.mac = some reserved →
          reserved.device = r.device := by
  have hchecked : (!labelPattern r.device || !labelPattern r.name || r.name = "ns" ||
      r.reason.toList.all isSpace || byteLength r.reason > 512) = false := by
    have hlength : ¬ 512 < byteLength r.reason := not_lt.mpr hposed.length
    simp [hposed.device, hposed.name, hposed.notNS, hposed.reason, hlength]
  have hcurrent : (b.client ≠ r.client || b.device ≠ r.expectedDevice || b.state ≠ .active ||
      b.endsAt ≤ now) = false := by
    simp [hclient, hdevice, hactive, hends]
  have hreserved : ((c.scope b.scope).elim false fun s =>
      (reservation s b.client b.mac).elim false fun reserved => reserved.device ≠ r.device) = false ↔
      ∀ s reserved, c.scope b.scope = some s → reservation s b.client b.mac = some reserved →
        reserved.device = r.device := by
    cases c.scope b.scope with
    | none => simp
    | some s =>
      rw [Option.elim_some]
      constructor
      · rintro h _ reserved ⟨⟩ hreserved
        simpa [hreserved] using h
      · intro h
        cases hreserved : reservation s b.client b.mac with
        | none => rfl
        | some reserved => simpa using h s reserved rfl hreserved
  have hdevices : c.devices.any (repairConflict r) = false ↔ ∀ d ∈ c.devices, repairConflict r d = false := by
    rw [any_eq_false]
    simp only [Bool.not_eq_true]
  have hholders : (L.activeByName r.name).find? (inTheWay now r) = none ↔
      ∀ other ∈ L.activeByName r.name, inTheWay now r other = false := by
    rw [List.find?_eq_none]
    simp only [Bool.not_eq_true]
  rw [← hreserved, ← hdevices, ← hholders]
  constructor
  · rintro ⟨L', hrun⟩
    simp only [repairOne, bind_eq_ok, refuseIf_eq_ok, exists_const] at hrun
    obtain ⟨-, hinventory, hrun⟩ := hrun
    split at hrun
    · simp at hrun
    · rename_i hnone
      simp only [bind_eq_ok, refuseIf_eq_ok, exists_const] at hrun
      obtain ⟨-, hreservation, -⟩ := hrun
      rw [hread] at hreservation
      exact ⟨hinventory, hnone, hreservation⟩
  · rintro ⟨hinventory, hnone, hreservation⟩
    have hfind : ((L.activeByName r.name).find? fun other =>
        other.device ≠ r.device && other.endsAt > now &&
          !(other.scope = r.scope && other.address = r.address)) = none := hnone
    simp only [repairOne]
    rw [hchecked, hinventory, hfind]
    simp only [hread]
    rw [hcurrent, hreservation]
    exact ⟨_, rfl⟩

theorem inTheWay_eq_false {other : Binding} : inTheWay now r other = false ↔
      (now < other.endsAt → other.device = r.device ∨ (other.scope = r.scope ∧ other.address = r.address)) := by
  unfold inTheWay
  by_cases hdevice : other.device = r.device
  · simp [hdevice]
  · by_cases hlater : now < other.endsAt
    · simp [hdevice, hlater]
    · simp [hdevice, hlater]

/-- The three checks, in the terms of the tables that they read through the indexes. -/
theorem unopposed_iff (hO : Orderly L) (hE : Exact L) {b : Binding}
    (hstored : L.bindings.get (bindingKey r.scope r.address) = some b) :
    ((∀ d ∈ c.devices, repairConflict r d = false) ∧
        (∀ other ∈ L.activeByName r.name, inTheWay now r other = false) ∧
        ∀ s reserved, c.scope b.scope = some s → reservation s b.client b.mac = some reserved →
          reserved.device = r.device) ↔ Unopposed c L now r := by
  have hholders : ∀ other, other ∈ L.activeByName r.name ↔
      (∃ k, L.bindings.get k = some other) ∧ other.state = .active ∧ other.name = r.name := by
    intro other
    rw [(activeByName_perm hO hE _).mem_iff, mem_filter, mem_scan, Bool.and_eq_true, decide_eq_true_eq,
      decide_eq_true_eq]
  constructor
  · rintro ⟨hinventory, hfree, hreserved⟩
    refine ⟨fun d hd => repairConflict_eq_false.mp (hinventory d hd), ?_, ?_⟩
    · intro k other hget hstate hlater hname
      exact inTheWay_eq_false.mp (hfree other ((hholders other).mpr ⟨⟨k, hget⟩, hstate, hname⟩)) hlater
    · intro b' s reserved hget hscope hreservation
      rw [hstored, Option.some.injEq] at hget
      subst hget
      exact hreserved s reserved hscope hreservation
  · intro hun
    refine ⟨fun d hd => repairConflict_eq_false.mpr (hun.inventory d hd), ?_, ?_⟩
    · intro other hother
      obtain ⟨⟨k, hget⟩, hstate, hname⟩ := (hholders other).mp hother
      exact inTheWay_eq_false.mpr fun hlater => hun.holders k other hget hstate hlater hname
    · intro s reserved hscope hreservation
      exact hun.reservations b s reserved hstored hscope hreservation

/-- A suggestion can be applied exactly if nothing stands in the way. Take any configuration, ledger,
inventory of peers and instant. The repair of a suggestion that is neither ambiguous nor in conflict,
submitted alone at that instant, is accepted if and only if the inventory has the proposed name and device
for each other or not at all, no other live lease has the name, and the lease is not reserved for another
device. -/
theorem suggestion_ready_iff {L : Ledger} (hL : Built L) (hends : ∀ e ∈ L.events, Int64 e.binding.endsAt)
    {now : Int} {c : Config} {inventory : Bucket String Peer} {sg : Suggestion}
    (hsg : sg ∈ L.suggest now c inventory) (_hclear : sg.ambiguous = false ∧ sg.conflict = "") :
    (∃ L', L.repair now c [sg.repair] = .ok L') ↔ Unopposed c L now sg.repair := by
  have hO : Orderly L := BuiltBy.orderly hL
  have hE := hO.exact hends
  obtain ⟨b, hlive, p, strength, hactive, hunexpired, -, -, hrepair⟩ := mem_suggest hsg
  obtain ⟨k, hb⟩ := mem_scan.mp (mem_filter.mp ((forEachLive_perm hO hE).mem_iff.mp hlive)).1
  have hstored : L.bindings.get (bindingKey b.scope b.address) = some b := by
    show L.bindings.get b.key = some b
    rw [hO.tidy.sound.keyed hb]
    exact hb
  rw [hrepair, repair_singleton]
  exact (repairOne_ok_iff (wellPosed_proposedRepair b p strength) (hO.readBinding hb) rfl rfl hactive
    hunexpired).trans (unopposed_iff hO hE hstored)

/-- A client has a lease of 10.0.0.5. -/
def leaseFive : Ledger := run {} [requestFive 0 7200 "01"]

/-- The network of that lease, with the given inventory and reservations. -/
def knownLan (devices : List DeviceConfig) (reservations : List Reservation) : Config :=
  { scopes := (smallLan 7200).scopes.map fun s => { s with reservations := reservations }, devices := devices }

/-- The one peer is reached at the address of the lease. -/
def denPeer : Bucket String Peer :=
  Bucket.empty.put "n1" { id := "n1", dnsName := "den.example.ts.net.", lanAddrs := ["10.0.0.5"] }

/-- The inventory has a device of the name of the peer. -/
def namedDen : Config := knownLan [{ id := "printer", name := "den" }] []

/-- The lease is reserved for a device of the inventory. -/
def reservedFive : Config :=
  knownLan [{ id := "printer", name := "printer" }]
    [{ client := "mac:02:00:00:00:00:01", address := "10.0.0.5", device := "printer" }]

theorem built_leaseFive : Built leaseFive := by
  have hvalid : (smallLan 7200).validate = .ok () := by decide +kernel
  have hprinted : '\x00' ∉ "10.0.0.5".toList := by decide
  have hrun : leaseFive = (requestFive 0 7200 "01").op.apply 0 {} := rfl
  rw [hrun]
  exact .operate .empty hvalid hprinted trivial

/-- The one suggestion for the lease is neither ambiguous nor in conflict, and its repair is refused: once
because the inventory has another device of the name, once because the lease is reserved for another device. -/
theorem suggestion_refused :
    Built leaseFive ∧ namedDen.validate = .ok () ∧ reservedFive.validate = .ok () ∧
      (∃ sg ∈ leaseFive.suggest 10 namedDen denPeer, sg.ambiguous = false ∧ sg.conflict = "" ∧
        (leaseFive.repair 10 namedDen [sg.repair]).toBool = false) ∧
      ∃ sg ∈ leaseFive.suggest 10 reservedFive denPeer, sg.ambiguous = false ∧ sg.conflict = "" ∧
        (leaseFive.repair 10 reservedFive [sg.repair]).toBool = false :=
  ⟨built_leaseFive, by decide +kernel⟩

theorem suggestion_ready_den :
    ∃ sg ∈ leaseFive.suggest 10 (smallLan 7200) denPeer,
      ∃ L', leaseFive.repair 10 (smallLan 7200) [sg.repair] = .ok L' := by
  have hrun : (leaseFive.suggest 10 (smallLan 7200) denPeer).map
        (fun sg => ((sg.ambiguous, sg.conflict), sg.repair.name)) = [((false, ""), "den")] ∧
      (∀ e ∈ leaseFive.events, Int64 e.binding.endsAt) ∧
      leaseFive.bindings.entries.all (fun e => e.2.name ≠ "den") = true := by
    decide +kernel
  obtain ⟨hlist, hends, hnames⟩ := hrun
  cases hsuggest : leaseFive.suggest 10 (smallLan 7200) denPeer with
  | nil =>
    rw [hsuggest] at hlist
    cases hlist
  | cons sg =>
    rw [hsuggest] at hlist
    obtain ⟨hfirst, -⟩ := cons_eq_cons.mp hlist
    rw [Prod.mk.injEq, Prod.mk.injEq] at hfirst
    have hmem : sg ∈ leaseFive.suggest 10 (smallLan 7200) denPeer := by
      rw [hsuggest]
      exact mem_cons_self
    refine ⟨sg, mem_cons_self, (suggestion_ready_iff built_leaseFive hends hmem hfirst.1).mpr ⟨?_, ?_, ?_⟩⟩
    · intro d hd
      cases hd
    · intro k b hget _ _ hname
      have hother := all_eq_true.mp hnames (k, b) (Bucket.mem_entries.mpr hget)
      exact absurd (hname.trans hfirst.2) (by simpa using hother)
    · intro b s reserved _ hscope hreservation
      rw [mem_singleton.mp (mem_of_scope hscope).1] at hreservation
      cases hreservation

end Ghostd.Proofs.Addressbook
