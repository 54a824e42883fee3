import Ghostd.Proofs.Addressbook.Reached

/-!
# `Ghostd.Proofs.Addressbook.Corroboration`: what a host report touches

A report lists addresses on interfaces. It is joined with bindings from two sources: the live bindings
that the address index has for a listed address, and the sightings stored for it in each scope. `Report`
then writes the matches back, under the node's identity.

`report_writes` says what is stored at each key afterwards: what was there, or a match as the report
leaves it (`associated`). Why it is a match is `reportMatches_candidate`. A sighting leads to the key it
is stored at because every ledger that is reached has sightings under their own keys (`SightedAt`).
-/

set_option autoImplicit false

namespace Ghostd.Proofs.Addressbook

open Ghostd.Lib Ghostd.Addressbook

variable {L L' : Ledger} {now : Int} {c : Config}

/-! ### Sightings under their own keys -/

/-- Every sighting is stored at the key of its scope and address, and the address is in canonical text;
the sightings in the log are too, so that a replica has the same. -/
structure SightedAt (L : Ledger) : Prop where
  keyed : ∀ {k o}, L.observations.get k = some o → bindingKey o.scope o.address = k
  plain : ∀ {k o}, L.observations.get k = some o → PlainAddress o.address
  logged : ∀ e ∈ L.events, ∀ o, e.observation = some o → PlainAddress o.address

theorem sightedAt_empty : SightedAt {} where
  keyed h := by simp at h
  plain h := by simp at h
  logged _ he := by cases he

/-- A sighting that is stored. -/
theorem SightedAt.sight (h : SightedAt L) {o : Observation} (ho : PlainAddress o.address) :
    SightedAt { L with observations := L.observations.put (bindingKey o.scope o.address) o } where
  keyed := by
    intro k o' ho'
    rcases Bucket.get_put_eq_some.mp ho' with ⟨rfl, rfl⟩ | ⟨-, ho'⟩
    · rfl
    · exact h.keyed ho'
  plain := by
    intro k o' ho'
    rcases Bucket.get_put_eq_some.mp ho' with ⟨-, rfl⟩ | ⟨-, ho'⟩
    · exact ho
    · exact h.plain ho'
  logged := h.logged

/-- An event with a sighting, or with none. -/
theorem SightedAt.appendEvent (h : SightedAt L) {e : Event}
    (he : ∀ o, e.observation = some o → PlainAddress o.address) : SightedAt (L.appendEvent e) where
  keyed := h.keyed
  plain := h.plain
  logged := by
    intro x hx
    rcases List.mem_append.mp hx with hx | hx
    · exact h.logged x hx
    · rw [List.mem_singleton.mp hx]
      exact he

theorem SightedAt.save (h : SightedAt L) (now : Int) (b : Binding) (kind : EventKind) :
    SightedAt (L.save now b kind) where
  keyed ho := h.keyed (by rwa [observations_save] at ho)
  plain ho := h.plain (by rwa [observations_save] at ho)
  logged := by
    intro e he
    rcases mem_events_save he with he | ⟨-, hnone⟩
    · exact h.logged e he
    · rw [hnone]
      exact fun o ho => (by cases ho)

theorem SightedAt.aside (h : SightedAt L) (hL' : Aside L L') : SightedAt L' where
  keyed ho := h.keyed (by rwa [hL'.observations] at ho)
  plain ho := h.plain (by rwa [hL'.observations] at ho)
  logged := by
    intro e he
    obtain ⟨notes, hevents, -, -, hnotes⟩ := hL'.noted
    rw [hevents] at he
    rcases List.mem_append.mp he with he | he
    · exact h.logged e he
    · rw [(hnotes e he).2]
      exact fun o ho => (by cases ho)

/-- A transaction on bindings leaves the sightings alone. -/
theorem SightedAt.saves {P : Ledger → Binding → EventKind → Prop} (hL : SightedAt L) (h : Saves P now L L') :
    SightedAt L' :=
  h.invariant (fun _ _ haside h1 => h1.aside haside) (fun _ b kind _ h1 => h1.save now b kind) hL

theorem SightedAt.apply (hL : SightedAt L) (now : Int) (op : Operation) : SightedAt (op.apply now L) := by
  rcases apply_effect L now op with heq | ⟨-, hsaves⟩
  · rw [heq]
    refine notes_invariant (Q := fun o => PlainAddress o.address) (fun h ho => h.plain ho) (fun _ ho => ho)
      (fun ho h => h.sight ho) (fun _ ho h => h.appendEvent ho) (fun o ho => ?_) hL
    obtain ⟨c, s, ip, mac, ttl, o0, -, -, hzone, rfl⟩ := stepSightings_recorded ho
    exact ⟨ip, hzone, rfl⟩
  · exact hL.saves hsaves

theorem sightedAt_of_reached (h : Reached L) : SightedAt L := by
  induction h with
  | empty => exact sightedAt_empty
  | operate _ now _ ih => exact ih.apply now _
  | identify _ duid ih => exact ⟨ih.keyed, ih.plain, ih.logged⟩
  | @replicate R R' leader _ _ now events snap hevents hR ih ihleader =>
    refine applyReplicated_invariant (fun {L1 e} he h1 => ?_) (fun {L1 L2 s} _ hadopt h1 => ?_) hR ih
    · exact applyEvent_invariant (Q := fun o => PlainAddress o.address) (fun ho h => h.sight ho)
        (fun _ ho h => h.appendEvent ho) (fun _ h => h.save now e.binding e.kind)
        (ihleader.logged e (hevents e he)) h1
    · simp only [bind_eq_ok, pure_eq_ok, Ledger.adoptSnapshot] at hadopt
      obtain ⟨duid, -, rfl⟩ := hadopt
      exact ⟨h1.keyed, h1.plain, h1.logged⟩

/-! ### What is written -/

/-- What a report leaves of a match depends on the ledger through the sightings only. -/
theorem associated_congr (h : L'.observations = L.observations) (now : Int) (node : Node) (device name : String)
    (m : Binding) : associated L' now node device name m = associated L now node device name m := by
  unfold associated
  rw [h]

/-- A report keeps the hardware address, and the end unless a sighting at the key has another. -/
theorem associated_mac_ends (L : Ledger) (now : Int) (node : Node) (device name : String) (m : Binding) :
    (associated L now node device name m).mac = m.mac ∧
      ((associated L now node device name m).endsAt = m.endsAt ∨
        ∃ o, L.observations.get m.key = some o ∧ (associated L now node device name m).endsAt = o.until_) := by
  unfold associated
  simp only
  split
  · split
    · rename_i o ho
      exact ⟨rfl, Or.inr ⟨o, (Option.filter_eq_some_iff.mp ho).1, rfl⟩⟩
    · exact ⟨rfl, Or.inl rfl⟩
  · exact ⟨rfl, Or.inl rfl⟩

/-- What is stored after the joins: at each key what was there, or a match as the report leaves it. -/
theorem report_writes {node : Node} {device name : String} {found : List Binding}
    (h : Saves (ReportWrite now node device name found) now L L') (k : String) :
    L'.bindings.get k = L.bindings.get k ∨
      ∃ m ∈ found, m.key = k ∧ L'.bindings.get k = some (associated L now node device name m) := by
  have hall := h.invariant
    (I := fun L1 => L1.observations = L.observations ∧
      (L1.bindings.get k = L.bindings.get k ∨
        ∃ m ∈ found, m.key = k ∧ L1.bindings.get k = some (associated L now node device name m)))
    ?_ ?_ ⟨rfl, Or.inl rfl⟩
  · exact hall.2
  · intro L1 L2 haside h1
    rw [haside.observations, haside.bindings]
    exact h1
  · intro L1 b kind hb h1
    obtain ⟨m, hm, rfl⟩ := hb
    rw [associated_congr h1.1]
    refine ⟨by rw [observations_save]; exact h1.1, ?_⟩
    obtain ⟨hscope, haddress, -⟩ := associated_fields L now node device name m
    have hkey : (associated L now node device name m).key = m.key := by
      rw [Binding.key, hscope, haddress]
      rfl
    rw [get_save, hkey]
    split
    · rename_i hk
      exact Or.inr ⟨m, hm, hk.symm, rfl⟩
    · exact h1.2

/-- A report that fails changes no binding and no record of a node. -/
theorem report_error {node : Node} {e : Failure} (h : (L.report now c node).1 = .error e) :
    (L.report now c node).2.bindings = L.bindings ∧ (L.report now c node).2.nodes = L.nodes := by
  unfold Ledger.report at h ⊢
  cases hcheck : checkReport node with
  | error => exact ⟨rfl, rfl⟩
  | ok =>
    rw [hcheck] at h
    cases hjoin : L.joinReport now c node with
    | ok =>
      rw [hjoin] at h
      cases h
    | error e' => cases e' <;> exact ⟨rfl, rfl⟩

/-! ### Corroboration -/

/-- The interface lists the address, in the text that the ledger has for it or in another one. -/
def ListsAddress (iface : InterfaceReport) (address : String) : Prop :=
  ∃ text ∈ iface.addresses, text = address ∨ ∃ ip, parseAddr text = some ip ∧ ip.text = address

/-- An unexpired sighting of the hardware address is stored for the key. -/
def SeenAt (L : Ledger) (now : Int) (k mac : String) (o : Observation) : Prop :=
  L.observations.get k = some o ∧ now < o.until_ ∧ o.mac = mac

/-- The interface lists the address, and has the hardware address of the live active binding there or
that of an unexpired sighting. -/
def Corroborates (L : Ledger) (now : Int) (iface : InterfaceReport) (scope address : String) : Prop :=
  ListsAddress iface address ∧
    ((∃ b, L.bindings.get (bindingKey scope address) = some b ∧ b.state = .active ∧ now < b.endsAt ∧
        b.mac = reportedMAC iface) ∨
      ∃ o, SeenAt L now (bindingKey scope address) (reportedMAC iface) o)

/-- A report leaves `b'` of the live binding `b`: the lease is the same. -/
structure SameLease (b b' : Binding) : Prop where
  client : b'.client = b.client
  address : b'.address = b.address
  state : b'.state = b.state
  mac : b'.mac = b.mac

theorem seenAt_of_fresh {k mac : String} {o : Observation} (hget : L.observations.get k = some o)
    (hfresh : freshSighting now mac o = true) : SeenAt L now k mac o := by
  simp only [freshSighting, Bool.and_eq_true, decide_eq_true_eq] at hfresh
  exact ⟨hget, hfresh.1, hfresh.2⟩

/-- A binding that is found under an address is at that address. -/
theorem address_of_liveByAddress (hL : Filed L) {address : String} {b : Binding}
    (hb : b ∈ L.liveByAddress address) : b.address = address := by
  obtain ⟨k, scope, address', hindexed, hstart, htarget, hread, -⟩ := mem_liveFromIndex hb
  obtain ⟨b', hget, hentry⟩ := hL.sound.indexed hindexed
  obtain ⟨-, rfl⟩ := mem_indexEntries.mp hentry
  have hdenotes := hL.stored hget
  -- The entry leads back to the binding it was made for, which is therefore the one that was read.
  have hsplit : (indexKey [b'.address, b'.scope]).toList.splitOn '\x00' = [b'.address.toList, b'.scope.toList] :=
    splitOn_indexKey_of_nul (by simp) (by simp [hdenotes.address, hdenotes.scope])
  simp only [Ledger.indexTarget, hsplit, String.ofList_toList, Option.some.injEq, Prod.mk.injEq] at htarget
  obtain ⟨rfl, rfl⟩ := htarget
  rw [hread, readBinding_of_get hget]
  exact address_of_start hdenotes.address hdenotes.scope hstart

/-- The interface that a candidate comes from corroborates it. -/
theorem Candidate.corroborated (hL : Filed L) (hsighted : SightedAt L) {iface : InterfaceReport} {text : String}
    (htext : text ∈ iface.addresses) {m : Binding} (h : Candidate L now c (reportedMAC iface) text m) :
    Corroborates L now iface m.scope m.address := by
  cases h with
  | found hmem hstate hends hmac =>
    refine ⟨⟨text, htext, Or.inl (address_of_liveByAddress hL hmem).symm⟩, ?_⟩
    rcases hmac with hmac | ⟨o, hget, hfresh⟩
    · exact Or.inl ⟨m, get_of_liveByAddress hL.sound hmem, hstate, hends, hmac⟩
    · exact Or.inr ⟨o, seenAt_of_fresh hget hfresh⟩
  | sighted ip hip s hs p hcontains o hget hfresh hfree hm =>
    have hkey := hsighted.keyed hget
    rw [hm]
    refine ⟨⟨text, htext, Or.inr ⟨ip, hip, ?_⟩⟩, Or.inr ⟨o, seenAt_of_fresh (by rwa [← hkey] at hget) hfresh⟩⟩
    -- Neither address has a slash, so the last one of the key is before both, whatever the scope is.
    have hzone : ip.zone = "" := by
      simp only [Prefix.contains, Bool.and_eq_true, decide_eq_true_eq] at hcontains
      exact hcontains.1.1
    have hslash : '/' ∉ ip.text.toList := PlainAddress.slash_not_mem ⟨ip, hzone, rfl⟩
    have hlist := congrArg String.toList hkey
    simp only [bindingKey, String.toList_append, List.append_assoc] at hlist
    exact String.toList_inj.mp (append_cons_inj_right
      (PlainAddress.slash_not_mem (hsighted.plain hget)) hslash hlist).2.symm

/-! ### The result -/

/-- A report joins what it corroborates, and nothing else. A key whose binding it changes is listed
on an interface that has the hardware address of the live active binding there, or of an unexpired sighting;
the lease itself stays, or it is new, at a key with nothing live, and ends with the sighting. A report that
fails changes nothing. -/
theorem report_joins_corroborated {L : Ledger} (hL : Reached L) (now : Int) (c : Config) (node : Node) :
    (∀ k, (L.report now c node).2.bindings.get k ≠ L.bindings.get k →
      ∃ b', (L.report now c node).2.bindings.get k = some b' ∧ b'.key = k ∧
        ∃ iface ∈ node.interfaces, Corroborates L now iface b'.scope b'.address ∧
          ((∃ b, L.bindings.get k = some b ∧ b.live now = true ∧ SameLease b b') ∨
            ((∀ b, L.bindings.get k = some b → b.live now = false) ∧ b'.origin = .neighborReport ∧
              ∃ o, SeenAt L now k (reportedMAC iface) o ∧ b'.endsAt ≤ o.until_))) ∧
      ∀ e, (L.report now c node).1 = .error e →
        (L.report now c node).2.bindings = L.bindings ∧ (L.report now c node).2.nodes = L.nodes := by
  refine ⟨fun k hk => ?_, fun e => report_error⟩
  have hfiled := filed_of_reached hL
  have hsighted := sightedAt_of_reached hL
  cases hcheck : checkReport node with
  | error => exact absurd (by simp [Ledger.report, hcheck]) hk
  | ok =>
    cases hjoin : L.joinReport now c node with
    | error e => exact absurd (by simp [Ledger.report, hcheck, hjoin]; cases e <;> rfl) hk
    | ok r =>
      obtain ⟨joined, L'⟩ := r
      have hreport : (L.report now c node).2 = L' := by simp [Ledger.report, hcheck, hjoin]
      rw [hreport] at hk ⊢
      obtain ⟨found, device, name, hfound, -, hsaves⟩ := joinReport_saves hjoin
      obtain ⟨m, hm, hmkey, hget⟩ := (report_writes hsaves k).resolve_left hk
      obtain ⟨iface, hiface, text, htext, hcandidate⟩ := reportMatches_candidate hfound m hm
      obtain ⟨hscope, haddress, hclient, hstate, horigin, -⟩ :=
        associated_fields L now { node with seen := now } device name m
      refine ⟨_, hget, by rw [Binding.key, hscope, haddress]; exact hmkey, iface, hiface, ?_, ?_⟩
      · rw [hscope, haddress]
        exact hcandidate.corroborated hfiled hsighted htext
      · obtain ⟨hmac, hends⟩ := associated_mac_ends L now { node with seen := now } device name m
        cases hcandidate with
        | found hmem hactive hlater _ =>
          have hstored := get_of_liveByAddress hfiled.sound hmem
          rw [hmkey] at hstored
          refine Or.inl ⟨m, hstored, ?_, hclient, haddress, hstate, hmac⟩
          simp [Binding.live, hactive, liveState, hlater]
        | sighted ip _ s _ p _ o hseen hfresh hfree hnew =>
          -- The sighting is stored at the key that is written, so it is the one that ends the binding.
          have hkey : m.key = bindingKey s.id ip.text := by
            rw [hnew]
            exact hsighted.keyed hseen
          refine Or.inr ⟨?_, by rw [horigin, hnew]; rfl, o, ?_, ?_⟩
          · intro b hb
            have hread : L.readBinding o.scope o.address = b := by
              refine readBinding_of_get ?_
              rw [hsighted.keyed hseen, ← hkey, hmkey]
              exact hb
            rwa [hread] at hfree
          · rw [← hmkey, hkey]
            exact seenAt_of_fresh hseen hfresh
          · rcases hends with hends | ⟨o', ho', hends⟩
            · rw [hends, hnew]
              exact le_refl _
            · rw [hkey, hseen, Option.some.injEq] at ho'
              rw [hends, ho']

/-- A neighbour is sighted at an address of the scope, without a lease. -/
def sightNine : Operation :=
  .observe (smallLan 60) [{ scope := "lan", address := "10.0.0.9", mac := "02:00:00:00:00:09" }]

/-- The neighbour's own report. -/
def reportNine : Node where
  id := "n9"
  dnsName := "nine.ts.net"
  interfaces := [{ mac := "02:00:00:00:00:09", addresses := ["10.0.0.9"] }]

theorem report_joins_sighted_neighbour :
    ((sightNine.apply 100 {}).report 150 (smallLan 60) reportNine).2.bindings.get "lan/10.0.0.9" ≠
        (sightNine.apply 100 {}).bindings.get "lan/10.0.0.9" ∧
      ∃ b', ((sightNine.apply 100 {}).report 150 (smallLan 60) reportNine).2.bindings.get "lan/10.0.0.9" =
          some b' ∧
        ∃ iface ∈ reportNine.interfaces, Corroborates (sightNine.apply 100 {}) 150 iface b'.scope b'.address := by
  have hc : (smallLan 60).validate = .ok () := by decide +kernel
  have hop : Operation.Called sightNine := hc
  have hchanged : ((sightNine.apply 100 {}).report 150 (smallLan 60) reportNine).2.bindings.get "lan/10.0.0.9" ≠
      (sightNine.apply 100 {}).bindings.get "lan/10.0.0.9" := by
    decide +kernel
  obtain ⟨b', hget, -, iface, hiface, hcorroborates, -⟩ :=
    (report_joins_corroborated (.operate .empty 100 hop) 150 (smallLan 60) reportNine).1 _ hchanged
  exact ⟨hchanged, b', hget, iface, hiface, hcorroborates⟩

end Ghostd.Proofs.Addressbook
