import Ghostd.Addressbook.Identity
import Ghostd.Addressbook.Pd
import Ghostd.Proofs.Addressbook.Ledger
import Mathlib.Data.List.TakeWhile

/-!
# `Ghostd.Proofs.Addressbook.Writes`: what each operation writes

An operation of the ledger is a sequence of saves, with writes between them that touch neither
bindings nor indexes nor sightings. `Saves P now L L'` says so, where `P` is what is known of
each save at the moment it is made. One lemma for each operation gives its `P`, once; every
invariant of runs is then a fact about single saves (`Saves.invariant`).
-/

set_option autoImplicit false

namespace Ghostd.Proofs.Addressbook

open Ghostd.Lib Ghostd.Addressbook

variable {L L' : Ledger} {now : Int} {client duidHex ip mac requested scopeID claimed : String} {c : Config}
    {commit : Bool} {doc : ImportDocument} {r : Binding} {s : Scope}

/-! ### Sequences of saves -/

/-- Only notes were added to the log: events with neither a binding nor a sighting, numbered
on. -/
def Noted (L L' : Ledger) : Prop :=
  ∃ notes : List Event, L'.events = L.events ++ notes ∧ L'.sequence = L.sequence + notes.length ∧
    notes.map (·.id) = List.range' (L.sequence + 1) notes.length ∧
    ∀ e ∈ notes, e.binding = {} ∧ e.observation = none

theorem Noted.same (hevents : L'.events = L.events) (hsequence : L'.sequence = L.sequence) : Noted L L' :=
  ⟨[], by rw [hevents, List.append_nil], hsequence, rfl, fun e he => by cases he⟩

theorem Noted.event {e : Event} (hevents : L'.events = (L.appendEvent e).events)
    (hsequence : L'.sequence = L.sequence + 1) (hbinding : e.binding = {}) (hobservation : e.observation = none) :
    Noted L L' := by
  refine ⟨[{ e with id := L.sequence + 1 }], hevents, hsequence, rfl, ?_⟩
  intro x hx
  rw [List.mem_singleton.mp hx]
  exact ⟨hbinding, hobservation⟩

/-- The entry of the expiry index is not that of the binding at its key. -/
def Stale (L : Ledger) (k : Nat ×ₗ String) : Prop :=
  ∀ b, L.bindings.get (ofLex k).2 = some b →
    ¬ (liveState b.state = true ∧ b.endsAt = keyTime (ofLex k).1)

/-- The two ledgers have the same bindings, indexes and sightings. A stale entry of the expiry
index may be gone, the log may have more notes, and an operator's association may be new, whose
name is then a label. -/
structure Aside (L L' : Ledger) : Prop where
  bindings : L'.bindings = L.bindings
  indexes : L'.indexes = L.indexes
  observations : L'.observations = L.observations
  dns : L'.dns = L.dns
  expiry : L'.expiry = L.expiry ∨ ∃ k, Stale L k ∧ L'.expiry = L.expiry.delete k
  noted : Noted L L'
  associations : ∀ k a, L'.associations.get k = some a →
    L.associations.get k = some a ∨ labelPattern a.name = true

theorem Aside.refl (L : Ledger) : Aside L L :=
  ⟨rfl, rfl, rfl, rfl, Or.inl rfl, .same rfl rfl, fun _ _ => Or.inl⟩

theorem Sound.of_tables (h : Sound L) (hbindings : L'.bindings = L.bindings) (hindexes : L'.indexes = L.indexes) :
    Sound L' where
  keyed hb := h.keyed (by rwa [hbindings] at hb)
  indexed he := by
    rw [hbindings]
    exact h.indexed (by rwa [Indexed, hindexes] at he)

theorem Sound.aside (h : Sound L) (hL' : Aside L L') : Sound L' := h.of_tables hL'.bindings hL'.indexes

/-- `L'` comes from `L` by saves of which `P` holds, and writes aside. -/
inductive Saves (P : Ledger → Binding → EventKind → Prop) (now : Int) (L₀ : Ledger) : Ledger → Prop where
  | refl : Saves P now L₀ L₀
  | save {L : Ledger} {b : Binding} {kind : EventKind} (h : Saves P now L₀ L) (hP : P L b kind) :
      Saves P now L₀ (L.save now b kind)
  | aside {L L' : Ledger} (h : Saves P now L₀ L) (hL' : Aside L L') : Saves P now L₀ L'

namespace Saves

variable {P Q : Ledger → Binding → EventKind → Prop} {now : Int} {L₀ L L' : Ledger}

theorem mono (h : Saves P now L₀ L) (hPQ : ∀ L b kind, P L b kind → Q L b kind) : Saves Q now L₀ L := by
  induction h with
  | refl => exact .refl
  | save _ hP ih => exact .save ih (hPQ _ _ _ hP)
  | aside _ hL' ih => exact .aside ih hL'

/-- The rule for invariants: it is enough to look at single saves. -/
theorem invariant (h : Saves P now L₀ L) {I : Ledger → Prop}
    (aside : ∀ L L', Aside L L' → I L → I L')
    (save : ∀ L b kind, P L b kind → I L → I (L.save now b kind)) (h0 : I L₀) : I L := by
  induction h with
  | refl => exact h0
  | save _ hP ih => exact save _ _ _ hP ih
  | aside _ hL' ih => exact aside _ _ hL' ih

end Saves

/-! ### Texts that must parse -/

theorem mustParsePrefix_eq_ok {s : String} {p : Prefix} :
    mustParsePrefix s = .ok p ↔ parsePrefix s = some p := by
  unfold mustParsePrefix
  cases parsePrefix s with
  | none => simp
  | some => simp

theorem mustParseAddr_eq_ok {s : String} {a : Addr} :
    mustParseAddr s = .ok a ↔ parseAddr s = some a := by
  unfold mustParseAddr
  cases parseAddr s with
  | none => simp
  | some => simp

/-! ### Allocate -/

/-- What `Allocate` writes: a new lease at the address it has chosen for the client. -/
def AllocateWrite (now : Int) (c : Config) (scopeID client mac claimed requested : String)
    (commit : Bool) (L : Ledger) (b : Binding) (kind : EventKind) : Prop :=
  ∃ s m ip, c.scope scopeID = some s ∧ s.enabled = true ∧ validClient client = true ∧
    canonicalMAC s mac = .ok m ∧ s.is6 = startsWith client "duid:" ∧
    chooseAddress L now s client m requested commit = .ok ip ∧
    (b, kind) = newLease L now c s client m claimed ip commit

/-- What the walk through the pool finds is usable, and the text of an address of the same zone. -/
theorem scanPool_found {usable : String → Except Failure Bool} {last a : Addr} {n : Nat}
    (h : scanPool usable last n a = .ok (some ip)) :
    usable ip = .ok true ∧ ∃ x : Addr, x.zone = a.zone ∧ ip = x.text := by
  induction n generalizing a with
  | zero =>
    rw [scanPool, pure_eq_ok] at h
    cases h
  | succ n ih =>
    rw [scanPool] at h
    split at h
    · simp only [bind_eq_ok] at h
      obtain ⟨ok, hok, h⟩ := h
      cases ok with
      | true =>
        simp only [if_true, pure_eq_ok, Option.some.injEq] at h
        subst h
        exact ⟨hok, a, rfl, rfl⟩
      | false =>
        simp only [Bool.false_eq_true, if_false] at h
        split at h
        · rename_i b hb
          have hzone : b.zone = a.zone := by
            unfold Addr.next at hb
            split at hb
            · rw [← Option.some.inj hb]
            · cases hb
          rw [← hzone]
          exact ih h
        · rw [pure_eq_ok] at h
          cases h
    · rw [pure_eq_ok] at h
      cases h

/-- Whatever is chosen is available to the client. It is the first candidate, or an address of the pool. -/
theorem chooseAddress_cases (h : chooseAddress L now s client mac requested commit = .ok ip) :
    available L now s client mac ip = .ok true ∧
      (firstCandidate L now s client mac requested commit = .ok ip ∨
        ∃ first a : Addr, parseAddr s.start = some first ∧ a.zone = first.zone ∧ ip = a.text) := by
  simp only [chooseAddress, bind_eq_ok] at h
  obtain ⟨candidate, hcandidate, ok, hok, h⟩ := h
  cases ok with
  | true =>
    simp only [if_true, pure_eq_ok] at h
    subst h
    exact ⟨hok, Or.inl hcandidate⟩
  | false =>
    simp only [Bool.false_eq_true, if_false] at h
    split at h
    · simp at h
    · split at h
      · simp at h
      · simp only [bind_eq_ok, mustParseAddr_eq_ok] at h
        obtain ⟨first, hfirst, last, -, found, hfound, h⟩ := h
        cases found with
        | none => simp at h
        | some =>
          simp only [pure_eq_ok] at h
          subst h
          obtain ⟨husable, a, hzone, htext⟩ := scanPool_found hfound
          exact ⟨husable, Or.inr ⟨first, a, hfirst, hzone, htext⟩⟩

/-- What an allocation that succeeds has checked and done. -/
theorem allocate_cases
    (h : L.allocate now c scopeID client mac claimed requested commit = .ok (r, L')) :
    ∃ s m ip, c.scope scopeID = some s ∧ s.enabled = true ∧ validClient client = true ∧
      canonicalMAC s mac = .ok m ∧ s.is6 = startsWith client "duid:" ∧
      chooseAddress L now s client m requested commit = .ok ip ∧
      ((commit = false ∧ r = L.readBinding s.id ip ∧ r.client = client ∧ r.state = .active ∧
          now < r.endsAt ∧ L' = L) ∨
        (r = (newLease L now c s client m claimed ip commit).1 ∧
          (¬ (commit = false ∧ (L.readBinding s.id ip).client = client ∧
            (L.readBinding s.id ip).state = .active ∧ now < (L.readBinding s.id ip).endsAt)) ∧
          L' = L.save now r (newLease L now c s client m claimed ip commit).2)) := by
  unfold Ledger.allocate at h
  cases hs : c.scope scopeID with
  | none => simp [hs] at h
  | some s =>
    simp only [hs, bind_eq_ok, refuseIf_eq_ok, exists_const] at h
    obtain ⟨henabled, hclient, m, hm, hfamily, ip, hip, h⟩ := h
    refine ⟨s, m, ip, rfl, by simpa using henabled, by simpa using hclient, hm, by simpa using hfamily,
      hip, ?_⟩
    split at h
    · rename_i hkeep
      simp only [pure_eq_ok, Prod.mk.injEq] at h
      obtain ⟨rfl, rfl⟩ := h
      exact Or.inl ⟨by simpa using hkeep.1, rfl, hkeep.2.1, hkeep.2.2.1, hkeep.2.2.2, rfl⟩
    · rename_i hnew
      simp only [pure_eq_ok, Prod.mk.injEq] at h
      obtain ⟨rfl, rfl⟩ := h
      refine Or.inr ⟨rfl, fun hold => hnew ?_, rfl⟩
      exact ⟨by simpa using hold.1, hold.2⟩

theorem allocate_saves
    (h : L.allocate now c scopeID client mac claimed requested commit = .ok (r, L')) :
    Saves (AllocateWrite now c scopeID client mac claimed requested commit) now L L' := by
  obtain ⟨s, m, ip, hs, henabled, hclient, hm, hfamily, hip, ⟨-, -, -, -, -, rfl⟩ | ⟨hr, -, rfl⟩⟩ :=
    allocate_cases h
  · exact .refl
  · refine .save .refl ⟨s, m, ip, hs, henabled, hclient, hm, hfamily, hip, ?_⟩
    rw [hr]

/-! ### Release and Expire -/

/-- What `Release` writes: the end or the quarantine of a binding the client holds. -/
def ReleaseWrite (now : Int) (scope client ip : String) (L : Ledger) (b : Binding)
    (_ : EventKind) : Prop :=
  ∃ b₀, L.bindings.get (bindingKey scope ip) = some b₀ ∧ b₀.client = client ∧ b₀.held now = true ∧
    (b = { b₀ with state := .released, endsAt := now } ∨
      b = { b₀ with state := .declined, endsAt := now + 600 })

theorem Binding.state_of_held {b : Binding} (h : b.held now = true) : b.state ≠ .unset := by
  intro hstate
  simp [Binding.held, hstate, heldState] at h

/-- A release is one save. -/
theorem release_eq {scope ip : String} {decline : Bool} (h : L.release now scope client ip decline = .ok L') :
    ∃ b kind, ReleaseWrite now scope client ip L b kind ∧ L' = L.save now b kind := by
  simp only [Ledger.release, bind_eq_ok, refuseIf_eq_ok, exists_const, pure_eq_ok,
    Bool.or_eq_false_iff, Bool.not_eq_false', decide_eq_false_iff_not, not_not] at h
  obtain ⟨⟨hclient, hheld⟩, h⟩ := h
  have hget := get_of_readBinding (Binding.state_of_held hheld)
  rw [← h]
  split
  · exact ⟨_, _, ⟨_, hget, hclient, hheld, Or.inr rfl⟩, rfl⟩
  · exact ⟨_, _, ⟨_, hget, hclient, hheld, Or.inl rfl⟩, rfl⟩

theorem release_saves {scope ip : String} {decline : Bool} (h : L.release now scope client ip decline = .ok L') :
    Saves (ReleaseWrite now scope client ip) now L L' := by
  obtain ⟨b, kind, hwrite, rfl⟩ := release_eq h
  exact .save .refl hwrite

/-- What `Expire` writes: a binding in a live state whose end has come, as expired. -/
def ExpireWrite (now : Int) (L : Ledger) (b : Binding) (_ : EventKind) : Prop :=
  ∃ k b₀, L.bindings.get k = some b₀ ∧ liveState b₀.state = true ∧ b₀.endsAt ≤ now ∧
    b = { b₀ with state := .expired }

theorem expire_saves (L : Ledger) (now : Int) : Saves (ExpireWrite now) now L (L.expire now) := by
  unfold Ledger.expire
  refine foldl_invariant ?_ .refl
  intro k hk L1 hL1
  have hdue : keyTime (ofLex k).1 ≤ now := by
    simpa using List.mem_takeWhile_imp hk
  unfold Ledger.expireKey
  cases hget : L1.bindings.get (ofLex k).2 with
  | none =>
    refine .aside hL1 ⟨rfl, rfl, rfl, rfl, Or.inr ⟨k, fun b hb => ?_, rfl⟩, .same rfl rfl,
      fun _ _ => Or.inl⟩
    rw [hget] at hb
    cases hb
  | some b =>
    by_cases hb : liveState b.state = true ∧ b.endsAt = keyTime (ofLex k).1
    · simp only [if_pos hb]
      exact .save hL1 ⟨_, b, hget, hb.1, by rw [hb.2]; exact hdue, rfl⟩
    · simp only [if_neg hb]
      refine .aside hL1 ⟨rfl, rfl, rfl, rfl, Or.inr ⟨k, fun b' hb' => ?_, rfl⟩, .same rfl rfl,
        fun _ _ => Or.inl⟩
      rw [hget, Option.some.injEq] at hb'
      rw [← hb']
      exact hb

/-! ### Import -/

/-- What `ImportDocument` writes: a quarantine at an address nobody holds, or a lease at an
address that is free or the client's own. -/
def ImportWrite (now : Int) (c : Config) (doc : ImportDocument) (L : Ledger) (b : Binding)
    (_ : EventKind) : Prop :=
  ∃ l ∈ doc.leases, ∃ s mac client, checkImported L c doc l = .ok (s, mac, client) ∧
    now < importedEnd l ∧
    ((isQuarantineMarker s l mac = true ∧ (L.readBinding l.scope l.address).live now = false ∧
        b = restoredQuarantine now s l mac client (importedEnd l)) ∨
      (isQuarantineMarker s l mac = false ∧
        ((L.readBinding l.scope l.address).live now = true →
          (L.readBinding l.scope l.address).client = client ∧
            (L.readBinding l.scope l.address).state ≠ .declined) ∧
        b = importedBinding now c s l mac client (importedEnd l) (L.readBinding l.scope l.address)))

/-- A live binding is declined or held. -/
theorem Binding.live_eq (b : Binding) (now : Int) :
    b.live now = (b.held now || (decide (b.endsAt > now) && decide (b.state = .declined))) := by
  unfold Binding.live Binding.held
  cases b.state <;> simp [liveState, heldState]

/-- A lease of a document is passed over, or it is written. -/
theorem importLease_writes {l : ImportedLease} (hl : l ∈ doc.leases) (h : importLease now c doc L l = .ok L') :
    L' = L ∨ ∃ b, L' = L.save now b .import ∧ ImportWrite now c doc L b .import := by
  simp only [importLease, bind_eq_ok] at h
  obtain ⟨⟨s, mac, client⟩, hcheck, h⟩ := h
  simp only at h
  split at h
  · rw [pure_eq_ok] at h
    exact Or.inl h.symm
  · rename_i hends
    have hnow : now < importedEnd l := by
      simpa using hends
    split at h
    · rename_i hmarker
      split at h
      · rw [pure_eq_ok] at h
        exact Or.inl h.symm
      · split at h
        · simp at h
        · rename_i hdeclined hheld
          rw [pure_eq_ok] at h
          refine Or.inr ⟨_, h.symm, l, hl, s, mac, client, hcheck, hnow, Or.inl ⟨hmarker, ?_, rfl⟩⟩
          rw [Binding.live_eq]
          simpa [hheld] using hdeclined
    · rename_i hmarker
      split at h
      · rw [pure_eq_ok] at h
        exact Or.inl h.symm
      · split at h
        · simp at h
        · rename_i hkeep hconflict
          rw [pure_eq_ok] at h
          refine Or.inr ⟨_, h.symm, l, hl, s, mac, client, hcheck, hnow, Or.inr ⟨by simpa using hmarker, ?_, rfl⟩⟩
          intro hlive
          simpa [hlive] using hconflict

theorem importLease_saves {L₀ : Ledger} {l : ImportedLease} (hl : l ∈ doc.leases)
    (h0 : Saves (ImportWrite now c doc) now L₀ L) (h : importLease now c doc L l = .ok L') :
    Saves (ImportWrite now c doc) now L₀ L' := by
  rcases importLease_writes hl h with rfl | ⟨b, rfl, hwrite⟩
  · exact h0
  · exact .save h0 hwrite

theorem adoptDUID_aside {value : String} (h : L.adoptDUID c value = .ok L') : Aside L L' := by
  unfold Ledger.adoptDUID at h
  split at h
  · simp only [bind_eq_ok, refuseIf_eq_ok, exists_const, pure_eq_ok] at h
    obtain ⟨-, -, -, h⟩ := h
    rw [← h]
    exact ⟨rfl, rfl, rfl, rfl, Or.inl rfl, .same rfl rfl, fun _ _ => Or.inl⟩
  · simp at h

theorem importDocument_saves (h : L.importDocument now c doc = .ok L') :
    Saves (ImportWrite now c doc) now L L' := by
  simp only [Ledger.importDocument, bind_eq_ok, refuseIf_eq_ok, exists_const] at h
  obtain ⟨-, L1, hadopt, h⟩ := h
  have haside : Aside L L1 := by
    unfold Ledger.adoptServer at hadopt
    split at hadopt
    · exact adoptDUID_aside hadopt
    · rw [pure_eq_ok] at hadopt
      rw [← hadopt]
      exact .refl L
  exact foldlM_invariant (fun l hl _ _ h0 hstep => importLease_saves hl h0 hstep)
    (.aside .refl haside) h

/-! ### Prefix delegation -/

/-- The prefix `AllocatePrefix` settles on: that of the delegation the client holds, or a
chosen one. -/
def PrefixChosen (now : Int) (s : Scope) (client hint : String) (L : Ledger) (chosen : Prefix) : Prop :=
  ∃ pd pool, s.pd = some pd ∧ parsePrefix pd.pool = some pool ∧
    (((myDelegation L now s client).address ≠ "" ∧
        parsePrefix (myDelegation L now s client).address = some chosen) ∨
      ((myDelegation L now s client).address = "" ∧
        choosePrefix L now s.id client hint pool pd.length.toNat = some chosen))

/-- What `AllocatePrefix` writes. -/
def DelegateWrite (now : Int) (s : Scope) (client duidHex hint via : String) (commit : Bool)
    (L : Ledger) (b : Binding) (_ : EventKind) : Prop :=
  ∃ chosen, PrefixChosen now s client hint L chosen ∧
    b = (if commit then
          { delegation L now s client duidHex via chosen.text with
              state := .active, endsAt := now + s.leaseSeconds,
              preferredEnd := now + s.preferredSeconds }
        else delegation L now s client duidHex via chosen.text)

/-- What `AllocatePrefix` returns, for the prefix it settles on: the active delegation of the client
as it is when it is offered again, and otherwise the binding that is saved. -/
theorem allocatePrefix_result {hint via : String}
    (h : L.allocatePrefix now s client duidHex hint via commit = .ok (r, L')) :
    ∃ chosen, PrefixChosen now s client hint L chosen ∧
      ((myDelegation L now s client).state = .active ∧ r = myDelegation L now s client ∧ L' = L ∨
        ∃ kind, r = (if commit then
            { delegation L now s client duidHex via chosen.text with
                state := .active, endsAt := now + s.leaseSeconds,
                preferredEnd := now + s.preferredSeconds }
          else delegation L now s client duidHex via chosen.text) ∧ L' = L.save now r kind) := by
  unfold Ledger.allocatePrefix at h
  cases hpd : s.pd with
  | none => simp [hpd] at h
  | some pd =>
    simp only [hpd, bind_eq_ok, mustParsePrefix_eq_ok] at h
    obtain ⟨pool, hpool, chosen, hchosen, h⟩ := h
    refine ⟨chosen, ⟨pd, pool, hpd, hpool, ?_⟩, ?_⟩
    · unfold settlePrefix at hchosen
      split at hchosen
      · rename_i hmine
        exact Or.inl ⟨hmine, mustParsePrefix_eq_ok.mp hchosen⟩
      · rename_i hmine
        refine Or.inr ⟨by simpa using hmine, ?_⟩
        split at hchosen
        · rename_i p hp
          rw [pure_eq_ok] at hchosen
          rw [hp, hchosen]
        · simp at hchosen
    · cases commit with
      | true =>
        simp only [if_true, pure_eq_ok, Prod.mk.injEq] at h
        obtain ⟨rfl, rfl⟩ := h
        exact Or.inr ⟨_, rfl, rfl⟩
      | false =>
        simp only [Bool.false_eq_true, if_false] at h
        split at h
        · rename_i hactive
          simp only [pure_eq_ok, Prod.mk.injEq] at h
          exact Or.inl ⟨hactive, h.1.symm, h.2.symm⟩
        · simp only [pure_eq_ok, Prod.mk.injEq] at h
          obtain ⟨rfl, rfl⟩ := h
          exact Or.inr ⟨_, rfl, rfl⟩

/-- `AllocatePrefix` saves one binding, or none when the client is offered what it has. -/
theorem allocatePrefix_cases {hint via : String}
    (h : L.allocatePrefix now s client duidHex hint via commit = .ok (r, L')) :
    L' = L ∨ ∃ b kind, DelegateWrite now s client duidHex hint via commit L b kind ∧
      L' = L.save now b kind := by
  obtain ⟨chosen, hchosen, ⟨-, -, hL⟩ | ⟨kind, hr, hL⟩⟩ := allocatePrefix_result h
  · exact Or.inl hL
  · exact Or.inr ⟨r, kind, ⟨chosen, hchosen, hr⟩, hL⟩

theorem allocatePrefix_saves {hint via : String}
    (h : L.allocatePrefix now s client duidHex hint via commit = .ok (r, L')) :
    Saves (DelegateWrite now s client duidHex hint via commit) now L L' := by
  rcases allocatePrefix_cases h with rfl | ⟨b, kind, hb, rfl⟩
  · exact .refl
  · exact .save .refl hb

/-- What ending a list of bindings writes. -/
def EndWrite (bs : List Binding) (ended : Binding → Binding) (_ : Ledger) (b : Binding)
    (_ : EventKind) : Prop :=
  ∃ b₀ ∈ bs, b = ended b₀

theorem endBindings_saves (L : Ledger) (now : Int) (bs : List Binding) (ended : Binding → Binding) :
    Saves (EndWrite bs ended) now L (L.endBindings now bs ended) :=
  foldl_invariant (fun b hb _ h => .save h ⟨b, hb, rfl⟩) .refl

/-! ### Report and Repair -/

/-- What `Report` writes: matched bindings under the report's device, name and node. -/
def ReportWrite (now : Int) (node : Node) (device name : String) (found : List Binding) (L : Ledger)
    (b : Binding) (_ : EventKind) : Prop :=
  ∃ m ∈ found, b = associated L now node device name m

theorem joinReport_saves {node : Node} {joined : List Binding} (h : L.joinReport now c node = .ok (joined, L')) :
    ∃ found device name, reportMatches L now c { node with seen := now } = .ok found ∧
      reportIdentity L now c { node with seen := now } found = .ok (device, name) ∧
      Saves (ReportWrite now { node with seen := now } device name found) now L L' := by
  simp only [Ledger.joinReport, bind_eq_ok, pure_eq_ok, Prod.mk.injEq] at h
  obtain ⟨found, hfound, ⟨device, name⟩, hidentity, L1, hfold, -, hL'⟩ := h
  refine ⟨found, device, name, hfound, hidentity, ?_⟩
  rw [← hL']
  refine .aside (L := L1) ?_ ⟨rfl, rfl, rfl, rfl, Or.inl rfl, .same rfl rfl, fun _ _ => Or.inl⟩
  refine foldlM_invariant ?_ .refl hfold
  intro m hm L2 L3 h2 hstep
  simp only [associate, bind_eq_ok, refuseIf_eq_ok, exists_const] at hstep
  obtain ⟨-, hstep⟩ := hstep
  split at hstep
  · rw [pure_eq_ok] at hstep
    rw [← hstep]
    exact .save h2 ⟨m, hm, rfl⟩
  · rw [pure_eq_ok] at hstep
    rwa [← hstep]

/-- What `Repair` writes: an active binding under another device, name and node. -/
def RepairWrite (now : Int) (L : Ledger) (b : Binding) (_ : EventKind) : Prop :=
  ∃ scope address b₀, L.bindings.get (bindingKey scope address) = some b₀ ∧ b₀.state = .active ∧
    now < b₀.endsAt ∧ ∃ device name nodeID evidence, labelPattern name = true ∧
      b = { b₀ with device := device, name := name, nodeID := nodeID, evidence := evidence }

theorem putAssociation_aside (L : Ledger) (now : Int) {r : IdentityRepair}
    (hname : labelPattern r.name = true) : Aside L (L.putAssociation now r) := by
  unfold Ledger.putAssociation
  split
  · exact ⟨rfl, rfl, rfl, rfl, Or.inl rfl, .same rfl rfl,
      fun k a ha => Or.inl (Bucket.get_delete_eq_some.mp ha).2⟩
  · split
    · exact .refl L
    · refine ⟨rfl, rfl, rfl, rfl, Or.inl rfl, .same rfl rfl, fun k a ha => ?_⟩
      rcases Bucket.get_put_eq_some.mp ha with ⟨-, rfl⟩ | ⟨-, ha⟩
      · exact Or.inr hname
      · exact Or.inl ha

/-- The binding that a repair leaves. -/
def repaired (L : Ledger) (r : IdentityRepair) : Binding :=
  { L.readBinding r.scope r.address with
      device := r.device, name := r.name, nodeID := r.nodeID, evidence := "operator repair: " ++ r.reason }

/-- What a repair that is accepted has checked and done. -/
structure Accepted (now : Int) (c : Config) (L : Ledger) (r : IdentityRepair) (L' : Ledger) : Prop where
  label : labelPattern r.name = true
  inventory : c.devices.any (repairConflict r) = false
  unheld : ∀ b ∈ L.activeByName r.name, b.device ≠ r.device → now < b.endsAt →
    b.scope = r.scope ∧ b.address = r.address
  stored : L.bindings.get (bindingKey r.scope r.address) = some (L.readBinding r.scope r.address)
  client : (L.readBinding r.scope r.address).client = r.client
  active : (L.readBinding r.scope r.address).state = .active
  ends : now < (L.readBinding r.scope r.address).endsAt
  result : L' = (L.save now (repaired L r) .identityRepair).putAssociation now r

theorem repairOne_accepted {r : IdentityRepair} (h : repairOne now c L r = .ok L') : Accepted now c L r L' := by
  unfold repairOne at h
  simp only [bind_eq_ok, refuseIf_eq_ok, exists_const] at h
  obtain ⟨hvalid, hinventory, h⟩ := h
  simp only [Bool.or_eq_false_iff, Bool.not_eq_false'] at hvalid
  split at h
  · simp at h
  · rename_i hnone
    simp only [bind_eq_ok, refuseIf_eq_ok, exists_const, pure_eq_ok, Bool.or_eq_false_iff,
      decide_eq_false_iff_not, not_not, not_le] at h
    obtain ⟨⟨⟨⟨hclient, -⟩, hactive⟩, hends⟩, -, hL'⟩ := h
    refine ⟨hvalid.1.1.1.2, hinventory, fun b hb hdevice hlater => ?_, get_of_readBinding ?_, hclient, hactive,
      hends, hL'.symm⟩
    · simpa [hdevice, hlater] using List.find?_eq_none.mp hnone b hb
    · rw [hactive]
      decide

theorem repair_saves {changes : List IdentityRepair} (h : L.repair now c changes = .ok L') :
    Saves (RepairWrite now) now L L' := by
  simp only [Ledger.repair, bind_eq_ok, refuseIf_eq_ok, exists_const] at h
  refine foldlM_invariant ?_ .refl h.2
  intro r _ L1 L2 h1 hstep
  have hrepair := repairOne_accepted hstep
  rw [hrepair.result]
  exact .aside (.save h1 ⟨_, _, _, hrepair.stored, hrepair.active, hrepair.ends, _, _, _, _, hrepair.label, rfl⟩)
    (putAssociation_aside _ now hrepair.label)

/-! ### The DNS configuration -/

theorem noteDNSConfig_aside (L : Ledger) (now : Int) (c : Config) : Aside L (L.noteDNSConfig now c) := by
  unfold Ledger.noteDNSConfig
  split
  · exact .refl L
  · exact ⟨rfl, rfl, rfl, rfl, Or.inl rfl, .event rfl rfl rfl rfl, fun _ _ => Or.inl⟩

end Ghostd.Proofs.Addressbook
