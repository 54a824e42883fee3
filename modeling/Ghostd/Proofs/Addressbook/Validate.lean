import Ghostd.Addressbook.Config
import Ghostd.Lib.NetipRange
import Mathlib.Data.List.Nodup
import Mathlib.Data.List.Pairwise

/-!
# `Ghostd.Proofs.Addressbook.Validate`: what an accepted configuration says

`Config.validate` is one pass over the devices and one over the scopes. `ScopeFacts` collects
what the pass checks of each scope by itself, and `scopeFacts_of_validate` gives it for every
scope of an accepted configuration.

Each scope is then compared with what has been seen. `After` is what is compared, between what two
scopes claim. `accepted_iff` says that a list of scopes is accepted exactly when each is accepted alone
and every later one comes `After` every earlier one. Most of the comparisons do not depend on which
scope came first (`Apart`).
-/

set_option autoImplicit false

namespace Ghostd.Proofs.Addressbook

open Ghostd.Lib Ghostd.Addressbook List

variable {s : Scope} {devices : List String} {p : Prefix} {c : Config} {next one seen : SeenScopes}

/-- What is checked of the delegation pool of a scope. -/
structure PoolFacts (pd : PDConfig) (pool : Prefix) : Prop where
  parsed : parsePrefix pd.pool = some pool
  masked : pool = pool.masked
  is6 : pool.addr.is6 = true
  longer : (pool.bits : Int) < pd.length
  atLeast : 32 ≤ pd.length
  atMost : pd.length ≤ 64
  depth : pd.length - pool.bits ≤ 16

/-- What is checked of a scope by itself; `p` is its subnet. -/
structure ScopeFacts (s : Scope) (p : Prefix) : Prop where
  label : labelPattern s.id = true
  subnet : parsePrefix s.subnet = some p
  masked : p = p.masked
  server : ∃ a, parseAddr s.server = some a ∧ a.zone = "" ∧ a.is4 = p.addr.is4
  start : hostAddress p s.start = true
  endAddr : hostAddress p s.endAddr = true
  router : s.is6 = false → hostAddress p s.router = true
  ordered : ∃ first last, parseAddr s.start = some first ∧ parseAddr s.endAddr = some last ∧
    first.le last = true ∧ poolWithin 65536 first last = true
  leaseAtLeast : 60 ≤ s.leaseSeconds
  leaseAtMost : s.leaseSeconds ≤ 604800
  pool : ∀ pd, s.pd = some pd → s.is6 = true ∧ ∃ pool, PoolFacts pd pool
  reservations : ∀ r ∈ s.reservations, validClient r.client = true ∧ hostAddress p r.address = true ∧
    r.address ≠ s.server ∧ r.address ≠ s.router
  reservedOnce : (s.reservations.map (·.address)).Nodup

/-! ### One lemma for each check -/

theorem validateSubnet_ok (h : validateSubnet seen s = .ok p) :
    parsePrefix s.subnet = some p ∧ p = p.masked ∧ seen.prefixes.any p.overlaps = false := by
  unfold validateSubnet at h
  cases hp : parsePrefix s.subnet with
  | none => simp [hp] at h
  | some =>
    simp only [hp, bind_eq_ok, refuseIf_eq_ok, exists_const, pure_eq_ok, Bool.or_eq_false_iff,
      decide_eq_false_iff_not, not_not] at h
    obtain ⟨⟨⟨⟨⟨hmasked, -⟩, -⟩, -⟩, -⟩, hoverlap, rfl⟩ := h
    exact ⟨rfl, hmasked, hoverlap⟩

theorem validateSelector_ok {selector : String} (h : validateSelector s p = .ok selector) :
    ∃ a, parseAddr s.server = some a ∧ a.zone = "" ∧ a.is4 = p.addr.is4 := by
  unfold validateSelector at h
  cases ha : parseAddr s.server with
  | none => simp [ha] at h
  | some a =>
    simp only [ha, bind_eq_ok, refuseIf_eq_ok, exists_const, Bool.or_eq_false_iff,
      decide_eq_false_iff_not, not_not] at h
    obtain ⟨⟨⟨⟨-, -⟩, hfamily⟩, hzone⟩, -⟩ := h
    exact ⟨a, rfl, hzone, hfamily⟩

theorem validatePool_ok (h : validatePool s p = .ok ()) :
    hostAddress p s.start = true ∧ hostAddress p s.endAddr = true ∧
      (s.is6 = false → hostAddress p s.router = true) ∧
      ∃ first last, parseAddr s.start = some first ∧ parseAddr s.endAddr = some last ∧
        first.le last = true ∧ poolWithin 65536 first last = true := by
  unfold validatePool at h
  cases hfirst : parseAddr s.start with
  | none => simp [hfirst] at h
  | some first =>
    cases hlast : parseAddr s.endAddr with
    | none => simp [hfirst, hlast] at h
    | some last =>
      simp only [hfirst, hlast, bind_eq_ok, refuseIf_eq_ok, exists_const, Bool.or_eq_false_iff,
        Bool.not_eq_false', Bool.and_eq_false_iff] at h
      obtain ⟨⟨⟨hstart, hend⟩, hrouter⟩, hle, hwithin⟩ := h
      refine ⟨hstart, hend, ?_, first, last, rfl, rfl, hle, hwithin⟩
      intro h4
      rcases hrouter with h | h
      · simp [h4] at h
      · simpa using h

theorem validateTimes_ok (h : validateTimes s p = .ok ()) : 60 ≤ s.leaseSeconds ∧ s.leaseSeconds ≤ 604800 := by
  simp only [validateTimes, bind_eq_ok, refuseIf_eq_ok, exists_const, Bool.or_eq_false_iff,
    decide_eq_false_iff_not, not_lt] at h
  exact h.1

theorem validatePD_ok {pools : List (Prefix × String)} (h : validatePD seen s p = .ok pools) :
    ∀ pd, s.pd = some pd → s.is6 = true ∧ ∃ pool, PoolFacts pd pool := by
  intro pd hpd
  unfold validatePD at h
  rw [hpd] at h
  cases hpool : parsePrefix pd.pool with
  | none => simp [hpool] at h
  | some pool =>
    simp only [hpool, bind_eq_ok, refuseIf_eq_ok, exists_const, Bool.or_eq_false_iff,
      decide_eq_false_iff_not, not_not, Bool.not_eq_false', not_le, not_lt] at h
    obtain ⟨h6, ⟨⟨hmasked, his6⟩, -⟩, ⟨⟨⟨hlonger, hmost⟩, hdepth⟩, hleast⟩, -⟩ := h
    exact ⟨h6, pool, hpool, hmasked, his6, hlonger, hleast, hmost, hdepth⟩

theorem validateReservation_ok {seen seen' : List String × List String} {r : Reservation}
    (h : validateReservation devices s p seen r = .ok seen') :
    validClient r.client = true ∧ hostAddress p r.address = true ∧ r.address ≠ s.server ∧
      r.address ≠ s.router := by
  simp only [validateReservation, bind_eq_ok, refuseIf_eq_ok, exists_const, Bool.or_eq_false_iff,
    decide_eq_false_iff_not, Bool.not_eq_false'] at h
  obtain ⟨⟨⟨⟨⟨⟨⟨hclient, haddr⟩, hserver⟩, hrouter⟩, -⟩, -⟩, -⟩, -⟩ := h
  exact ⟨hclient, haddr, hserver, hrouter⟩

/-- No two reservations of a scope have the same address text. -/
theorem validateReservations_nodup {rs : List Reservation} {seen seen' : List String × List String}
    (h : rs.foldlM (validateReservation devices s p) seen = .ok seen') : (rs.map (·.address)).Nodup := by
  have hstep : ∀ {seen seen' r}, validateReservation devices s p seen r = .ok seen' →
      r.address ∉ seen.2 ∧ seen'.2 = r.address :: seen.2 := by
    intro seen seen' r h
    simp only [validateReservation, bind_eq_ok, refuseIf_eq_ok, exists_const,
      Bool.or_eq_false_iff, decide_eq_false_iff_not, pure_eq_ok] at h
    obtain ⟨⟨-, hnew⟩, -, rfl⟩ := h
    exact ⟨hnew, rfl⟩
  refine pairwise_map.mpr (foldlM_pairwise (fun h => (hstep h).1) (fun h hy => ?_) h).1
  rw [(hstep h).2, mem_cons, not_or] at hy
  exact hy.imp_left Ne.symm

/-! ### The pass -/

theorem discard_eq_ok {α : Type} {x : Except String α} {u : Unit} :
    discard x = .ok u ↔ ∃ a, x = .ok a := by
  show (Function.const α ()) <$> x = .ok u ↔ _
  simp

theorem validateScope_ok {seen' : SeenScopes} (h : validateScope devices seen s = .ok seen') :
    ∃ p, ScopeFacts s p := by
  simp only [validateScope, bind_eq_ok, refuseIf_eq_ok, exists_const, discard_eq_ok,
    Bool.or_eq_false_iff, Bool.not_eq_false'] at h
  obtain ⟨⟨⟨hlabel, -⟩, -⟩, p, hsubnet, selector, hselector, -, ⟨⟩, hpool, ⟨⟩, htimes, ⟨⟩, -, pools,
    hpd, ⟨⟩, -, ⟨⟩, -, hreservations, -⟩ := h
  obtain ⟨hsub, hmasked, -⟩ := validateSubnet_ok hsubnet
  obtain ⟨hstart, hend, hrouter, hordered⟩ := validatePool_ok hpool
  obtain ⟨hleast, hmost⟩ := validateTimes_ok htimes
  obtain ⟨seenR, hreservations⟩ := hreservations
  refine ⟨p, hlabel, hsub, hmasked, validateSelector_ok hselector, hstart, hend, hrouter, hordered,
    hleast, hmost, validatePD_ok hpd, ?_, validateReservations_nodup hreservations⟩
  intro r hr
  obtain ⟨s1, s2, hr'⟩ := foldlM_mem hreservations r hr
  exact validateReservation_ok hr'

/-! ### What a scope claims -/

/-- What has been seen, with what was seen before. -/
def withSeen (one seen : SeenScopes) : SeenScopes where
  ids := one.ids ++ seen.ids
  selectors := one.selectors ++ seen.selectors
  zones := one.zones ++ seen.zones
  prefixes := one.prefixes ++ seen.prefixes
  pdPools := one.pdPools ++ seen.pdPools

/-- The comparisons of what is new with what has been seen. -/
structure After (seen one : SeenScopes) : Prop where
  ids : ∀ i ∈ one.ids, i ∉ seen.ids
  selectors : ∀ i ∈ one.selectors, i ∉ seen.selectors
  zones : ∀ z ∈ one.zones, ∀ z' ∈ seen.zones, endsWith z' ("." ++ z) = false ∧ endsWith z ("." ++ z') = false
  prefixes : ∀ p ∈ one.prefixes, ∀ p' ∈ seen.prefixes, p.overlaps p' = false
  poolPrefixes : ∀ pool ∈ one.pdPools, ∀ p' ∈ seen.prefixes, pool.1.overlaps p' = false
  pools : ∀ pool ∈ one.pdPools, ∀ pool' ∈ seen.pdPools, pool.1.overlaps pool'.1 = false

theorem after_withSeen : After (withSeen one seen) next ↔ After one next ∧ After seen next := by
  constructor
  · intro h
    exact ⟨⟨fun i hi hm => h.ids i hi (mem_append_left _ hm),
        fun i hi hm => h.selectors i hi (mem_append_left _ hm),
        fun z hz z' hz' => h.zones z hz z' (mem_append_left _ hz'),
        fun p hp p' hp' => h.prefixes p hp p' (mem_append_left _ hp'),
        fun p hp p' hp' => h.poolPrefixes p hp p' (mem_append_left _ hp'),
        fun p hp p' hp' => h.pools p hp p' (mem_append_left _ hp')⟩,
      ⟨fun i hi hm => h.ids i hi (mem_append_right _ hm),
        fun i hi hm => h.selectors i hi (mem_append_right _ hm),
        fun z hz z' hz' => h.zones z hz z' (mem_append_right _ hz'),
        fun p hp p' hp' => h.prefixes p hp p' (mem_append_right _ hp'),
        fun p hp p' hp' => h.poolPrefixes p hp p' (mem_append_right _ hp'),
        fun p hp p' hp' => h.pools p hp p' (mem_append_right _ hp')⟩⟩
  · intro h
    obtain ⟨h1, h2⟩ := h
    refine ⟨?_, ?_, ?_, ?_, ?_, ?_⟩
    · intro i hi hm
      exact (mem_append.mp hm).elim (h1.ids i hi) (h2.ids i hi)
    · intro i hi hm
      exact (mem_append.mp hm).elim (h1.selectors i hi) (h2.selectors i hi)
    · intro z hz z' hz'
      exact (mem_append.mp hz').elim (h1.zones z hz z') (h2.zones z hz z')
    · intro p hp p' hp'
      exact (mem_append.mp hp').elim (h1.prefixes p hp p') (h2.prefixes p hp p')
    · intro p hp p' hp'
      exact (mem_append.mp hp').elim (h1.poolPrefixes p hp p') (h2.poolPrefixes p hp p')
    · intro p hp p' hp'
      exact (mem_append.mp hp').elim (h1.pools p hp p') (h2.pools p hp p')

theorem after_empty (one : SeenScopes) : After {} one where
  ids _ _ hm := by cases hm
  selectors _ _ hm := by cases hm
  zones _ _ _ hm := by cases hm
  prefixes _ _ _ hm := by cases hm
  poolPrefixes _ _ _ hm := by cases hm
  pools _ _ _ hm := by cases hm

/-! ### One scope after others -/

theorem validateSubnet_iff : validateSubnet seen s = .ok p ↔
      validateSubnet {} s = .ok p ∧ ∀ q ∈ seen.prefixes, p.overlaps q = false := by
  unfold validateSubnet
  cases hp : parsePrefix s.subnet with
  | none => simp
  | some =>
    simp only [bind_eq_ok, refuseIf_eq_ok, exists_const, pure_eq_ok, any_nil, true_and]
    constructor
    · intro h
      obtain ⟨hlocal, hclear, rfl⟩ := h
      exact ⟨⟨hlocal, rfl⟩, fun q hq => by simpa using any_eq_false.mp hclear q hq⟩
    · intro h
      obtain ⟨⟨hlocal, rfl⟩, hclear⟩ := h
      exact ⟨hlocal, any_eq_false.mpr fun q hq => by simp [hclear q hq], rfl⟩

theorem validateZone_iff : validateZone seen s = .ok () ↔ validateZone {} s = .ok () ∧
      ∀ z ∈ seen.zones, endsWith z ("." ++ s.zone) = false ∧ endsWith s.zone ("." ++ z) = false := by
  simp only [validateZone, bind_eq_ok, refuseIf_eq_ok, exists_const, any_nil, and_true,
    any_eq_false, Bool.or_eq_true, not_or, Bool.not_eq_true]

theorem validatePD_iff {pools : List (Prefix × String)} :
    validatePD seen s p = .ok pools ↔ ∃ own, validatePD {} s p = .ok own ∧ pools = own ++ seen.pdPools ∧
      ∀ pool ∈ own, (∀ q ∈ seen.prefixes, pool.1.overlaps q = false) ∧
        ∀ prior ∈ seen.pdPools, pool.1.overlaps prior.1 = false := by
  unfold validatePD
  cases hpd : s.pd with
  | none =>
    simp only [pure_eq_ok]
    constructor
    · intro h
      exact ⟨[], rfl, h.symm, by simp⟩
    · intro h
      obtain ⟨own, rfl, hpools, -⟩ := h
      exact hpools.symm
  | some pd =>
    cases hpool : parsePrefix pd.pool with
    | none => simp [hpool]
    | some pool =>
      simp only [hpool, bind_eq_ok, refuseIf_eq_ok, exists_const, any_nil, true_and,
        List.find?_nil, pure_eq_ok]
      cases hfind : seen.pdPools.find? fun prior => pool.overlaps prior.1 with
      | some prior =>
        simp only [throw_eq_ok, and_false, false_iff, not_exists]
        rintro own ⟨⟨-, -, -, -, rfl⟩, -, hclear⟩
        have hprior := (hclear (pool, s.id) mem_cons_self).2 prior (mem_of_find?_eq_some hfind)
        have hoverlap := List.find?_some hfind
        rw [hprior] at hoverlap
        cases hoverlap
      | none =>
        have hpools := List.find?_eq_none.mp hfind
        simp only [pure_eq_ok]
        constructor
        · intro h
          obtain ⟨h6, hcanonical, hlength, hown, hclear, rfl⟩ := h
          refine ⟨[(pool, s.id)], ⟨h6, hcanonical, hlength, hown, rfl⟩, rfl, ?_⟩
          intro x hx
          rw [mem_singleton.mp hx]
          exact ⟨fun q hq => by simpa using any_eq_false.mp hclear q hq,
            fun prior hprior => by simpa using hpools prior hprior⟩
        · intro h
          obtain ⟨own, ⟨h6, hcanonical, hlength, hown, rfl⟩, rfl, hclear⟩ := h
          have hfirst := hclear (pool, s.id) mem_cons_self
          exact ⟨h6, hcanonical, hlength, hown,
            any_eq_false.mpr fun q hq => by simp [hfirst.1 q hq], rfl⟩

/-- A scope is accepted after others when it is accepted alone and the comparisons hold. -/
theorem validateScope_iff {seen' : SeenScopes} : validateScope devices seen s = .ok seen' ↔
      ∃ one, validateScope devices {} s = .ok one ∧ After seen one ∧ seen' = withSeen one seen := by
  simp only [validateScope, bind_eq_ok, refuseIf_eq_ok, exists_const, discard_eq_ok, pure_eq_ok,
    Bool.or_eq_false_iff, decide_eq_false_iff_not, not_mem_nil, not_false_eq_true, and_true, true_and]
  constructor
  · intro h
    obtain ⟨⟨⟨hlabel, hid⟩, hinterface⟩, p, hsubnet, selector, hselector, hnew, ⟨⟩, hpool, ⟨⟩, htimes, ⟨⟩,
      hoptions, pools, hpd, ⟨⟩, hboot, ⟨⟩, hzone, hreservations, rfl⟩ := h
    obtain ⟨hsubnet, hprefixes⟩ := validateSubnet_iff.mp hsubnet
    obtain ⟨own, hown, rfl, hpools⟩ := validatePD_iff.mp hpd
    obtain ⟨hzone, hzones⟩ := validateZone_iff.mp hzone
    refine ⟨⟨[s.id], [selector], [s.zone], [p], own⟩, ⟨⟨hlabel, hinterface⟩, p, hsubnet, selector, hselector,
      (), hpool, (), htimes, (), hoptions, own, hown, (), hboot, (), hzone, hreservations, rfl⟩, ?_, rfl⟩
    refine ⟨?_, ?_, ?_, ?_, ?_, ?_⟩
    · simpa using hid
    · simpa using hnew
    · simpa using hzones
    · simpa using hprefixes
    · exact fun pool hpool => (hpools pool hpool).1
    · exact fun pool hpool => (hpools pool hpool).2
  · intro h
    obtain ⟨one, ⟨⟨hlabel, hinterface⟩, p, hsubnet, selector, hselector, ⟨⟩, hpool, ⟨⟩, htimes, ⟨⟩, hoptions,
      own, hpd, ⟨⟩, hboot, ⟨⟩, hzone, hreservations, rfl⟩, hafter, rfl⟩ := h
    refine ⟨⟨⟨hlabel, by simpa using hafter.ids⟩, hinterface⟩, p,
      validateSubnet_iff.mpr ⟨hsubnet, by simpa using hafter.prefixes⟩, selector, hselector,
      by simpa using hafter.selectors, (), hpool, (), htimes, (), hoptions, own ++ seen.pdPools,
      validatePD_iff.mpr ⟨own, hpd, rfl, fun pool hpool =>
        ⟨hafter.poolPrefixes pool hpool, hafter.pools pool hpool⟩⟩,
      (), hboot, (), validateZone_iff.mpr ⟨hzone, by simpa using hafter.zones⟩, hreservations, rfl⟩

/-! ### The pass over the scopes -/

/-- The second scope is accepted after the first. -/
def Follows (devices : List String) (s t : Scope) : Prop :=
  ∀ one next, validateScope devices {} s = .ok one → validateScope devices {} t = .ok next → After one next

/-- A list of scopes is accepted when each is accepted alone, and after those before it. -/
theorem accepted_iff {scopes : List Scope} : (∃ seen', scopes.foldlM (validateScope devices) seen = .ok seen') ↔
      (∀ s ∈ scopes, ∃ one, validateScope devices {} s = .ok one ∧ After seen one) ∧
        scopes.Pairwise (Follows devices) := by
  induction scopes generalizing seen with
  | nil => simp [pure, Except.pure]
  | cons s scopes ih =>
    rw [pairwise_cons, forall_mem_cons]
    constructor
    · intro h
      obtain ⟨seen', h⟩ := h
      rw [foldlM_cons, bind_eq_ok] at h
      obtain ⟨seen1, hs, hrest⟩ := h
      obtain ⟨one, hone, hafter, rfl⟩ := validateScope_iff.mp hs
      obtain ⟨heach, hpairs⟩ := ih.mp ⟨seen', hrest⟩
      refine ⟨⟨⟨one, hone, hafter⟩, ?_⟩, ?_, hpairs⟩
      · intro t ht
        obtain ⟨next, hnext, hboth⟩ := heach t ht
        exact ⟨next, hnext, (after_withSeen.mp hboth).2⟩
      · intro t ht one' next hone' hnext
        obtain ⟨next', hnext', hboth⟩ := heach t ht
        rw [hone, Except.ok.injEq] at hone'
        rw [hnext', Except.ok.injEq] at hnext
        rw [← hone', ← hnext]
        exact (after_withSeen.mp hboth).1
    · intro h
      obtain ⟨⟨⟨one, hone, hafter⟩, heach⟩, hfollows, hpairs⟩ := h
      obtain ⟨seen', hrest⟩ := ih.mpr ⟨fun t ht => by
        obtain ⟨next, hnext, hseen⟩ := heach t ht
        exact ⟨next, hnext, after_withSeen.mpr ⟨hfollows t ht one next hone hnext, hseen⟩⟩, hpairs⟩
      refine ⟨seen', ?_⟩
      rw [foldlM_cons, bind_eq_ok]
      exact ⟨withSeen one seen, validateScope_iff.mpr ⟨one, hone, hafter, rfl⟩, hrest⟩

/-- A configuration is accepted when its devices are, and its scopes by themselves and one after the other. -/
theorem validate_iff :
    c.validate = .ok () ↔ ∃ seen, c.devices.foldlM validateDevice {} = .ok seen ∧ validateTFTP c.tftp = .ok () ∧
      (∀ s ∈ c.scopes, ∃ one, validateScope seen.ids {} s = .ok one) ∧
      c.scopes.Pairwise (Follows seen.ids) := by
  simp only [Config.validate, bind_eq_ok, discard_eq_ok, accepted_iff]
  constructor
  · intro h
    obtain ⟨seen, hdevices, ⟨⟩, htftp, heach, hpairs⟩ := h
    exact ⟨seen, hdevices, htftp, fun s hs => (heach s hs).imp fun _ h => h.1, hpairs⟩
  · intro h
    obtain ⟨seen, hdevices, htftp, heach, hpairs⟩ := h
    exact ⟨seen, hdevices, (), htftp, fun s hs => (heach s hs).imp fun one h => ⟨h, after_empty one⟩, hpairs⟩

/-- Every scope of an accepted configuration is accepted by itself. -/
theorem accepted_of_validate (h : c.validate = .ok ()) (hs : s ∈ c.scopes) :
    ∃ seen one, c.devices.foldlM validateDevice {} = .ok seen ∧ validateScope seen.ids {} s = .ok one := by
  obtain ⟨seen, hdevices, -, heach, -⟩ := validate_iff.mp h
  obtain ⟨one, hone⟩ := heach s hs
  exact ⟨seen, one, hdevices, hone⟩

/-- What a scope that is accepted by itself has claimed. -/
theorem claims_of_validateScope (h : validateScope devices {} s = .ok one) :
    ∃ p selector pools, parsePrefix s.subnet = some p ∧ validateSelector s p = .ok selector ∧
      validatePD {} s p = .ok pools ∧ one = ⟨[s.id], [selector], [s.zone], [p], pools⟩ := by
  simp only [validateScope, bind_eq_ok, refuseIf_eq_ok, exists_const, discard_eq_ok, pure_eq_ok] at h
  obtain ⟨-, p, hsubnet, selector, hselector, -, ⟨⟩, -, ⟨⟩, -, ⟨⟩, -, pools, hpd, ⟨⟩, -, ⟨⟩, -, -, rfl⟩ := h
  exact ⟨p, selector, pools, (validateSubnet_ok hsubnet).1, hselector, hpd, rfl⟩

/-- What two scopes do not have in common, whichever comes first. -/
structure Apart (s t : Scope) : Prop where
  ids : s.id ≠ t.id
  selectors : ∀ p q x, parsePrefix s.subnet = some p → parsePrefix t.subnet = some q →
    validateSelector s p = .ok x → validateSelector t q ≠ .ok x
  zones : endsWith s.zone ("." ++ t.zone) = false ∧ endsWith t.zone ("." ++ s.zone) = false
  subnets : ∀ p q, parsePrefix s.subnet = some p → parsePrefix t.subnet = some q → p.overlaps q = false

theorem Apart.symm {t : Scope} (h : Apart s t) : Apart t s where
  ids := h.ids.symm
  selectors p q x hp hq hx hx' := h.selectors q p x hq hp hx' hx
  zones := h.zones.symm
  subnets p q hp hq := by rw [Prefix.overlaps_comm, h.subnets q p hq hp]

/-- The scopes of an accepted configuration are apart. -/
theorem pairwise_apart (h : c.validate = .ok ()) : c.scopes.Pairwise Apart := by
  obtain ⟨seen, -, -, heach, hpairs⟩ := validate_iff.mp h
  refine hpairs.imp_of_mem ?_
  intro s t hs ht hfollows
  obtain ⟨one, hone⟩ := heach s hs
  obtain ⟨next, hnext⟩ := heach t ht
  have hafter := hfollows one next hone hnext
  obtain ⟨p, selector, pools, hp, hselector, -, rfl⟩ := claims_of_validateScope hone
  obtain ⟨q, selector', pools', hq, hselector', -, rfl⟩ := claims_of_validateScope hnext
  have hnew : selector' ≠ selector := by simpa using hafter.selectors selector' mem_cons_self
  refine ⟨?_, ?_, hafter.zones t.zone mem_cons_self s.zone mem_cons_self, ?_⟩
  · have hids : t.id ≠ s.id := by simpa using hafter.ids t.id mem_cons_self
    exact hids.symm
  · intro p' q' x hp' hq' hx hx'
    rw [hp, Option.some.injEq] at hp'
    rw [hq, Option.some.injEq] at hq'
    rw [← hp', hselector, Except.ok.injEq] at hx
    rw [← hq', hselector', Except.ok.injEq] at hx'
    exact hnew (hx'.trans hx.symm)
  · intro p' q' hp' hq'
    rw [hp, Option.some.injEq] at hp'
    rw [hq, Option.some.injEq] at hq'
    rw [← hp', ← hq', Prefix.overlaps_comm]
    exact hafter.prefixes q mem_cons_self p mem_cons_self

theorem apart (h : c.validate = .ok ()) {t : Scope} (hs : s ∈ c.scopes) (ht : t ∈ c.scopes) (hne : s ≠ t) :
    Apart s t :=
  have : Std.Symm Apart := ⟨fun _ _ hst => hst.symm⟩
  (pairwise_apart h).forall hs ht hne

/-- Every scope of an accepted configuration has passed every check. -/
theorem scopeFacts_of_validate (h : c.validate = .ok ()) (hs : s ∈ c.scopes) : ∃ p, ScopeFacts s p := by
  obtain ⟨seen, one, -, hone⟩ := accepted_of_validate h hs
  exact validateScope_ok hone

/-- An accepted extra option has a code that the server does not set itself. -/
theorem optionCode_of_validate (h : c.validate = .ok ()) (hs : s ∈ c.scopes) {o : DHCPOption}
    (ho : o ∈ s.options) : 1 ≤ o.code ∧ o.code ≤ 254 ∧ o.code ∉ reservedOptionCodes := by
  obtain ⟨seen, one, -, hone⟩ := accepted_of_validate h hs
  simp only [validateScope, bind_eq_ok, refuseIf_eq_ok, exists_const, discard_eq_ok] at hone
  obtain ⟨-, p, -, selector, -, -, ⟨⟩, -, ⟨⟩, -, ⟨⟩, hoptions, -⟩ := hone
  have hsome : s.dnsServers.length > 0 ∨ s.options.length > 0 := Or.inr (length_pos_of_mem ho)
  simp only [validateOptions, if_pos hsome, bind_eq_ok, discard_eq_ok] at hoptions
  obtain ⟨⟨⟩, -, ⟨⟩, -, ⟨⟩, -, codes, hcodes⟩ := hoptions
  obtain ⟨codes1, codes2, ho'⟩ := foldlM_mem hcodes o ho
  simp only [validateOption, bind_eq_ok] at ho'
  obtain ⟨⟨⟩, hvalid, -⟩ := ho'
  cases hcheck : o.validate with
  | error =>
    rw [hcheck] at hvalid
    cases hvalid
  | ok =>
    simp only [DHCPOption.validate, bind_eq_ok, refuseIf_eq_ok, exists_const, Bool.or_eq_false_iff,
      decide_eq_false_iff_not, not_lt] at hcheck
    exact ⟨hcheck.1.1.1, hcheck.1.1.2, hcheck.1.2⟩

/-- A scope of an accepted configuration is found by its identifier. -/
theorem scope_of_mem (h : c.validate = .ok ()) (hs : s ∈ c.scopes) : c.scope s.id = some s := by
  cases hfind : c.scope s.id with
  | none =>
    have hnone := List.find?_eq_none.mp hfind s hs
    simp at hnone
  | some s' =>
    have hmem : s' ∈ c.scopes := mem_of_find?_eq_some hfind
    have hid : s'.id = s.id := by simpa using List.find?_some hfind
    by_contra hne
    exact (apart h hmem hs fun heq => hne (congrArg some heq)).ids hid

/-- Every device of an accepted configuration has labels for its name and identifier. -/
theorem labels_of_device (h : c.validate = .ok ()) {d : DeviceConfig} (hd : d ∈ c.devices) :
    labelPattern d.id = true ∧ labelPattern d.name = true := by
  simp only [Config.validate, bind_eq_ok] at h
  obtain ⟨seen, hdevices, -⟩ := h
  obtain ⟨s1, s2, hd'⟩ := foldlM_mem hdevices d hd
  simp only [validateDevice, bind_eq_ok, refuseIf_eq_ok, exists_const, Bool.or_eq_false_iff,
    Bool.not_eq_false'] at hd'
  exact ⟨hd'.1.1.1.1.1, hd'.1.1.1.1.2⟩

/-- The device of a reservation is declared. -/
theorem device_of_reservation (h : c.validate = .ok ()) (hs : s ∈ c.scopes) {r : Reservation}
    (hr : r ∈ s.reservations) : ∃ d ∈ c.devices, c.device r.device = some d := by
  obtain ⟨seen, one, hdevices, hone⟩ := accepted_of_validate h hs
  simp only [validateScope, bind_eq_ok, refuseIf_eq_ok, exists_const, discard_eq_ok] at hone
  obtain ⟨-, p, -, selector, -, -, ⟨⟩, -, ⟨⟩, -, ⟨⟩, -, pools, -, ⟨⟩, -, ⟨⟩, -, ⟨seenR, hrs⟩, -⟩ := hone
  obtain ⟨r1, r2, hr'⟩ := foldlM_mem hrs r hr
  simp only [validateReservation, bind_eq_ok, refuseIf_eq_ok, exists_const, Bool.or_eq_false_iff,
    decide_eq_false_iff_not, not_not] at hr'
  have hknown : r.device ∈ seen.ids := hr'.1.1.1.2
  -- The identifiers the first pass has seen are those of the devices.
  have hids : ∀ id ∈ seen.ids, ∃ d ∈ c.devices, d.id = id := by
    refine foldlM_invariant (I := fun seen : SeenDevices => ∀ id ∈ seen.ids, ∃ d ∈ c.devices, d.id = id)
      ?_ (by simp) hdevices
    intro d hd seen1 seen2 h1 hstep
    simp only [validateDevice, bind_eq_ok, refuseIf_eq_ok, exists_const, pure_eq_ok] at hstep
    obtain ⟨-, names, -, nodes, -, rfl⟩ := hstep
    intro id hid
    rcases mem_cons.mp hid with rfl | hid
    · exact ⟨d, hd, rfl⟩
    · exact h1 id hid
  obtain ⟨d, hd, hid⟩ := hids r.device hknown
  cases hfind : c.device r.device with
  | some d' => exact ⟨d', mem_of_find?_eq_some hfind, rfl⟩
  | none =>
    have hnone := List.find?_eq_none.mp hfind d hd
    simp [hid] at hnone

theorem mem_of_scope {id : String} (h : c.scope id = some s) : s ∈ c.scopes ∧ s.id = id :=
  ⟨mem_of_find?_eq_some h, by simpa using List.find?_some h⟩

/-- A label has no slash. -/
theorem slash_not_mem_label {s : String} (h : labelPattern s = true) : '/' ∉ s.toList := by
  intro hmem
  simp only [labelPattern, Bool.and_eq_true, all_eq_true] at h
  exact absurd (h.1.1.1.1 '/' hmem) (by decide)

end Ghostd.Proofs.Addressbook
