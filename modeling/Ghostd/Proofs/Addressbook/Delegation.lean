import Mathlib.Data.Nat.Digits.Defs
import Ghostd.Addressbook.Manager
import Ghostd.Lib.NetipRange
import Ghostd.Proofs.Addressbook.Tenure

/-!
# `Ghostd.Proofs.Addressbook.Delegation`: delegated prefixes and the pool they come from

The walk through a pool tries every prefix of it once, in order (`prefixAt_enumerates`): the loop over the
bytes of an address adds, and nothing that it carries is lost.

`AllocatePrefix` asks whether a prefix is free at its own key: the scope and the text of the
prefix. That keeps prefixes of one pool and one length apart, since such prefixes are equal or
have no address in common. `Manager.Apply` does not look at delegations, so the pool and the
length can change under them, and then the key says nothing about the prefixes that overlap.

`delegations_apart` proves that the delegations of different clients are disjoint in every run
in which a new prefix is only chosen while every delegation of somebody else has the scope and
the length of the pool or lies outside of it. `delegation_inside_another` is a run of the
program in which one does not.

A client that holds a prefix is given that prefix again, whatever the pool is by then.
`delegated_from_pool_iff` says when a returned prefix is one of the pool: when the client holds
none, or holds one of the pool. `renewed_outside_pool` is a run in which it holds another one.
-/

set_option autoImplicit false

namespace Ghostd.Proofs.Addressbook

open Ghostd.Lib Ghostd.Addressbook List

variable {now : Int} {L : Ledger} {m : Manager} {pool : Prefix} {b : Binding} {client : String}

/-! ### The prefixes of a pool -/

theorem ofLowBytes_eq (bytes : List Nat) : ofLowBytes bytes = Nat.ofDigits 256 bytes := by
  induction bytes with
  | nil => rfl
  | cons b rest ih =>
    rw [Nat.ofDigits_cons, ← ih]
    show ofLowBytes rest * 256 + b = _
    simp [Nat.mul_comm, Nat.add_comm]

/-- The value of the lowest `m` bytes of a number. -/
theorem ofDigits_range (n m : Nat) :
    Nat.ofDigits 256 ((List.range m).map fun i => n / 256 ^ i % 256) = n % 256 ^ m := by
  induction m with
  | zero => simp [Nat.mod_one]
  | succ m ih =>
    rw [range_succ, map_append, Nat.ofDigits_append, ih, length_map,
      length_range, map_singleton, Nat.ofDigits_singleton, Nat.mod_pow_succ]

theorem take_lowBytes (n k : Nat) (hk : k ≤ 16) :
    Nat.ofDigits 256 ((lowBytes n).take k) = n % 256 ^ k := by
  unfold lowBytes
  rw [← map_take, take_range, Nat.min_eq_left hk, ofDigits_range]

theorem drop_lowBytes (n k : Nat) :
    (lowBytes n).drop k = (List.range (16 - k)).map fun i => n / 256 ^ k / 256 ^ i % 256 := by
  unfold lowBytes
  refine ext_getElem (by simp) ?_
  intro i h1 h2
  simp only [getElem_drop, getElem_map, getElem_range]
  rw [Nat.div_div_eq_div_mul, ← Nat.pow_add]

/-- The loop adds the carry, as far as the bytes go. -/
theorem ofDigits_addCarry (carry : Nat) (bytes : List Nat) (h : ∀ b ∈ bytes, b < 256) :
    Nat.ofDigits 256 (addCarry carry bytes) = (Nat.ofDigits 256 bytes + carry) % 256 ^ bytes.length := by
  induction bytes generalizing carry with
  | nil => simp [addCarry, Nat.mod_one]
  | cons b rest ih =>
    have hrest : ∀ b ∈ rest, b < 256 := fun b hb => h b (mem_cons_of_mem _ hb)
    have hb : b < 256 := h b mem_cons_self
    rw [addCarry]
    split
    · rename_i hzero
      rw [hzero, Nat.add_zero, Nat.mod_eq_of_lt (Nat.ofDigits_lt_base_pow_length (by decide) h)]
    · simp only [Nat.ofDigits_cons, ih _ hrest, length_cons]
      -- The lowest byte of the sum, and what is carried out of it.
      have hlow : (b + 256 * Nat.ofDigits 256 rest + carry) % 256 = (b + carry % 256) % 256 := by
        omega
      have hhigh : (b + 256 * Nat.ofDigits 256 rest + carry) / 256 =
          Nat.ofDigits 256 rest + (carry / 256 + (b + carry % 256) / 256) := by
        omega
      rw [Nat.pow_succ, Nat.mul_comm (256 ^ rest.length), Nat.mod_mul, hlow, hhigh]

/-- The `i`-th prefix starts `i` times its size behind the pool. -/
theorem prefixAt_value {length i : Nat} (hlength : length ≤ 128)
    (hfit : pool.addr.value + i * 2 ^ (128 - length) < 2 ^ 128) :
    (prefixAt pool length i).addr.value = pool.addr.value + i * 2 ^ (128 - length) := by
  generalize hn : pool.addr.value = n at hfit
  have hk : (128 - length) / 8 ≤ 16 := by omega
  have hshift : 2 ^ (128 - length) = 256 ^ ((128 - length) / 8) * 2 ^ ((128 - length) % 8) := by
    rw [show (256 : Nat) = 2 ^ 8 from rfl, ← Nat.pow_mul, ← Nat.pow_add]
    congr 1
    omega
  have htop : 256 ^ ((128 - length) / 8) * 256 ^ (16 - (128 - length) / 8) = 2 ^ 128 := by
    rw [← Nat.pow_add, show (2 : Nat) ^ 128 = 256 ^ 16 from rfl]
    congr 1
    omega
  unfold prefixAt
  simp only [Addr.ofValue, ofLowBytes_eq, hn]
  rw [hshift] at hfit ⊢
  generalize (128 - length) / 8 = k at hk htop hfit
  generalize (128 - length) % 8 = r at hfit
  rw [Nat.ofDigits_append, take_lowBytes n k hk, drop_lowBytes, Nat.shiftLeft_eq,
    ofDigits_addCarry _ _ (by
      intro b hb
      obtain ⟨j, -, rfl⟩ := mem_map.mp hb
      exact Nat.mod_lt _ (by decide)),
    ofDigits_range]
  have hlen : ((lowBytes n).take k).length = k := by simp [lowBytes, hk]
  rw [hlen, length_map, length_range]
  have hsplit := Nat.mod_add_div n (256 ^ k)
  have hpos : 0 < 256 ^ k := Nat.pow_pos (by decide)
  have hsum : 256 ^ k * (n / 256 ^ k + i * 2 ^ r) + n % 256 ^ k = n + i * (256 ^ k * 2 ^ r) := by
    rw [Nat.mul_add]
    have : 256 ^ k * (i * 2 ^ r) = i * (256 ^ k * 2 ^ r) := by ring
    omega
  have hlt : n / 256 ^ k + i * 2 ^ r < 256 ^ (16 - k) := by
    refine Nat.lt_of_mul_lt_mul_left (a := 256 ^ k) ?_
    rw [htop]
    omega
  have hnlt : n / 256 ^ k < 256 ^ (16 - k) := by omega
  rw [Nat.mod_eq_of_lt hnlt, Nat.mod_eq_of_lt hlt, show Family.v6.bits = 128 from rfl,
    Nat.mod_eq_of_lt (by omega)]
  omega

section Pool

variable {pd : PDConfig} (h : PoolFacts pd pool)

include h

theorem pool_size : pool.size = poolSize pool pd.length.toNat * 2 ^ (128 - pd.length.toNat) := by
  have hlonger := h.longer
  have hmost := h.atMost
  have hfamily : pool.addr.family = .v6 := by simpa [Addr.is6] using h.is6
  unfold Prefix.size poolSize
  rw [hfamily, show Family.v6.bits = 128 from rfl, Nat.shiftLeft_eq, Nat.one_mul, ← Nat.pow_add]
  congr 1
  omega

/-- The prefixes of the pool start one behind the other, and nothing is carried out of it. -/
theorem prefixAt_start {i : Nat} (hi : i < poolSize pool pd.length.toNat) :
    (prefixAt pool pd.length.toNat i).addr.value =
      pool.addr.value + i * 2 ^ (128 - pd.length.toNat) := by
  have hmost := h.atMost
  have hfamily : pool.addr.family = .v6 := by simpa [Addr.is6] using h.is6
  have hbits := pool.bits_le
  have hlt := pool.addr.value_lt
  rw [hfamily, show Family.v6.bits = 128 from rfl] at hbits hlt
  have hstep : i * 2 ^ (128 - pd.length.toNat) < pool.size := by
    rw [pool_size h]
    exact Nat.mul_lt_mul_of_pos_right hi (Nat.two_pow_pos _)
  have hmul := Prefix.masked_value h.masked
  have hdvd : pool.size * 2 ^ pool.bits = 2 ^ 128 := by
    unfold Prefix.size
    rw [hfamily, show Family.v6.bits = 128 from rfl, ← Nat.pow_add]
    congr 1
    omega
  have hq : pool.addr.value / pool.size < 2 ^ pool.bits := Nat.div_lt_of_lt_mul (by rw [hdvd]; exact hlt)
  have hroom : pool.addr.value / pool.size * pool.size + pool.size ≤ 2 ^ 128 := by
    calc pool.addr.value / pool.size * pool.size + pool.size
        = (pool.addr.value / pool.size + 1) * pool.size := by ring
      _ ≤ 2 ^ pool.bits * pool.size := Nat.mul_le_mul_right _ hq
      _ = 2 ^ 128 := by rw [Nat.mul_comm, hdvd]
  exact prefixAt_value (by omega) (by omega)

theorem prefixAt_size (i : Nat) : (prefixAt pool pd.length.toNat i).size = 2 ^ (128 - pd.length.toNat) := by
  have hmost := h.atMost
  unfold Prefix.size prefixAt
  simp only [Addr.ofValue, show Family.v6.bits = 128 from rfl]
  rw [Nat.min_eq_left (by omega)]

/-- Every prefix that the walk through the pool tries is one of the pool. -/
theorem inPool_prefixAt {i : Nat} (hi : i < poolSize pool pd.length.toNat) :
    inPool pool pd.length.toNat (prefixAt pool pd.length.toNat i) = true := by
  have hmost := h.atMost
  have hfamily : pool.addr.family = .v6 := by simpa [Addr.is6] using h.is6
  have hmul := Prefix.masked_value h.masked
  have hvalue := prefixAt_start h hi
  unfold inPool
  simp only [Bool.and_eq_true, decide_eq_true_eq]
  refine ⟨⟨?_, ?_⟩, Prefix.contains_iff.mpr ⟨rfl, hfamily.symm, ?_⟩⟩
  · show min pd.length.toNat 128 = pd.length.toNat
    omega
  · have hdvd : 2 ^ (128 - pd.length.toNat) ∣ (prefixAt pool pd.length.toNat i).addr.value := by
      rw [hvalue, ← hmul, pool_size h, ← Nat.mul_assoc, ← Nat.add_mul]
      exact Nat.dvd_mul_left _ _
    refine Prefix.ext' (Addr.ext' rfl ?_ rfl) rfl
    show _ = _ / (prefixAt pool pd.length.toNat i).size * (prefixAt pool pd.length.toNat i).size
    rw [prefixAt_size h, Nat.div_mul_cancel hdvd]
  · have hstep : i * 2 ^ (128 - pd.length.toNat) < pool.size := by
      rw [pool_size h]
      exact Nat.mul_lt_mul_of_pos_right hi (Nat.two_pow_pos _)
    rw [hvalue, ← hmul, Nat.mul_comm, Nat.mul_add_div pool.size_pos, Nat.div_eq_of_lt hstep,
      Nat.add_zero, Nat.mul_div_cancel_left _ pool.size_pos]

/-- Every prefix of the pool is one of those that the walk tries. -/
theorem prefixAt_of_inPool {p : Prefix} (hp : inPool pool pd.length.toNat p = true) :
    ∃ i < poolSize pool pd.length.toNat, prefixAt pool pd.length.toNat i = p := by
  have hfamily : pool.addr.family = .v6 := by simpa [Addr.is6] using h.is6
  simp only [inPool, Bool.and_eq_true, decide_eq_true_eq] at hp
  obtain ⟨⟨hbits, hmasked⟩, hcontains⟩ := hp
  obtain ⟨hzone, hfp, hnetwork⟩ := Prefix.contains_iff.mp hcontains
  have hpsize : p.size = 2 ^ (128 - pd.length.toNat) := by
    unfold Prefix.size
    rw [hfp, hfamily, hbits]
    rfl
  have hpmul := Prefix.masked_value hmasked
  have hmul := Prefix.masked_value h.masked
  have hsize := pool_size h
  rw [← hpsize] at hsize
  -- The network of the prefix is so many prefixes behind that of the pool.
  have hlow : pool.addr.value ≤ p.addr.value := by
    rw [← hmul, ← hnetwork]
    exact Nat.div_mul_le_self _ _
  have hhigh : p.addr.value < pool.addr.value + pool.size := by
    rw [← hmul, ← hnetwork]
    exact Nat.lt_div_mul_add pool.size_pos
  have hdvd : p.size ∣ p.addr.value - pool.addr.value := by
    refine Nat.dvd_sub ⟨_, (Nat.mul_comm _ _).trans hpmul |>.symm⟩ ?_
    rw [← hmul, hsize, ← Nat.mul_assoc]
    exact Nat.dvd_mul_left _ _
  obtain ⟨i, hi⟩ := hdvd
  have hlt : i < poolSize pool pd.length.toNat := by
    refine Nat.lt_of_mul_lt_mul_right (a := p.size) ?_
    rw [← hsize, Nat.mul_comm]
    omega
  refine ⟨i, hlt, Prefix.ext' (Addr.ext' (hfamily.symm.trans hfp.symm) ?_ hzone.symm) ?_⟩
  · rw [prefixAt_start h hlt, ← hpsize, Nat.mul_comm]
    omega
  · show min pd.length.toNat 128 = p.bits
    have hmost := h.atMost
    omega

end Pool

/-- The loop of the source computes in words of 64 bits. It loses none. -/
theorem addCarryWord_eq (carry : UInt64) (raw : List UInt8) :
    (addCarryWord carry raw).map UInt8.toNat = addCarry carry.toNat (raw.map UInt8.toNat) := by
  induction raw generalizing carry with
  | nil => rfl
  | cons b rest ih =>
    have hb := b.toNat_lt
    have hcarry := carry.toNat_lt
    have hlow : (carry &&& 0xff).toNat = carry.toNat % 256 := by
      rw [UInt64.toNat_and]
      exact Nat.and_two_pow_sub_one_eq_mod carry.toNat 8
    have hsum : (b.toUInt64 + (carry &&& 0xff)).toNat = b.toNat + carry.toNat % 256 := by
      rw [UInt64.toNat_add, hlow, UInt8.toNat_toUInt64]
      omega
    have hshift : ∀ x : UInt64, (x >>> 8).toNat = x.toNat / 256 := fun x => by
      rw [UInt64.toNat_shiftRight]
      exact Nat.shiftRight_eq_div_pow x.toNat 8
    have hnext : ((carry >>> 8) + ((b.toUInt64 + (carry &&& 0xff)) >>> 8)).toNat =
        carry.toNat / 256 + (b.toNat + carry.toNat % 256) / 256 := by
      rw [UInt64.toNat_add, hshift, hshift, hsum]
      omega
    rw [addCarryWord, map_cons, addCarry]
    by_cases hzero : carry = 0
    · rw [if_pos hzero, if_pos (by rw [hzero]; rfl), map_cons]
    · rw [if_neg hzero, if_neg (show ¬ carry.toNat = 0 from fun h => hzero (UInt64.toNat_inj.mp h))]
      show _ :: _ = _ :: _
      rw [ih, hnext, UInt64.toNat_toUInt8, hsum]

/-- The shift loses none either: an index has sixteen bits at most. -/
theorem toNat_shifted {i k : Nat} (hi : i < 2 ^ 16) (hk : k < 8) :
    (UInt64.ofNat i <<< UInt64.ofNat k).toNat = i <<< k := by
  have hpow : 2 ^ k ≤ 2 ^ 7 := Nat.pow_le_pow_right (by decide) (by omega)
  have hprod : i * 2 ^ k ≤ 2 ^ 16 * 2 ^ 7 := Nat.mul_le_mul (by omega) hpow
  rw [UInt64.toNat_shiftLeft, UInt64.toNat_ofNat', UInt64.toNat_ofNat', Nat.mod_eq_of_lt (show i < 2 ^ 64 by omega),
    Nat.mod_eq_of_lt (show k < 2 ^ 64 by omega), Nat.mod_eq_of_lt (show k < 64 by omega), Nat.shiftLeft_eq,
    Nat.mod_eq_of_lt (by omega)]

/-- **`prefixAt` enumerates the pool.** Take an accepted configuration and the pool of one of its scopes.
The walk gives every prefix of the pool once, the lower before the higher, and no two with an address in
common. Each lies as many prefixes behind the pool as its index says, so that no carry leaves the pool, and
the words of the source hold every value on the way. -/
theorem prefixAt_enumerates {c : Config} (hc : c.validate = .ok ()) {s : Scope} (hs : s ∈ c.scopes)
    {pd : PDConfig} (hpd : s.pd = some pd) : ∃ pool, parsePrefix pd.pool = some pool ∧
      let nth := prefixAt pool pd.length.toNat
      let indexes := Set.Iio (poolSize pool pd.length.toNat)
      Set.BijOn nth indexes { p | inPool pool pd.length.toNat p = true } ∧
      StrictMonoOn (fun i => (nth i).addr.value) indexes ∧
      indexes.Pairwise (fun i j => (nth i).Disjoint (nth j)) ∧
      ∀ i ∈ indexes, (nth i).addr.value = pool.addr.value + i * 2 ^ (128 - pd.length.toNat) ∧
        ∀ raw : List UInt8,
          (addCarryWord (UInt64.ofNat i <<< UInt64.ofNat ((128 - pd.length.toNat) % 8)) raw).map UInt8.toNat =
            addCarry (i <<< ((128 - pd.length.toNat) % 8)) (raw.map UInt8.toNat) := by
  obtain ⟨p, hfacts⟩ := scopeFacts_of_validate hc hs
  obtain ⟨-, pool, h⟩ := hfacts.pool pd hpd
  have hmono : StrictMonoOn (fun i => (prefixAt pool pd.length.toNat i).addr.value)
      (Set.Iio (poolSize pool pd.length.toNat)) := by
    intro i hi j hj hlt
    simp only
    rw [prefixAt_start h hi, prefixAt_start h hj]
    exact Nat.add_lt_add_left (Nat.mul_lt_mul_of_pos_right hlt (Nat.two_pow_pos _)) _
  have hinj : Set.InjOn (prefixAt pool pd.length.toNat) (Set.Iio (poolSize pool pd.length.toNat)) :=
    fun i hi j hj heq => hmono.injOn hi hj (by simp only [heq])
  have hbij : Set.BijOn (prefixAt pool pd.length.toNat) (Set.Iio (poolSize pool pd.length.toNat))
      { p | inPool pool pd.length.toNat p = true } :=
    ⟨fun i hi => inPool_prefixAt h hi, hinj, fun q hq => prefixAt_of_inPool h hq⟩
  refine ⟨pool, h.parsed, hbij, hmono, ?_, fun i hi => ⟨prefixAt_start h hi, fun raw => ?_⟩⟩
  · intro i hi j hj hne
    have hin := inPool_prefixAt h hi
    have hjn := inPool_prefixAt h hj
    simp only [inPool, Bool.and_eq_true, decide_eq_true_eq] at hin hjn
    exact Prefix.disjoint_of_ne hin.1.2 hjn.1.2 rfl fun heq => hne (hinj hi hj heq)
  · have hdepth := h.depth
    have hlt : i < 2 ^ 16 := by
      refine Nat.lt_of_lt_of_le hi ?_
      rw [poolSize, Nat.shiftLeft_eq, Nat.one_mul]
      exact Nat.pow_le_pow_right (by decide) (by omega)
    rw [addCarryWord_eq, toNat_shifted hlt (Nat.mod_lt _ (by decide))]

theorem scanPrefixes_index {free : Prefix → Bool} {length n i : Nat} {p : Prefix}
    (h : scanPrefixes free pool length n i = some p) : ∃ j < i + n, p = prefixAt pool length j := by
  induction n generalizing i with
  | zero => cases h
  | succ n ih =>
    rw [scanPrefixes] at h
    split at h
    · exact ⟨i, by omega, (Option.some.inj h).symm⟩
    · obtain ⟨j, hj, hp⟩ := ih h
      exact ⟨j, by omega, hp⟩

/-- A chosen prefix is one of the pool. -/
theorem choosePrefix_inPool {scope hint : String} {pd : PDConfig} (hpool : PoolFacts pd pool) {p : Prefix}
    (h : choosePrefix L now scope client hint pool pd.length.toNat = some p) :
    inPool pool pd.length.toNat p = true := by
  unfold choosePrefix at h
  simp only at h
  split at h
  · rename_i q hq
    have hfilter := (Option.filter_eq_some_iff.mp hq).2
    rw [← Option.some.inj h]
    exact (Bool.and_eq_true_iff.mp hfilter).1
  · obtain ⟨j, hj, rfl⟩ := scanPrefixes_index h
    exact inPool_prefixAt hpool (by omega)

/-! ### The property and the condition -/

/-- The delegations that different clients hold have no address in common. -/
def DelegationsApart (now : Int) (L : Ledger) : Prop :=
  ∀ k₁ k₂ b₁ b₂, L.bindings.get k₁ = some b₁ → L.bindings.get k₂ = some b₂ →
    heldDelegation now b₁ = true → heldDelegation now b₂ = true → b₁.client ≠ b₂.client →
      ∃ p₁ p₂, parsePrefix b₁.address = some p₁ ∧ parsePrefix b₂.address = some p₂ ∧
        p₁.Disjoint p₂

/-- A client that holds no prefix only asks for one while every delegation of another client has
the scope and the length of the pool, or lies outside of the pool. -/
def Uncrowded (m : Manager) (now : Int) : Manager.Request → Prop
  | .allocatePrefix scopeID client _ _ _ _ =>
    ∀ s pd pool, m.config.scope scopeID = some s → s.pd = some pd →
      parsePrefix pd.pool = some pool → (myDelegation m.store now s client).address = "" →
      ∀ k b, m.store.bindings.get k = some b → heldDelegation now b = true → b.client ≠ client →
        ∃ p, parsePrefix b.address = some p ∧
          (b.scope = s.id ∧ (p.bits : Int) = pd.length ∨ p.Disjoint pool)
  | _ => True

/-! ### The invariant -/

/-- The prefix of the binding, if it is a delegation, is masked. -/
def MaskedDelegation (b : Binding) : Prop :=
  b.origin = .dhcpv6PD → ∃ p : Prefix, b.address = p.text ∧ p = p.masked

/-- What is true of the manager at time `t`. -/
structure Spread (t : Int) (m : Manager) : Prop where
  accepted : m.config.validate = .ok ()
  tidy : Tidy m.store
  masked : ∀ {k b}, m.store.bindings.get k = some b → MaskedDelegation b
  apart : DelegationsApart t m.store

theorem heldDelegation_anti {t : Int} (h : t ≤ now) (hb : heldDelegation now b = true) :
    heldDelegation t b = true := by
  simp only [heldDelegation, Binding.held, Bool.and_eq_true, decide_eq_true_eq] at hb ⊢
  refine ⟨hb.1, ?_, hb.2.2⟩
  omega

/-- As time goes on, delegations only end. -/
theorem Spread.later {t : Int} (h : Spread t m) (ht : t ≤ now) : Spread now m where
  accepted := h.accepted
  tidy := h.tidy
  masked := h.masked
  apart k1 k2 b1 b2 h1 h2 hb1 hb2 hne :=
    h.apart k1 k2 b1 b2 h1 h2 (heldDelegation_anti ht hb1) (heldDelegation_anti ht hb2) hne

/-- Writing a binding keeps the delegations apart when it is none that is held, or when it is
apart from those of the other clients. -/
theorem DelegationsApart.save (hL : DelegationsApart now L) {kind : EventKind}
    (hb : heldDelegation now b = true → ∃ p, parsePrefix b.address = some p ∧
      ∀ k b', L.bindings.get k = some b' → heldDelegation now b' = true → b'.client ≠ b.client →
        ∃ p', parsePrefix b'.address = some p' ∧ p.Disjoint p') : DelegationsApart now (L.save now b kind) := by
  intro k1 k2 b1 b2 h1 h2 hheld1 hheld2 hne
  rw [get_save] at h1 h2
  split at h1
  · obtain rfl := Option.some.inj h1
    split at h2
    · obtain rfl := Option.some.inj h2
      exact absurd rfl hne
    · obtain ⟨p, hp, hall⟩ := hb hheld1
      obtain ⟨p', hp', hdisjoint⟩ := hall k2 b2 h2 hheld2 hne.symm
      exact ⟨p, p', hp, hp', hdisjoint⟩
  · split at h2
    · obtain rfl := Option.some.inj h2
      obtain ⟨p, hp, hall⟩ := hb hheld2
      obtain ⟨p', hp', hdisjoint⟩ := hall k1 b1 h1 hheld1 hne
      exact ⟨p', p, hp', hp, hdisjoint.symm⟩
    · exact hL k1 k2 b1 b2 h1 h2 hheld1 hheld2 hne

/-! ### One request -/

/-- A prefix that `AllocatePrefix` settles on is masked and apart from those of the other
clients. -/
theorem prefixChosen_apart (hm : Spread now m) {scopeID : String} {s : Scope}
    (hs : m.config.scope scopeID = some s) {duidHex hint via : String} {commit : Bool}
    (hcalm : Uncrowded m now (.allocatePrefix scopeID client duidHex hint via commit)) {chosen : Prefix}
    (h : PrefixChosen now s client hint m.store chosen) : chosen = chosen.masked ∧
      ∀ k b, m.store.bindings.get k = some b → heldDelegation now b = true → b.client ≠ client →
        ∃ p, parsePrefix b.address = some p ∧ chosen.Disjoint p := by
  have hfree : ∀ {old : Binding}, m.store.bindings.get (bindingKey s.id chosen.text) = some old →
      old.held now = true → old.client = client :=
    prefixChosen_free hm.tidy.sound (fun hb => (hm.tidy.fits hb).delegated) h
  obtain ⟨pd, pool, hpd, hparsed, ⟨hmine, hparse⟩ | ⟨hnone, hchoose⟩⟩ := h
  · -- The client keeps the prefix it holds, which is apart from the others already.
    have hfound : myDelegation m.store now s client ∈ m.store.liveByClient s.id client ∧
        heldDelegation now (myDelegation m.store now s client) = true := lastBinding_mem hmine
    generalize myDelegation m.store now s client = mine at hfound hparse
    obtain ⟨hstored, -, hclient, -⟩ := mem_liveByClient hm.tidy.sound hfound.1
    have horigin : mine.origin = .dhcpv6PD := by
      simpa using (Bool.and_eq_true_iff.mp hfound.2).1
    obtain ⟨p, hp, hmasked⟩ := hm.masked hstored horigin
    rw [hp, parsePrefix_text, Option.some.injEq] at hparse
    subst hparse
    refine ⟨hmasked, ?_⟩
    intro k b hb hheld hne
    obtain ⟨p1, p2, hp1, hp2, hdisjoint⟩ := hm.apart _ k mine b hstored hb hfound.2 hheld
      (by rw [hclient]; exact hne.symm)
    rw [hp, parsePrefix_text, Option.some.injEq] at hp1
    exact ⟨p2, hp2, by rw [hp1]; exact hdisjoint⟩
  · obtain ⟨hmem, hid⟩ := mem_of_scope hs
    obtain ⟨subnet, hfacts⟩ := scopeFacts_of_validate hm.accepted hmem
    obtain ⟨-, pool', hpool⟩ := hfacts.pool pd hpd
    have hsame : pool' = pool := Option.some.inj (hpool.parsed.symm.trans hparsed)
    subst hsame
    have hin := choosePrefix_inPool hpool hchoose
    simp only [inPool, Bool.and_eq_true, decide_eq_true_eq] at hin
    obtain ⟨⟨hbits, hmasked⟩, hcontains⟩ := hin
    refine ⟨hmasked, ?_⟩
    intro k b hb hheld hne
    obtain ⟨p, hp, ⟨hscope, hlength⟩ | hout⟩ := hcalm s pd pool' hs hpd hparsed hnone k b hb hheld hne
    · -- The prefixes have one length, and if they were one, the client would hold it.
      have horigin : b.origin = .dhcpv6PD := by
        simpa using (Bool.and_eq_true_iff.mp hheld).1
      obtain ⟨q, hq, hqmasked⟩ := hm.masked hb horigin
      rw [hq, parsePrefix_text, Option.some.injEq] at hp
      subst hp
      refine ⟨q, by rw [hq, parsePrefix_text], Prefix.disjoint_of_ne hmasked hqmasked (by omega) ?_⟩
      rintro rfl
      have hkey : bindingKey s.id chosen.text = k := by
        rw [← hm.tidy.sound.keyed hb, Binding.key, hscope, hq]
      exact hne (hfree (by rw [hkey]; exact hb) (Bool.and_eq_true_iff.mp hheld).2)
    · refine ⟨p, hp, fun a ha => hout.symm a (Prefix.contains_of_contains ?_ hcontains ha)⟩
      have hlonger := hpool.longer
      omega

theorem Spread.aside (h : Spread now m) (hL : Aside m.store L) {c : Config} (hc : c.validate = .ok ()) :
    Spread now ⟨L, c⟩ where
  accepted := hc
  tidy := h.tidy.aside hL
  masked hb := h.masked (by rwa [hL.bindings] at hb)
  apart := by
    unfold DelegationsApart
    rw [hL.bindings]
    exact h.apart

/-- Only accepted configurations are adopted. -/
theorem spread_apply (h : Spread now m) (c : Config) (bound saved : Bool) :
    Spread now (m.apply now c bound saved) := by
  unfold Manager.apply
  cases hadmits : m.store.admits now c with
  | error => exact h
  | ok u =>
    have hc : c.validate = .ok () := by
      unfold Ledger.admits at hadmits
      cases hvalid : c.validate with
      | ok => rfl
      | error =>
        rw [hvalid] at hadmits
        cases hadmits
    simp only
    split
    · split
      · exact h.aside (noteDNSConfig_aside _ _ _) hc
      · exact h.aside (noteDNSConfig_aside _ _ _) h.accepted
    · exact h

/-- Saves of masked delegations that keep delegations apart keep everything. -/
theorem Spread.saves (h : Spread now m) {P : Ledger → Binding → EventKind → Prop}
    (hsaves : Saves P now m.store L) (htidy : Tidy L)
    (hP : ∀ L b kind, P L b kind → (∀ {k b}, L.bindings.get k = some b → MaskedDelegation b) →
      DelegationsApart now L → MaskedDelegation b ∧ DelegationsApart now (L.save now b kind)) :
    Spread now { m with store := L } := by
  have hboth := hsaves.invariant
    (I := fun L => (∀ {k b}, L.bindings.get k = some b → MaskedDelegation b) ∧
      DelegationsApart now L) ?_ ?_ ⟨h.masked, h.apart⟩
  · exact ⟨h.accepted, htidy, hboth.1, hboth.2⟩
  · intro L1 L2 haside h1
    unfold DelegationsApart
    rw [haside.bindings]
    exact h1
  · intro L1 b kind hb h1
    obtain ⟨hmasked, hapart⟩ := hP L1 b kind hb h1.1 h1.2
    refine ⟨?_, hapart⟩
    intro k b' hb'
    rcases get_save_eq_some.mp hb' with ⟨-, rfl⟩ | ⟨-, hb'⟩
    · exact hmasked
    · exact h1.1 hb'

/-- A binding that nobody holds crowds nobody. -/
theorem DelegationsApart.save_ended (hL : DelegationsApart now L) {kind : EventKind} (hb : b.held now = false) :
    DelegationsApart now (L.save now b kind) := by
  refine hL.save fun hheld => ?_
  rw [heldDelegation, hb, Bool.and_false] at hheld
  cases hheld

/-- Every request keeps the invariant, a new prefix under the condition. -/
theorem spread_serve (h : Spread now m) {r : Manager.Request} (hcalm : Uncrowded m now r) :
    Spread now (m.serve now r) := by
  cases r with
  | configure c bound saved => exact spread_apply h c bound saved
  | allocatePrefix scopeID =>
    cases hs : m.config.scope scopeID with
    | none => simpa [Manager.serve, hs] using h
    | some s =>
      simp only [Manager.serve, hs]
      have haccepted : AcceptedScope s := ⟨m.config, h.accepted, (mem_of_scope hs).1⟩
      refine settle_map_cases (Q := fun L => Spread now { m with store := L }) h fun b L hL => ?_
      rcases allocatePrefix_cases hL with rfl | ⟨b, kind, hwrite, rfl⟩
      · exact h
      · obtain ⟨hfits, -⟩ := delegate_guard haccepted h.tidy hwrite
        obtain ⟨chosen, hchosen, -, haddress, hclient, -⟩ := delegateWrite_fields hwrite
        obtain ⟨hmasked, hothers⟩ := prefixChosen_apart h hs hcalm hchosen
        have hb : MaskedDelegation b := fun _ => ⟨chosen, haddress, hmasked⟩
        refine h.saves (P := fun L b' kind' => L = m.store ∧ b' = b ∧ kind' = kind)
          (.save .refl ⟨rfl, rfl, rfl⟩) (h.tidy.save hfits now kind) ?_
        rintro L b kind ⟨rfl, rfl, rfl⟩ - hapart
        refine ⟨hb, hapart.save fun _ => ⟨chosen, by rw [haddress, parsePrefix_text], ?_⟩⟩
        rw [hclient]
        exact hothers
  | releasePrefix scopeID =>
    cases hs : m.config.scope scopeID with
    | none => simpa [Manager.serve, hs] using h
    | some =>
      simp only [Manager.serve, hs]
      refine settle_cases (Q := fun L => Spread now { m with store := L }) h fun L hL => ?_
      obtain ⟨htidy, -⟩ := releasePrefix_outcome h.tidy hL
      simp only [Ledger.releasePrefix, bind_eq_ok, refuseIf_eq_ok, exists_const, pure_eq_ok] at hL
      rw [← hL.2] at htidy ⊢
      refine h.saves (endBindings_saves _ _ _ _) htidy ?_
      rintro L1 b kind ⟨b0, hb0, rfl⟩ - hapart
      obtain ⟨hstored, -⟩ := mem_liveByClient h.tidy.sound (mem_filter.mp hb0).1
      have hmasked : MaskedDelegation b0 := h.masked hstored
      refine ⟨hmasked, hapart.save_ended ?_⟩
      simp [Binding.held]
  | expire =>
    obtain ⟨htidy, -⟩ :=
      (expire_saves m.store now).kept (fun _ _ _ hP hL => expire_guard hL hP) h.tidy
    refine h.saves (expire_saves m.store now) htidy ?_
    rintro L1 b kind ⟨k, b0, hget, -, hends, rfl⟩ hmasked hapart
    have hmasked0 : MaskedDelegation b0 := hmasked hget
    refine ⟨hmasked0, hapart.save_ended ?_⟩
    simp only [Binding.held, Bool.and_eq_false_iff, decide_eq_false_iff_not, not_lt]
    exact Or.inl hends

/-! ### Runs -/

/-- Delegations of different clients never overlap, in every run in which new prefixes are only
chosen while the other delegations fit the pool or lie outside of it. -/
theorem delegations_apart {t : Int} {m : Manager} (h : Manager.Reached Uncrowded t m) {now : Int}
    (hnow : t ≤ now) : DelegationsApart now m.store := by
  have hspread : Spread t m := by
    clear hnow
    induction h with
    | start =>
      refine ⟨by decide, tidy_empty, fun hb => ?_, fun k1 k2 b1 b2 hb1 => ?_⟩
      · simp at hb
      · simp at hb1
    | serve r before clock calm ih => exact spread_serve (ih.later clock) calm
  exact (hspread.later hnow).apart

/-- An IPv6 network that delegates prefixes of the given length. -/
def delegatingNet (length : Int) : Config where
  scopes :=
    [{ id := "lan", interface := "eth0", subnet := "fd00::/64", server := "fd00::1",
       start := "fd00::5", endAddr := "fd00::8", router := "", zone := "lan.home",
       leaseSeconds := 3600, preferredSeconds := 1800, enabled := true,
       pd := some { pool := "fd10::/48", length := length } }]

theorem prefixAt_enumerates_delegatingNet : ∃ pool, parsePrefix "fd10::/48" = some pool ∧
    Set.BijOn (prefixAt pool 56) (Set.Iio (poolSize pool 56)) { p | inPool pool 56 p = true } := by
  obtain ⟨pool, hpool, hbijective, -⟩ := prefixAt_enumerates (c := delegatingNet 56) (by decide +kernel)
    mem_cons_self rfl
  exact ⟨pool, hpool, hbijective⟩

/-- A client commits to a prefix. -/
def requestPrefix (duid : String) : Manager.Request :=
  .allocatePrefix "lan" ("duid:" ++ duid ++ "/iaid:00000001") duid "" "" true

/-- A client is granted a prefix while they have the first length, and another one while they
have the second. -/
def delegateTwice (first second : Int) : Manager :=
  ((((({} : Manager).serve 0 (.configure (delegatingNet first) true true)).serve 0
    (requestPrefix "01")).serve 10 (.configure (delegatingNet second) true true)).serve 20
      (requestPrefix "02"))

theorem reached_delegateTwice {ready : Manager → Int → Manager.Request → Prop} {first second : Int}
    (hconfigure : ∀ m now c bound saved, ready m now (.configure c bound saved))
    (hfirst : ready (({} : Manager).serve 0 (.configure (delegatingNet first) true true)) 0
      (requestPrefix "01"))
    (hsecond : ready (((({} : Manager).serve 0 (.configure (delegatingNet first) true true)).serve 0
      (requestPrefix "01")).serve 10 (.configure (delegatingNet second) true true)) 20
        (requestPrefix "02")) :
    Manager.Reached ready 20 (delegateTwice first second) :=
  .serve _ (.serve _ (.serve _ (.serve _ (.start 0) (le_refl 0) (hconfigure _ _ _ _ _)) (le_refl 0)
    hfirst) (by decide) (hconfigure _ _ _ _ _)) (by decide) hsecond

/-- A client is granted a /56. Then the length is changed to 60, which `Manager.Apply` accepts,
and another client is granted a /60 inside of the /56. -/
theorem delegation_inside_another :
    Manager.Reached (fun _ _ _ => True) 20 (delegateTwice 56 60) ∧
      ¬ DelegationsApart 20 (delegateTwice 56 60).store := by
  refine ⟨reached_delegateTwice (fun _ _ _ _ _ => trivial) trivial trivial, ?_⟩
  intro hapart
  have hlong : ((delegateTwice 56 60).store.bindings.get "lan/fd10::/56").map
      (fun b => (heldDelegation 20 b, b.client, b.address)) =
        some (true, "duid:01/iaid:00000001", "fd10::/56") := by decide +kernel
  have hshort : ((delegateTwice 56 60).store.bindings.get "lan/fd10::/60").map
      (fun b => (heldDelegation 20 b, b.client, b.address)) =
        some (true, "duid:02/iaid:00000001", "fd10::/60") := by decide +kernel
  obtain ⟨b1, hb1, h1⟩ := Option.map_eq_some_iff.mp hlong
  obtain ⟨b2, hb2, h2⟩ := Option.map_eq_some_iff.mp hshort
  simp only [Prod.mk.injEq] at h1 h2
  obtain ⟨p1, p2, hp1, hp2, hdisjoint⟩ := hapart _ _ b1 b2 hb1 hb2 h1.1 h2.1
    (by rw [h1.2.1, h2.2.1]; decide)
  rw [h1.2.2] at hp1
  rw [h2.2.2] at hp2
  -- The network address is in both.
  have hin1 : (parsePrefix "fd10::/56").map (fun p => p.contains p.addr) = some true := by
    decide +kernel
  have hin2 : (parsePrefix "fd10::/56").bind (fun p => (parsePrefix "fd10::/60").map
      (fun q => q.contains p.addr)) = some true := by decide +kernel
  rw [hp1] at hin1 hin2
  rw [hp2] at hin2
  have hout := hdisjoint p1.addr (Option.some.inj hin1)
  have hin : p2.contains p1.addr = true := Option.some.inj hin2
  rw [hin] at hout
  cases hout

/-- With the length unchanged both clients have a /56 of their own. -/
theorem delegations_apart_delegateTwice :
    Manager.Reached Uncrowded 20 (delegateTwice 56 56) ∧
      DelegationsApart 20 (delegateTwice 56 56).store := by
  have hreached : Manager.Reached Uncrowded 20 (delegateTwice 56 56) := by
    refine reached_delegateTwice (fun _ _ _ _ _ => trivial) ?_ ?_
    · intro s pd pool _ _ _ _ k b hb
      have hentries : (({} : Manager).serve 0
          (.configure (delegatingNet 56) true true)).store.bindings.entries = [] := by
        decide +kernel
      rw [← Bucket.mem_entries, hentries] at hb
      cases hb
    · intro s pd pool hs hpd _ _ k b hb _ _
      -- The one delegation so far has the scope and the length of the pool.
      have hconfig : (((({} : Manager).serve 0 (.configure (delegatingNet 56) true true)).serve 0
          (requestPrefix "01")).serve 10 (.configure (delegatingNet 56) true true)).config =
            delegatingNet 56 := by
        decide +kernel
      have hentries : (((({} : Manager).serve 0 (.configure (delegatingNet 56) true true)).serve 0
          (requestPrefix "01")).serve 10 (.configure (delegatingNet 56) true true)
            ).store.bindings.entries.map (fun e => (e.2.scope, e.2.address)) =
              [("lan", "fd10::/56")] := by
        decide +kernel
      have hmem := mem_map_of_mem (f := fun e => (e.2.scope, e.2.address))
        (Bucket.mem_entries.mpr hb)
      rw [hentries, mem_singleton, Prod.mk.injEq] at hmem
      rw [hconfig] at hs
      obtain ⟨hs, hid⟩ := mem_of_scope hs
      rw [mem_singleton.mp hs, Option.some.injEq] at hpd
      have hbits : (parsePrefix "fd10::/56").map (fun p => (p.bits : Int)) = some 56 := by
        decide +kernel
      obtain ⟨p, hp, hbits⟩ := Option.map_eq_some_iff.mp hbits
      refine ⟨p, by rw [hmem.2, hp], Or.inl ⟨by rw [hmem.1, hid], ?_⟩⟩
      rw [hbits, ← hpd]
  exact ⟨hreached, delegations_apart hreached (le_refl 20)⟩

/-! ### The pool of a returned prefix -/

/-- The text is that of a delegable prefix of the scope: of the length of its pool, masked, and
inside of the pool. -/
def Delegable (s : Scope) (address : String) : Prop :=
  ∃ pd pool p, s.pd = some pd ∧ parsePrefix pd.pool = some pool ∧ parsePrefix address = some p ∧
    inPool pool pd.length.toNat p = true

/-- Every run of admissible operations keeps the ledger tidy, whatever the order of their times. -/
theorem tidy_of_admissible (hL : Tidy L) {steps : List Step} (hsteps : ∀ x ∈ steps, x.op.Admissible) :
    Tidy (run L steps) := by
  induction steps generalizing L with
  | nil => exact hL
  | cons x rest ih =>
    exact ih (outcome_apply hL x.time (hsteps x mem_cons_self)).1
      fun y hy => hsteps y (mem_cons_of_mem _ hy)

/-- The address that is returned is the text of the prefix that was settled on. -/
theorem allocatePrefix_address {L' : Ledger} (hL : Tidy L) {s : Scope} {duidHex hint via : String}
    {commit : Bool} {r : Binding} (h : L.allocatePrefix now s client duidHex hint via commit = .ok (r, L')) :
    ∃ chosen, PrefixChosen now s client hint L chosen ∧ parsePrefix r.address = some chosen := by
  obtain ⟨chosen, hchosen, ⟨hactive, rfl, -⟩ | ⟨kind, hr, -⟩⟩ := allocatePrefix_result h
  · refine ⟨chosen, hchosen, ?_⟩
    obtain ⟨pd, pool, -, -, ⟨-, hparse⟩ | ⟨hnone, -⟩⟩ := hchosen
    · exact hparse
    · -- What is active was stored, and a stored delegation has the text of a prefix.
      have hfound : myDelegation L now s client ∈ L.liveByClient s.id client ∧
          heldDelegation now (myDelegation L now s client) = true :=
        lastBinding_found fun hzero => by rw [myDelegation, hzero] at hactive; cases hactive
      obtain ⟨hstored, -⟩ := mem_liveByClient hL.sound hfound.1
      have horigin : (myDelegation L now s client).origin = .dhcpv6PD := by
        simpa using (Bool.and_eq_true_iff.mp hfound.2).1
      obtain ⟨p, hp⟩ := (hL.fits hstored).delegated horigin
      have hempty : parsePrefix "" = some p := by rw [← hnone, hp, parsePrefix_text]
      rw [show parsePrefix "" = none by decide] at hempty
      cases hempty
  · have hwrite : DelegateWrite now s client duidHex hint via commit L r kind := ⟨chosen, hchosen, hr⟩
    obtain ⟨chosen', hchosen', -, haddress, -⟩ := delegateWrite_fields hwrite
    exact ⟨chosen', hchosen', by rw [haddress, parsePrefix_text]⟩

/-- In every run, a prefix that `AllocatePrefix` returns is one of the pool of the configuration it
was called with, if and only if the client held no delegation before the call or one of that
pool. -/
theorem delegated_from_pool_iff {steps : List Step} (hsteps : ∀ x ∈ steps, x.op.Admissible)
    {now : Int} {s : Scope} (hs : AcceptedScope s) {client duidHex hint via : String} {commit : Bool}
    {r : Binding} {L' : Ledger}
    (h : (run {} steps).allocatePrefix now s client duidHex hint via commit = .ok (r, L')) :
    Delegable s r.address ↔
      (myDelegation (run {} steps) now s client).address = "" ∨
        Delegable s (myDelegation (run {} steps) now s client).address := by
  obtain ⟨chosen, ⟨pd, pool, hpd, hparsed, hsettled⟩, haddress⟩ :=
    allocatePrefix_address (tidy_of_admissible tidy_empty hsteps) h
  rcases hsettled with ⟨hmine, hparse⟩ | ⟨hnone, hchoose⟩
  · -- The prefix is the one the client holds.
    have hsame : Delegable s r.address ↔
        Delegable s (myDelegation (run {} steps) now s client).address := by
      rw [Delegable, Delegable, haddress, hparse]
    rw [hsame]
    exact ⟨Or.inr, fun h => h.resolve_left hmine⟩
  · obtain ⟨c, hc, hmem⟩ := hs
    obtain ⟨subnet, hfacts⟩ := scopeFacts_of_validate hc hmem
    obtain ⟨-, pool', hpool⟩ := hfacts.pool pd hpd
    have hsame : pool' = pool := Option.some.inj (hpool.parsed.symm.trans hparsed)
    subst hsame
    have hin : Delegable s r.address :=
      ⟨pd, pool', chosen, hpd, hparsed, haddress, choosePrefix_inPool hpool hchoose⟩
    exact iff_of_true hin (Or.inl hnone)

/-- The scope of the network that delegates prefixes of the given length. -/
def delegatingLan (length : Int) : Scope := (delegatingNet length).scopes.head (cons_ne_nil _ _)

/-- A client is granted a /56. -/
def firstDelegation : List Step :=
  [⟨0, .allocatePrefix (delegatingLan 56) "duid:01/iaid:00000001" "01" "" "" true⟩]

/-- The same client asks again, while prefixes have the given length. -/
def renewDelegation (length : Int) : Except Failure (Binding × Ledger) :=
  (run {} firstDelegation).allocatePrefix 10 (delegatingLan length) "duid:01/iaid:00000001" "01" "" "" true

theorem accepted_delegatingLan {length : Int} (h : (delegatingNet length).validate = .ok ()) :
    AcceptedScope (delegatingLan length) :=
  ⟨delegatingNet length, h, head_mem _⟩

theorem admissible_firstDelegation : ∀ x ∈ firstDelegation, x.op.Admissible := by
  intro x hx
  rw [mem_singleton.mp hx]
  exact accepted_delegatingLan (by decide +kernel)

/-- The length of the prefixes is changed to 60, and the client is granted its /56 again. -/
theorem renewed_outside_pool :
    (∀ x ∈ firstDelegation, x.op.Admissible) ∧ AcceptedScope (delegatingLan 60) ∧
      ∃ r L', renewDelegation 60 = .ok (r, L') ∧ ¬ Delegable (delegatingLan 60) r.address := by
  refine ⟨admissible_firstDelegation, accepted_delegatingLan (by decide +kernel), ?_⟩
  have hrun : (renewDelegation 60).toOption.map (fun x => x.1.address) = some "fd10::/56" := by
    decide +kernel
  cases hr : renewDelegation 60 with
  | error =>
    rw [hr] at hrun
    cases hrun
  | ok x =>
    rw [hr] at hrun
    refine ⟨x.1, x.2, rfl, ?_⟩
    rintro ⟨pd, pool, p, hpd, -, hp, hin⟩
    have haddress : x.1.address = "fd10::/56" := Option.some.inj hrun
    rw [haddress] at hp
    -- The prefix has 56 bits, and the pool delegates 60.
    have hbits : (parsePrefix "fd10::/56").map (fun p => p.bits) = some 56 := by decide +kernel
    rw [hp, Option.map_some, Option.some.injEq] at hbits
    simp only [inPool, Bool.and_eq_true, decide_eq_true_eq] at hin
    have hlength : pd.length = 60 := by rw [← Option.some.inj hpd]
    have hsixty := hin.1.1
    rw [hlength, hbits] at hsixty
    exact absurd hsixty (by decide)

/-- With the length unchanged the client is granted its /56 again, which is one of the pool. -/
theorem delegated_from_pool_renewed :
    ∃ r L', renewDelegation 56 = .ok (r, L') ∧ Delegable (delegatingLan 56) r.address := by
  have hrun : (renewDelegation 56).toOption.isSome = true ∧
      (myDelegation (run {} firstDelegation) 10 (delegatingLan 56) "duid:01/iaid:00000001").address =
        "fd10::/56" := by
    decide +kernel
  have hparsed : (parsePrefix "fd10::/48").bind (fun pool => (parsePrefix "fd10::/56").map
      (fun p => inPool pool 56 p)) = some true := by decide +kernel
  cases hr : renewDelegation 56 with
  | error =>
    rw [hr] at hrun
    cases hrun.1
  | ok x =>
    refine ⟨x.1, x.2, rfl, (delegated_from_pool_iff admissible_firstDelegation
      (accepted_delegatingLan (by decide +kernel)) hr).mpr (Or.inr ?_)⟩
    rw [hrun.2]
    obtain ⟨pool, hpool, h⟩ := Option.bind_eq_some_iff.mp hparsed
    obtain ⟨p, hp, hin⟩ := Option.map_eq_some_iff.mp h
    exact ⟨_, pool, p, rfl, hpool, hp, hin⟩

end Ghostd.Proofs.Addressbook
