import Ghostd.Proofs.Addressbook.Validate
import Mathlib.Data.List.Perm.Basic

/-!
# `Ghostd.Proofs.Addressbook.Ranges`: the address space of a configuration

A pool of prefixes is compared with the subnets before it. A subnet is compared with the subnets before
it, but not with the pools. So a configuration can be accepted in one order and refused in another, and
in the order in which it is accepted a subnet can lie inside another scope's pool. `Unpooled` is the
comparison that is missing. `ranges_disjoint` says that an accepted configuration has a disjoint address
space exactly when that comparison holds, and that it is then accepted in every order, and only then.
-/

set_option autoImplicit false

namespace Ghostd.Proofs.Addressbook

open Ghostd.Lib Ghostd.Addressbook List

variable {next one seen : SeenScopes} {devices : List String} {s : Scope}

/-! ### Ranges -/

/-- The subnet of a scope. -/
def subnetOf (s : Scope) : Option Prefix := parsePrefix s.subnet

/-- The pool of a scope. -/
def poolOf (s : Scope) : Option Prefix := s.pd.bind fun pd => parsePrefix pd.pool

/-- The address ranges of a scope: its subnet, and its pool if it has one. -/
def rangesOf (s : Scope) : List Prefix := (subnetOf s).toList ++ (poolOf s).toList

/-- No address is in two ranges of the configuration. -/
def DisjointRanges (c : Config) : Prop := (c.scopes.flatMap rangesOf).Pairwise Prefix.Disjoint

/-- The subnet of the later scope is apart from the pool of the earlier one. -/
def Unpooled (s t : Scope) : Prop :=
  ∀ pool p, poolOf s = some pool → subnetOf t = some p → p.overlaps pool = false

/-- The ranges that a scope that is accepted claims. -/
theorem ranges_of_validateScope (h : validateScope devices {} s = .ok one) :
    ∃ p, subnetOf s = some p ∧ one.prefixes = [p] ∧ one.pdPools.map Prod.fst = (poolOf s).toList ∧
      ∀ pool, poolOf s = some pool → pool.overlaps p = false := by
  obtain ⟨p, selector, pools, hsubnet, -, hpd, rfl⟩ := claims_of_validateScope h
  refine ⟨p, hsubnet, rfl, ?_⟩
  unfold validatePD at hpd
  unfold poolOf
  cases hs : s.pd with
  | none =>
    simp only [hs, pure_eq_ok] at hpd
    rw [← hpd]
    simp
  | some pd =>
    cases hpool : parsePrefix pd.pool with
    | none => simp [hs, hpool] at hpd
    | some =>
      simp only [hs, hpool, bind_eq_ok, refuseIf_eq_ok, exists_const, List.find?_nil, pure_eq_ok] at hpd
      obtain ⟨-, -, -, hown, -, rfl⟩ := hpd
      simp only [Option.bind_some, hpool, Option.toList_some, map_cons, map_nil, Option.some.injEq,
        true_and]
      intro pool' hpool'
      rw [← hpool']
      exact hown

/-- Of two accepted scopes, the ranges are disjoint when the later one follows and its subnet is not in
the pool of the earlier one. -/
theorem disjoint_of_follows {t : Scope} (hs : validateScope devices {} s = .ok one)
    (ht : validateScope devices {} t = .ok next) (hfollows : Follows devices s t) :
    (∀ p ∈ rangesOf s, ∀ q ∈ rangesOf t, p.Disjoint q) ↔ Unpooled s t := by
  have hafter := hfollows one next hs ht
  obtain ⟨p, hp, hprefixes, hpools, -⟩ := ranges_of_validateScope hs
  obtain ⟨q, hq, hprefixes', hpools', -⟩ := ranges_of_validateScope ht
  have hmem : ∀ {s : Scope} {pool : Prefix} {pools : List (Prefix × String)}, pools.map Prod.fst = (poolOf s).toList →
      poolOf s = some pool → ∃ x ∈ pools, x.1 = pool := by
    intro s pool pools hpools hpool
    rw [hpool] at hpools
    have hin : pool ∈ pools.map Prod.fst := by simp [hpools]
    simpa using hin
  constructor
  · intro h pool q' hpool hq'
    rw [Prefix.overlaps_comm]
    refine Prefix.disjoint_iff.mp (h pool ?_ q' ?_)
    · simp [rangesOf, hpool]
    · simp [rangesOf, hq']
  · intro h x hx y hy
    rw [Prefix.disjoint_iff, Prefix.overlaps_comm]
    simp only [rangesOf, mem_append, Option.mem_toList, Option.mem_def] at hx hy
    rcases hx with hx | hx
    · rw [hp, Option.some.injEq] at hx
      subst hx
      rcases hy with hy | hy
      · rw [hq, Option.some.injEq] at hy
        subst hy
        exact hafter.prefixes q (by simp [hprefixes']) p (by simp [hprefixes])
      · obtain ⟨z, hz, rfl⟩ := hmem hpools' hy
        exact hafter.poolPrefixes z hz p (by simp [hprefixes])
    · rcases hy with hy | hy
      · exact h x y hx hy
      · obtain ⟨z, hz, rfl⟩ := hmem hpools' hy
        obtain ⟨w, hw, rfl⟩ := hmem hpools hx
        exact hafter.pools z hz w hw

/-- With the missing comparison, the order of two scopes does not matter. -/
theorem follows_symm {t : Scope} (h : Follows devices s t) (hunpooled : Unpooled s t) :
    Follows devices t s := by
  intro next one hnext hone
  have hafter := h one next hone hnext
  obtain ⟨q, hq, hprefixes', -⟩ := ranges_of_validateScope hnext
  obtain ⟨p, hp, hprefixes, hpools, -⟩ := ranges_of_validateScope hone
  refine ⟨?_, ?_, ?_, ?_, ?_, ?_⟩
  · intro i hi hm
    exact hafter.ids i hm hi
  · intro i hi hm
    exact hafter.selectors i hm hi
  · intro z hz z' hz'
    exact (hafter.zones z' hz' z hz).symm
  · intro x hx y hy
    rw [Prefix.overlaps_comm]
    exact hafter.prefixes y hy x hx
  · intro pool hpool y hy
    rw [hprefixes', mem_singleton] at hy
    subst hy
    have hin : pool.1 ∈ (poolOf s).toList := by
      rw [← hpools]
      exact mem_map_of_mem hpool
    rw [Option.mem_toList] at hin
    rw [Prefix.overlaps_comm]
    exact hunpooled pool.1 y hin hq
  · intro x hx y hy
    rw [Prefix.overlaps_comm]
    exact hafter.pools y hy x hx

/-- What follows in the other order is the missing comparison. -/
theorem unpooled_of_follows {t : Scope} (hs : validateScope devices {} s = .ok one)
    (ht : validateScope devices {} t = .ok next) (h : Follows devices t s) : Unpooled s t := by
  intro pool q hpool hq
  have hafter := h next one ht hs
  obtain ⟨p, -, -, hpools, -⟩ := ranges_of_validateScope hs
  obtain ⟨q', hq', hprefixes', -⟩ := ranges_of_validateScope ht
  rw [hq, Option.some.injEq] at hq'
  have hin : pool ∈ one.pdPools.map Prod.fst := by simp [hpools, hpool]
  obtain ⟨z, hz, rfl⟩ := mem_map.mp hin
  rw [Prefix.overlaps_comm]
  exact hafter.poolPrefixes z hz q (by simp [hprefixes', hq'])

/-! ### The result -/

/-- An accepted configuration has a disjoint address space, and is accepted whatever the order of its
scopes, exactly when no subnet overlaps the pool of a scope before it. -/
theorem ranges_disjoint {c : Config} (h : c.validate = .ok ()) :
    (DisjointRanges c ↔ c.scopes.Pairwise Unpooled) ∧
      ((∀ scopes : List Scope, scopes.Perm c.scopes → { c with scopes := scopes }.validate = .ok ()) ↔
        c.scopes.Pairwise Unpooled) := by
  obtain ⟨seen, hdevices, htftp, heach, hpairs⟩ := validate_iff.mp h
  constructor
  · unfold DisjointRanges
    rw [pairwise_flatMap]
    constructor
    · intro hdisjoint
      refine (hdisjoint.2.and hpairs).imp_of_mem ?_
      intro s t hs ht hst
      obtain ⟨one, hone⟩ := heach s hs
      obtain ⟨next, hnext⟩ := heach t ht
      exact (disjoint_of_follows hone hnext hst.2).mp hst.1
    · intro hunpooled
      refine ⟨?_, (hunpooled.and hpairs).imp_of_mem ?_⟩
      · -- Within a scope there are at most the subnet and the pool, which were compared.
        intro s hs
        obtain ⟨one, hone⟩ := heach s hs
        obtain ⟨p, hp, -, -, hown⟩ := ranges_of_validateScope hone
        rw [rangesOf, hp, Option.toList_some]
        cases hpool : poolOf s with
        | none => simp
        | some pool =>
          have hapart : p.Disjoint pool := by
            rw [Prefix.disjoint_iff, Prefix.overlaps_comm]
            exact hown pool hpool
          simpa using hapart
      · intro s t hs ht hst
        obtain ⟨one, hone⟩ := heach s hs
        obtain ⟨next, hnext⟩ := heach t ht
        exact (disjoint_of_follows hone hnext hst.2).mpr hst.1
  · constructor
    · intro hall
      -- The reverse order makes the comparison that is missing.
      obtain ⟨seen', hdevices', -, -, hpairs'⟩ :=
        validate_iff.mp (hall c.scopes.reverse (reverse_perm _))
      rw [hdevices, Except.ok.injEq] at hdevices'
      subst hdevices'
      rw [pairwise_reverse] at hpairs'
      refine hpairs'.imp_of_mem ?_
      intro s t hs ht hts
      obtain ⟨one, hone⟩ := heach s hs
      obtain ⟨next, hnext⟩ := heach t ht
      exact unpooled_of_follows hone hnext hts
    · intro hunpooled scopes hperm
      refine validate_iff.mpr ⟨seen, hdevices, htftp, fun s hs => heach s (hperm.mem_iff.mp hs), ?_⟩
      have hboth : c.scopes.Pairwise fun s t => Follows seen.ids s t ∧ Follows seen.ids t s :=
        (hpairs.and hunpooled).imp fun hst => ⟨hst.1, follows_symm hst.1 hst.2⟩
      have hsymm : ∀ {s t : Scope}, Follows seen.ids s t ∧ Follows seen.ids t s →
          Follows seen.ids t s ∧ Follows seen.ids s t := fun hst => hst.symm
      exact ((hperm.symm.pairwise_iff hsymm).mp hboth).imp fun hst => hst.1

/-- Two IPv6 networks. The first delegates the prefixes of fd78::/62, the second has the given subnet. -/
def delegating (start : String) : Config where
  scopes :=
    [{ id := "six", interface := "eth0", subnet := "fd00::/64", server := "fd00::1", start := "fd00::5",
       endAddr := "fd00::9", router := "", zone := "six.home", leaseSeconds := 600, preferredSeconds := 300,
       enabled := true, pd := some { pool := "fd78::/62", length := 64 } },
     { id := "seven", interface := "eth1", subnet := start ++ "/64", server := start ++ "1",
       start := start ++ "5", endAddr := start ++ "9", router := "", zone := "seven.home",
       leaseSeconds := 600, preferredSeconds := 300, enabled := true }]

theorem ranges_disjoint_delegating : DisjointRanges (delegating "fd79::") := by
  have hvalid : (delegating "fd79::").validate = .ok () := by decide +kernel
  have hapart : ∀ s ∈ (delegating "fd79::").scopes, ∀ t ∈ (delegating "fd79::").scopes,
      ∀ pool ∈ poolOf s, ∀ p ∈ subnetOf t, p.overlaps pool = false := by decide +kernel
  refine (ranges_disjoint hvalid).1.mpr (pairwise_of_forall_mem_list ?_)
  intro s hs t ht pool p hpool hp
  exact hapart s hs t ht pool hpool p hp

/-- The subnet fd78:0:0:1::/64 is one of the prefixes that the first network delegates. The
configuration is accepted, and refused when its scopes change places. -/
theorem subnet_in_pool :
    (delegating "fd78:0:0:1::").validate = .ok () ∧ ¬ DisjointRanges (delegating "fd78:0:0:1::") ∧
      { delegating "fd78:0:0:1::" with scopes := (delegating "fd78:0:0:1::").scopes.reverse }.validate ≠ .ok () := by
  have hvalid : (delegating "fd78:0:0:1::").validate = .ok () := by decide +kernel
  refine ⟨hvalid, fun hdisjoint => ?_, by decide +kernel⟩
  have hoverlaps : ¬ ((delegating "fd78:0:0:1::").scopes.flatMap rangesOf).Pairwise
      fun p q => p.overlaps q = false := by decide +kernel
  exact hoverlaps (hdisjoint.imp fun h => Prefix.disjoint_iff.mp h)

end Ghostd.Proofs.Addressbook
