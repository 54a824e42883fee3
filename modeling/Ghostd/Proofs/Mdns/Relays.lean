import Ghostd.Mdns.Reflect
import Mathlib.Algebra.Order.BigOperators.Group.Finset
import Mathlib.Logic.Relation

/-!
# `Ghostd.Proofs.Mdns.Relays`: the planned relays are the paths of the rules

A rule carries a class, or every class. `none` asks a rule or a set of classes for the second, so that
one statement covers both: `ClassSet.Has` turns the operations on sets of classes into those of logic,
with the wildcard for one more class.

The walk from a source is a fixpoint iteration. Three facts about it are kept by every edge that is
followed (`Invariant`): what is known of an interface reaches it by a path, the edges of the source
have been walked, and so have those of every interface that is not in the queue. When the queue is
empty the last two make what is known closed under edges, so that it is all that any path carries. The
walk ends since an interface is queued only when more is known of it, and only so much can be known
(`potential`).
-/

set_option autoImplicit false

namespace Ghostd.Proofs.Mdns

open Ghostd.Lib Ghostd.Mdns List

variable {edges rules : List Relaying} {cs : ClassSet} {c : Option String} {source v : Int} {w : Walk}
    {U : Finset String} {e : Relaying}

/-! ### Lower case -/

/-- A lower-cased character is an upper-case letter no more, and it is the asterisk only if it was. -/
theorem lowerChar_facts (c : Char) : lowerChar (lowerChar c) = lowerChar c ∧ (lowerChar c = '*' → c = '*') := by
  by_cases hascii : c.toNat < 128
  · have hall : ∀ n : Nat, n < 128 → lowerChar (lowerChar (Char.ofNat n)) = lowerChar (Char.ofNat n) ∧
        (lowerChar (Char.ofNat n) = '*' → Char.ofNat n = '*') := by
      decide
    have hc := hall c.toNat hascii
    rwa [Char.ofNat_toNat] at hc
  · have hsame : lowerChar c = c := by
      refine if_neg fun h => hascii ?_
      have hle : c.toNat ≤ 'Z'.toNat := h.2
      exact Nat.lt_of_le_of_lt hle (by decide)
    rw [hsame, hsame]
    exact ⟨rfl, id⟩

theorem toLower_idem (s : String) : toLower (toLower s) = toLower s := by
  simp [toLower, Function.comp_def, (lowerChar_facts _).1]

theorem toLower_ne_star {s : String} (h : s ≠ "*") : toLower s ≠ "*" := by
  intro hstar
  apply h
  have hlist : s.toList.map lowerChar = ['*'] := by
    rw [← String.toList_ofList (l := s.toList.map lowerChar)]
    exact congrArg String.toList hstar
  obtain ⟨c, rest, hs, hc, hrest⟩ := map_eq_cons_iff.mp hlist
  rw [map_eq_nil_iff.mp hrest, (lowerChar_facts c).2 hc] at hs
  exact String.toList_inj.mp hs

/-! ### What a set of classes carries -/

/-- The services of a rule carry a class, or every class. -/
def Carries (services : List String) : Option String → Prop
  | none => "*" ∈ services
  | some c => ∃ s ∈ services, s = "*" ∨ toLower s = c

/-- The class is in the set; `none` for the set of all classes. -/
def Has (cs : ClassSet) : Option String → Prop
  | none => cs.all = true
  | some c => cs.all = true ∨ c ∈ cs.set

theorem has_of_all (h : cs.all = true) (c : Option String) : Has cs c := by
  cases c with
  | none => exact h
  | some => exact Or.inl h

/-- The fold that reads the services of a rule. -/
theorem classesOf_fold (services : List String) (cs : ClassSet) :
    let out := services.foldl
      (fun cs s => if s = "*" then { cs with all := true } else { cs with set := insert (toLower s) cs.set }) cs
    (out.all = true ↔ cs.all = true ∨ "*" ∈ services) ∧
      ∀ c, c ∈ out.set ↔ c ∈ cs.set ∨ ∃ s ∈ services, s ≠ "*" ∧ toLower s = c := by
  induction services generalizing cs with
  | nil => simp
  | cons s services ih =>
    rw [foldl_cons]
    by_cases hs : s = "*"
    · rw [if_pos hs]
      obtain ⟨hall, hset⟩ := ih { cs with all := true }
      refine ⟨hall.trans (by simp [hs]), fun c => (hset c).trans (by simp [hs])⟩
    · rw [if_neg hs]
      obtain ⟨hall, hset⟩ := ih { cs with set := insert (toLower s) cs.set }
      refine ⟨hall.trans (by simp [Ne.symm hs]), fun c => (hset c).trans ?_⟩
      simp [hs, or_assoc, or_left_comm, eq_comm]

theorem mem_classesOf {services : List String} {c : String} :
    c ∈ (ClassSet.classesOf services).set ↔ ∃ s ∈ services, s ≠ "*" ∧ toLower s = c := by
  refine ((classesOf_fold services ⟨false, ∅⟩).2 c).trans ?_
  simp

theorem has_classesOf {services : List String} : Has (ClassSet.classesOf services) c ↔ Carries services c := by
  have hall : (ClassSet.classesOf services).all = true ↔ "*" ∈ services :=
    (classesOf_fold services ⟨false, ∅⟩).1.trans (by simp)
  cases c with
  | none => exact hall
  | some =>
    show _ ∨ _ ↔ _
    rw [hall, mem_classesOf]
    constructor
    · intro h
      rcases h with hstar | ⟨s, hs, -, hc⟩
      · exact ⟨"*", hstar, Or.inl rfl⟩
      · exact ⟨s, hs, Or.inr hc⟩
    · intro h
      obtain ⟨s, hs, hc⟩ := h
      by_cases hstar : s = "*"
      · exact Or.inl (hstar ▸ hs)
      · exact Or.inr ⟨s, hs, hstar, hc.resolve_left hstar⟩

theorem has_intersect {o : ClassSet} : Has (cs.intersect o) c ↔ Has cs c ∧ Has o c := by
  unfold ClassSet.intersect
  split
  · rename_i ho
    exact ⟨fun h => ⟨h, has_of_all ho c⟩, And.left⟩
  · rename_i ho
    split
    · rename_i hcs
      exact ⟨fun h => ⟨has_of_all hcs c, h⟩, And.right⟩
    · rename_i hcs
      cases c with
      | none => simp [Has, hcs]
      | some => simp [Has, hcs, ho]

theorem has_union {o : ClassSet} : Has (cs.union o) c ↔ Has cs c ∨ Has o c := by
  unfold ClassSet.union
  split
  · rename_i hall
    refine ⟨fun _ => ?_, fun _ => has_of_all rfl c⟩
    rcases Bool.or_eq_true_iff.mp hall with h | h
    · exact Or.inl (has_of_all h c)
    · exact Or.inr (has_of_all h c)
  · rename_i hall
    rw [Bool.or_eq_true_iff, not_or] at hall
    cases c with
    | none => simp [Has, hall.1, hall.2]
    | some => simp [Has, hall.1, hall.2]

theorem empty_iff : cs.empty = true ↔ ∀ c, ¬ Has cs (some c) := by
  unfold ClassSet.empty
  rw [Bool.and_eq_true_iff, Bool.not_eq_true', decide_eq_true_eq, Finset.card_eq_zero]
  constructor
  · intro h c hc
    rcases hc with hall | hmem
    · rw [h.1] at hall
      cases hall
    · rw [h.2] at hmem
      exact absurd hmem (Finset.notMem_empty c)
  · intro h
    refine ⟨?_, Finset.eq_empty_of_forall_notMem fun c hc => h c (Or.inr hc)⟩
    rw [Bool.eq_false_iff]
    exact fun hall => h "" (Or.inl hall)

theorem not_has_of_empty (h : cs.empty = true) (c : Option String) : ¬ Has cs c := by
  cases c with
  | none => exact fun hall => empty_iff.mp h "" (has_of_all hall _)
  | some c => exact empty_iff.mp h c

theorem eq_of_equal {o : ClassSet} (h : cs.equal o = true) : cs = o := by
  unfold ClassSet.equal at h
  split at h
  · cases h
  · rename_i hne
    rw [not_or, not_not, not_not] at hne
    have hset := Finset.eq_of_subset_of_card_le (of_decide_eq_true h) hne.2.ge
    cases cs
    cases o
    simp only at hne hset
    rw [hne.1, hset]

/-- The services that a set is written as carry what the set has. -/
theorem carries_services (hlowered : ∀ x ∈ cs.set, toLower x = x ∧ x ≠ "*") :
    Carries cs.services c ↔ Has cs c := by
  unfold ClassSet.services
  split
  · rename_i hall
    refine ⟨fun _ => has_of_all hall c, fun _ => ?_⟩
    cases c with
    | none => exact mem_singleton_self _
    | some => exact ⟨"*", mem_singleton_self _, Or.inl rfl⟩
  · rename_i hall
    cases c with
    | none =>
      show "*" ∈ cs.set.sort ↔ _
      rw [Finset.mem_sort]
      exact ⟨fun hmem => absurd rfl (hlowered _ hmem).2, fun h => absurd h hall⟩
    | some c =>
      constructor
      · intro h
        obtain ⟨s, hs, hc⟩ := h
        obtain ⟨hlower, hstar⟩ := hlowered s ((Finset.mem_sort _).mp hs)
        refine Or.inr ?_
        rw [← hc.resolve_left hstar, hlower]
        exact (Finset.mem_sort _).mp hs
      · intro h
        have hmem := h.resolve_left hall
        exact ⟨c, (Finset.mem_sort _).mpr hmem, Or.inr (hlowered c hmem).1⟩

/-- The filter holds what is read of its services like those of a rule. -/
theorem newFilter_eq (services : List String) :
    newFilter services =
      ⟨(ClassSet.classesOf services).set, (ClassSet.classesOf services).all, .empty⟩ := by
  let asFilter : ClassSet → Filter := fun cs => ⟨cs.set, cs.all, .empty⟩
  show services.foldl _ (asFilter ⟨false, ∅⟩) = asFilter (services.foldl _ ⟨false, ∅⟩)
  refine foldl_hom asFilter fun cs s => ?_
  split
  · rfl
  · rfl

theorem newFilter_allows (services : List String) (c : String) :
    (newFilter services).allows c = true ↔ Carries services (some c) := by
  rw [← has_classesOf, newFilter_eq]
  simp [Filter.allows, Has]

theorem newFilter_all (services : List String) : (newFilter services).all = true ↔ Carries services none := by
  rw [← has_classesOf, newFilter_eq]
  rfl

/-! ### Paths and edges -/

/-- A rule from one interface to another carries the class. -/
def Edge (rules : List Relaying) (c : Option String) (a b : Int) : Prop :=
  ∃ e ∈ rules, e.fromIndex = a ∧ e.toIndex = b ∧ Carries e.cfg.allowServices c

/-- A path of one rule or more carries the class on each of its rules. -/
def Path (rules : List Relaying) (c : Option String) : Int → Int → Prop := Relation.TransGen (Edge rules c)

/-- The edges that the map holds for an interface are its rules, in their order. -/
theorem edgesFrom_fold (rules : List Relaying) (byFrom : Bucket Int (List Relaying)) (v : Int) :
    ((rules.foldl (fun byFrom e => byFrom.put e.fromIndex ((byFrom.get e.fromIndex).getD [] ++ [e])) byFrom).get
      v).getD [] = (byFrom.get v).getD [] ++ rules.filter (·.fromIndex = v) := by
  induction rules generalizing byFrom with
  | nil => simp
  | cons e rules ih =>
    rw [foldl_cons, ih, Bucket.get_put]
    by_cases hv : v = e.fromIndex
    · simp [hv]
    · simp [hv, Ne.symm hv]

theorem edgesFrom_getD (rules : List Relaying) (v : Int) :
    ((edgesFrom rules).get v).getD [] = rules.filter (·.fromIndex = v) := by
  have h := edgesFrom_fold rules .empty v
  rwa [Bucket.get_empty, Option.getD_none, nil_append] at h

/-- An interface that is no rule's start has no entry. -/
theorem edgesFrom_get : (edgesFrom rules).get v = some edges → edges = rules.filter (·.fromIndex = v) := by
  intro h
  rw [← edgesFrom_getD, h, Option.getD_some]

theorem edgesFrom_of_edge (he : e ∈ rules) : ∃ edges, (edgesFrom rules).get e.fromIndex = some edges := by
  cases h : (edgesFrom rules).get e.fromIndex with
  | some edges => exact ⟨edges, rfl⟩
  | none =>
    have hfilter := edgesFrom_getD rules e.fromIndex
    rw [h, Option.getD_none] at hfilter
    exact absurd (mem_filter.mpr ⟨he, decide_eq_true rfl⟩) (by rw [← hfilter]; exact not_mem_nil)

/-! ### One push -/

/-- The walk knows that the class reaches the interface. -/
def Knows (w : Walk) (v : Int) (c : Option String) : Prop := ∃ cs, w.best.get v = some cs ∧ Has cs c

/-- What is known of an interface, as a set of classes. -/
theorem has_getD : Has ((w.best.get v).getD ⟨false, ∅⟩) c ↔ Knows w v c := by
  unfold Knows
  cases w.best.get v with
  | some => simp
  | none =>
    cases c with
    | none => simp [Has]
    | some => simp [Has]

/-- How much a set of classes is, among `u` classes. A set of all classes that also lists some is less
than one that does not: uniting it with anything gives the latter, which the code takes for a change. -/
def rank (u : Nat) : Option ClassSet → Nat
  | none => 0
  | some cs => if cs.all then (if cs.set = ∅ then u + 2 else u + 1) else cs.set.card

theorem rank_pos {u : Nat} (h : cs.empty = false) : 0 < rank u (some cs) := by
  unfold rank
  simp only
  split
  · split
    · omega
    · omega
  · rename_i hall
    simp only [ClassSet.empty, hall, Bool.not_false, Bool.true_and, decide_eq_false_iff_not] at h
    omega

theorem rank_le (h : cs.set ⊆ U) : rank U.card (some cs) ≤ U.card + 2 := by
  have hcard := Finset.card_le_card h
  unfold rank
  simp only
  split
  · split
    · omega
    · omega
  · omega

/-- Uniting with a set either changes nothing or gives more. -/
theorem rank_union {prev : ClassSet} (hprev : prev.set ⊆ U) (h : prev.equal (prev.union cs) = false) :
    rank U.card (some prev) < rank U.card (some (prev.union cs)) := by
  have hcard := Finset.card_le_card hprev
  unfold ClassSet.union at h ⊢
  by_cases hall : prev.all || cs.all
  · rw [if_pos hall] at h ⊢
    by_cases hpall : prev.all = true
    · -- Nothing is gained here but that the listed classes are gone.
      have hset : prev.set ≠ ∅ := by
        intro hset
        simp [ClassSet.equal, hpall, hset] at h
      simp [rank, hpall, hset]
    · simp only [rank, hpall, Bool.false_eq_true, ↓reduceIte]
      omega
  · rw [if_neg hall] at h ⊢
    rw [Bool.or_eq_true_iff, not_or, Bool.not_eq_true, Bool.not_eq_true] at hall
    simp only [rank, hall.1, Bool.false_eq_true, ↓reduceIte]
    refine Finset.card_lt_card (Finset.ssubset_iff_subset_ne.mpr ⟨Finset.subset_union_left, fun hsame => ?_⟩)
    rw [← hsame] at h
    simp [ClassSet.equal, hall.1] at h

/-- A push leaves the walk as it is if nothing is new. Otherwise it adds what is new and queues the
interface. -/
theorem push_cases {dest : Int} (hw : ∀ prev, w.best.get dest = some prev → prev.set ⊆ U) (hcs : cs.set ⊆ U) :
    (w.push dest cs = w ∧ ∀ c, Has cs c → Knows w dest c) ∨
    ∃ merged, w.push dest cs = ⟨w.best.put dest merged, w.queue ++ [dest]⟩ ∧
      (∀ c, Has merged c ↔ Knows w dest c ∨ Has cs c) ∧ merged.set ⊆ U ∧ merged.empty = false ∧
      rank U.card (w.best.get dest) < rank U.card (some merged) := by
  unfold Walk.push
  by_cases hempty : cs.empty = true
  · rw [if_pos hempty]
    exact Or.inl ⟨rfl, fun c hc => absurd hc (not_has_of_empty hempty c)⟩
  · rw [if_neg hempty]
    cases hget : w.best.get dest with
    | none =>
      refine Or.inr ⟨cs, rfl, fun c => ?_, hcs, Bool.eq_false_iff.mpr hempty, rank_pos (Bool.eq_false_iff.mpr hempty)⟩
      simp [Knows, hget]
    | some prev =>
      have hknows : ∀ c, Knows w dest c ↔ Has prev c := fun c => by simp [Knows, hget]
      by_cases hsame : prev.equal (prev.union cs) = true
      · simp only [hsame, if_true]
        refine Or.inl ⟨trivial, fun c hc => (hknows c).mpr ?_⟩
        rw [eq_of_equal hsame]
        exact has_union.mpr (Or.inr hc)
      · simp only [hsame]
        refine Or.inr ⟨prev.union cs, by simp, fun c => ?_, ?_, ?_, ?_⟩
        · rw [hknows]
          exact has_union
        · unfold ClassSet.union
          split
          · exact Finset.empty_subset U
          · exact Finset.union_subset (hw prev hget) hcs
        · rw [Bool.eq_false_iff]
          intro hempty'
          refine hempty (empty_iff.mpr fun c hc => ?_)
          exact empty_iff.mp hempty' c (has_union.mpr (Or.inr hc))
        · exact rank_union (hw prev hget) (Bool.eq_false_iff.mpr hsame)

/-! ### The invariant of the walk -/

section Walks

variable (rules : List Relaying)

/-- The classes that the rules list. -/
def classes : Finset String :=
  (((rules.flatMap (·.cfg.allowServices)).filter (· ≠ "*")).map toLower).toFinset

theorem lowered_of_mem {x : String} (h : x ∈ classes rules) : toLower x = x ∧ x ≠ "*" := by
  unfold classes at h
  rw [mem_toFinset, mem_map] at h
  obtain ⟨s, hs, rfl⟩ := h
  exact ⟨toLower_idem s, toLower_ne_star (of_decide_eq_true (mem_filter.mp hs).2)⟩

theorem classesOf_subset (he : e ∈ rules) : (ClassSet.classesOf e.cfg.allowServices).set ⊆ classes rules := by
  intro x hx
  obtain ⟨s, hs, hstar, rfl⟩ := mem_classesOf.mp hx
  unfold classes
  rw [mem_toFinset]
  exact mem_map_of_mem (mem_filter.mpr ⟨mem_flatMap.mpr ⟨e, he, hs⟩, decide_eq_true hstar⟩)

/-- What the sets of the walk consist of. -/
structure Stored (w : Walk) : Prop where
  within : ∀ v cs, w.best.get v = some cs → cs.set ⊆ classes rules
  inhabited : ∀ v cs, w.best.get v = some cs → cs.empty = false

/-- Rules have been walked: what is known of the start, and carried, is known of the end. Interfaces in
the queue and rules that are `pending` are still to be walked. -/
def Walked (w : Walk) (pending : Relaying → Prop) : Prop :=
  ∀ e ∈ rules, ¬ pending e → e.fromIndex ∉ w.queue → ∀ c, Knows w e.fromIndex c →
    Carries e.cfg.allowServices c → Knows w e.toIndex c

/-- The walk from a source: what is known is reached, and the rules of the source have been walked. -/
structure Sound (source : Int) (w : Walk) : Prop extends Stored rules w where
  reached : ∀ v c, Knows w v c → Path rules c source v

/-- How much the walk has to do at most: serve the queue, and learn what it does not know yet. -/
def potential (w : Walk) : Nat :=
  w.queue.length +
    ∑ v ∈ (rules.map (·.toIndex)).toFinset, ((classes rules).card + 2 - rank (classes rules).card (w.best.get v))

/-- What a push does to the walk. -/
structure Pushed (w : Walk) (dest : Int) (cs : ClassSet) (w' : Walk) : Prop where
  knows : ∀ v c, Knows w' v c ↔ Knows w v c ∨ (v = dest ∧ Has cs c)
  queued : ∀ v, v ∈ w.queue → v ∈ w'.queue
  settled : ∀ v, v ∉ w'.queue → ∀ c, Knows w' v c → Knows w v c
  stored : Stored rules w'
  potential : potential rules w' ≤ potential rules w

variable {rules}

theorem pushed (hw : Stored rules w) (he : e ∈ rules) (hcs : cs.set ⊆ classes rules) :
    Pushed rules w e.toIndex cs (w.push e.toIndex cs) := by
  rcases push_cases (hw.within e.toIndex) hcs with ⟨hsame, hknown⟩ | ⟨merged, hpush, hmerged, hset, hempty, hrank⟩
  · rw [hsame]
    refine ⟨fun v c => ?_, fun v => id, fun v _ c => id, hw, le_refl _⟩
    constructor
    · exact Or.inl
    · intro h
      rcases h with h | ⟨rfl, h⟩
      · exact h
      · exact hknown c h
  · rw [hpush]
    have hknows : ∀ v c, Knows ⟨w.best.put e.toIndex merged, w.queue ++ [e.toIndex]⟩ v c ↔
        Knows w v c ∨ (v = e.toIndex ∧ Has cs c) := by
      intro v c
      by_cases hv : v = e.toIndex
      · rw [hv]
        simp [Knows, hmerged]
      · simp [Knows, Bucket.get_put, hv]
    refine ⟨hknows, fun v hv => mem_append_left _ hv, fun v hv c hc => ?_, ?_, ?_⟩
    · rcases (hknows v c).mp hc with h | ⟨rfl, -⟩
      · exact h
      · exact absurd (mem_append_right _ (mem_singleton_self _)) hv
    · constructor
      · intro v cs' hget
        rcases Bucket.get_put_eq_some.mp hget with ⟨-, rfl⟩ | ⟨-, hget⟩
        · exact hset
        · exact hw.within v cs' hget
      · intro v cs' hget
        rcases Bucket.get_put_eq_some.mp hget with ⟨-, rfl⟩ | ⟨-, hget⟩
        · exact hempty
        · exact hw.inhabited v cs' hget
    · -- One more interface is queued, and one more thing is known.
      have hle := rank_le hset
      have hsum : ∑ v ∈ (rules.map (·.toIndex)).toFinset, ((classes rules).card + 2 -
            rank (classes rules).card ((w.best.put e.toIndex merged).get v)) <
          ∑ v ∈ (rules.map (·.toIndex)).toFinset, ((classes rules).card + 2 -
            rank (classes rules).card (w.best.get v)) := by
        refine Finset.sum_lt_sum (fun v _ => ?_) ⟨e.toIndex, mem_toFinset.mpr (mem_map_of_mem he), ?_⟩
        · rw [Bucket.get_put]
          split
          · rename_i hv
            rw [hv]
            omega
          · exact le_refl _
        · rw [Bucket.get_put_self]
          omega
      show (w.queue ++ [e.toIndex]).length + _ ≤ w.queue.length + _
      rw [length_append, length_singleton, Nat.add_assoc, Nat.add_comm 1]
      exact Nat.add_le_add_left hsum _

/-! ### The rounds of the walk -/

theorem getD_subset (hw : Stored rules w) (v : Int) : ((w.best.get v).getD ⟨false, ∅⟩).set ⊆ classes rules := by
  cases hget : w.best.get v with
  | none => exact Finset.empty_subset _
  | some cs => exact hw.within v cs hget

/-- Following a rule walks it. -/
theorem follow_walked {via : Int} (hw : Sound rules source w) (he : e ∈ rules) (hvia : e.fromIndex = via)
    {rest : List Relaying} (hwalked : Walked rules w (· ∈ e :: rest)) :
    Sound rules source (w.follow via e) ∧ Walked rules (w.follow via e) (· ∈ rest) ∧
      (∀ v c, Knows w v c → Knows (w.follow via e) v c) ∧
      potential rules (w.follow via e) ≤ potential rules w := by
  have hhas : ∀ c, Has (((w.best.get via).getD ⟨false, ∅⟩).intersect (ClassSet.classesOf e.cfg.allowServices)) c ↔
      Knows w via c ∧ Carries e.cfg.allowServices c := fun c => by
    rw [has_intersect, has_getD, has_classesOf]
  have hsub : (((w.best.get via).getD ⟨false, ∅⟩).intersect (ClassSet.classesOf e.cfg.allowServices)).set ⊆
      classes rules := by
    unfold ClassSet.intersect
    split
    · exact getD_subset hw.toStored via
    · split
      · exact classesOf_subset rules he
      · exact (Finset.filter_subset _ _).trans (getD_subset hw.toStored via)
  have hpush := pushed hw.toStored he hsub
  change Pushed rules w e.toIndex _ (w.follow via e) at hpush
  refine ⟨⟨hpush.stored, fun v c hc => ?_⟩, fun e' he' hpending hqueue c hc hcarries => ?_,
    fun v c hc => (hpush.knows v c).mpr (Or.inl hc), hpush.potential⟩
  · rcases (hpush.knows v c).mp hc with h | ⟨rfl, h⟩
    · exact hw.reached v c h
    · obtain ⟨hknown, hcarried⟩ := (hhas c).mp h
      exact (hw.reached via c hknown).tail ⟨e, he, hvia, rfl, hcarried⟩
  · -- What is known of an interface outside of the queue was known before.
    have hknown := hpush.settled _ hqueue c hc
    refine (hpush.knows _ c).mpr ?_
    by_cases hsame : e' = e
    · subst hsame
      rw [hvia] at hknown
      exact Or.inr ⟨rfl, (hhas c).mpr ⟨hknown, hcarries⟩⟩
    · refine Or.inl (hwalked e' he' (fun hmem => ?_) (fun hmem => hqueue (hpush.queued _ hmem)) c hknown hcarries)
      rcases mem_cons.mp hmem with h | h
      · exact hsame h
      · exact hpending h

/-- Following the rules of an interface one after the other walks them all. -/
theorem follow_all {via : Int} (hedges : ∀ e ∈ edges, e ∈ rules ∧ e.fromIndex = via) (hw : Sound rules source w)
    (hwalked : Walked rules w (· ∈ edges)) : Sound rules source (edges.foldl (Walk.follow via) w) ∧
      Walked rules (edges.foldl (Walk.follow via) w) (fun _ => False) ∧
      (∀ v c, Knows w v c → Knows (edges.foldl (Walk.follow via) w) v c) ∧
      potential rules (edges.foldl (Walk.follow via) w) ≤ potential rules w := by
  induction edges generalizing w with
  | nil => exact ⟨hw, fun e he _ => hwalked e he not_mem_nil, fun v c => id, le_refl _⟩
  | cons e edges ih =>
    obtain ⟨he, hvia⟩ := hedges e mem_cons_self
    obtain ⟨hw', hwalked', hknows, hle⟩ := follow_walked hw he hvia hwalked
    obtain ⟨hsound, hdone, hknows', hle'⟩ := ih (fun x hx => hedges x (mem_cons_of_mem _ hx)) hw' hwalked'
    exact ⟨hsound, hdone, fun v c hc => hknows' v c (hknows v c hc), hle'.trans hle⟩

/-- What holds before each round of the walk from a source. -/
structure Invariant (rules : List Relaying) (source : Int) (w : Walk) : Prop extends Sound rules source w where
  walked : Walked rules w (fun _ => False)
  started : ∀ e ∈ rules, e.fromIndex = source → ∀ c, Carries e.cfg.allowServices c → Knows w e.toIndex c

/-- A round keeps the invariant and leaves less to do. -/
theorem next_keeps {w' : Walk} (hw : Invariant rules source w) (h : w.next (edgesFrom rules) = some w') :
    Invariant rules source w' ∧ potential rules w' < potential rules w := by
  unfold Walk.next at h
  split at h
  · cases h
  · rename_i via queue hqueue
    cases h
    rw [edgesFrom_getD]
    have hedges : ∀ e ∈ rules.filter (·.fromIndex = via), e ∈ rules ∧ e.fromIndex = via := fun e he =>
      ⟨(mem_filter.mp he).1, of_decide_eq_true (mem_filter.mp he).2⟩
    -- With its first interface taken off the queue, its rules are those to be walked.
    have hpopped : Walked rules { w with queue := queue } (· ∈ rules.filter (·.fromIndex = via)) := by
      intro e he hpending hnotqueued c hc hcarries
      refine hw.walked e he id (fun hmem => ?_) c hc hcarries
      rw [hqueue] at hmem
      rcases mem_cons.mp hmem with hvia | hmem
      · exact hpending (mem_filter.mpr ⟨he, decide_eq_true hvia⟩)
      · exact hnotqueued hmem
    obtain ⟨hsound, hwalked, hknows, hle⟩ := follow_all hedges
      (w := { w with queue := queue }) ⟨⟨hw.within, hw.inhabited⟩, hw.reached⟩ hpopped
    refine ⟨⟨hsound, hwalked, fun e he hfrom c hc => hknows _ c (hw.started e he hfrom c hc)⟩, ?_⟩
    refine Nat.lt_of_le_of_lt hle ?_
    unfold Mdns.potential
    rw [hqueue, length_cons]
    simp only
    omega

/-- The rules of the source. -/
theorem start_keeps (hedges : ∀ e ∈ edges, e ∈ rules ∧ e.fromIndex = source) (hw : Sound rules source w)
    (hqueued : ∀ v c, Knows w v c → v ∈ w.queue) :
    let w' := edges.foldl (fun w e => w.push e.toIndex (ClassSet.classesOf e.cfg.allowServices)) w
    Sound rules source w' ∧ (∀ v c, Knows w' v c → v ∈ w'.queue) ∧
      (∀ e ∈ edges, ∀ c, Carries e.cfg.allowServices c → Knows w' e.toIndex c) ∧
      (∀ v c, Knows w v c → Knows w' v c) ∧ potential rules w' ≤ potential rules w := by
  induction edges generalizing w with
  | nil => exact ⟨hw, hqueued, fun e he => absurd he not_mem_nil, fun v c => id, le_refl _⟩
  | cons e edges ih =>
    obtain ⟨he, hfrom⟩ := hedges e mem_cons_self
    have hpush := pushed hw.toStored he (classesOf_subset rules he)
    have hsound : Sound rules source (w.push e.toIndex (ClassSet.classesOf e.cfg.allowServices)) := by
      refine ⟨hpush.stored, fun v c hc => ?_⟩
      rcases (hpush.knows v c).mp hc with h | ⟨rfl, h⟩
      · exact hw.reached v c h
      · exact Relation.TransGen.single ⟨e, he, hfrom, rfl, has_classesOf.mp h⟩
    have hqueued' : ∀ v c, Knows (w.push e.toIndex (ClassSet.classesOf e.cfg.allowServices)) v c →
        v ∈ (w.push e.toIndex (ClassSet.classesOf e.cfg.allowServices)).queue := by
      intro v c hc
      by_contra hv
      exact hv (hpush.queued v (hqueued v c (hpush.settled v hv c hc)))
    obtain ⟨hsound', hqueued'', hwalked, hknows, hle⟩ :=
      ih (fun x hx => hedges x (mem_cons_of_mem _ hx)) hsound hqueued'
    refine ⟨hsound', hqueued'', fun x hx c hc => ?_, fun v c hc => hknows v c ((hpush.knows v c).mpr (Or.inl hc)),
      hle.trans hpush.potential⟩
    rcases mem_cons.mp hx with rfl | hx
    · exact hknows _ c ((hpush.knows _ c).mpr (Or.inr ⟨rfl, has_classesOf.mpr hc⟩))
    · exact hwalked x hx c hc

theorem start_invariant (rules : List Relaying) (source : Int) :
    Invariant rules source (Walk.start (rules.filter (·.fromIndex = source))) ∧
      potential rules (Walk.start (rules.filter (·.fromIndex = source))) ≤ potential rules ⟨.empty, []⟩ := by
  have hnothing : ∀ v c, ¬ Knows ⟨.empty, []⟩ v c := fun v c h => by
    obtain ⟨cs, hget, -⟩ := h
    cases hget
  have hsound : Sound rules source ⟨.empty, []⟩ :=
    ⟨⟨fun v cs h => (by cases h), fun v cs h => (by cases h)⟩, fun v c h => absurd h (hnothing v c)⟩
  have hedges : ∀ e ∈ rules.filter (·.fromIndex = source), e ∈ rules ∧ e.fromIndex = source := fun e he =>
    ⟨(mem_filter.mp he).1, of_decide_eq_true (mem_filter.mp he).2⟩
  obtain ⟨hsound', hqueued, hstarted, -, hle⟩ := start_keeps hedges hsound fun v c h => absurd h (hnothing v c)
  refine ⟨⟨hsound', fun e _ _ hnotqueued c hc => absurd (hqueued _ c hc) hnotqueued, fun e he hfrom => ?_⟩, hle⟩
  exact hstarted e (mem_filter.mpr ⟨he, decide_eq_true hfrom⟩)

/-- When the queue is empty, all that any path carries is known. -/
theorem knows_of_path (hw : Invariant rules source w) (hqueue : w.queue = []) (h : Path rules c source v) :
    Knows w v c := by
  induction h with
  | single h =>
    obtain ⟨e, he, hfrom, rfl, hcarries⟩ := h
    exact hw.started e he hfrom c hcarries
  | tail _ h ih =>
    obtain ⟨e, he, rfl, rfl, hcarries⟩ := h
    exact hw.walked e he id (by rw [hqueue]; exact not_mem_nil) c ih hcarries

/-- **The walk from a source ends, and knows what the paths carry.** -/
theorem walk_exact (rules : List Relaying) (source : Int) :
    ∃ w, (∀ n, potential rules ⟨.empty, []⟩ ≤ n →
        loop (Walk.next (edgesFrom rules)) n (Walk.start (rules.filter (·.fromIndex = source))) = some w) ∧
      Stored rules w ∧ ∀ v c, Knows w v c ↔ Path rules c source v := by
  obtain ⟨hstart, hle⟩ := start_invariant rules source
  obtain ⟨w, hrun⟩ := loop_ends (fun w w' hw h => (next_keeps hw h).1) (fun w w' hw h => (next_keeps hw h).2)
    hstart hle
  obtain ⟨hw, hdone⟩ := loop_keeps (fun w w' hw h => (next_keeps hw h).1) hstart hrun
  have hqueue : w.queue = [] := by
    unfold Walk.next at hdone
    split at hdone
    · assumption
    · cases hdone
  exact ⟨w, fun n hn => loop_mono hn hrun, hw.toStored, fun v c => ⟨hw.reached v c, knows_of_path hw hqueue⟩⟩

end Walks

/-! ### Cycles -/

/-- A path can start at the last visit to its source. -/
theorem path_avoids_source (h : Path rules c source v) :
    v = source ∨ Relation.TransGen (fun a b => b ≠ source ∧ Edge rules c a b) source v := by
  induction h with
  | @single b hb =>
    by_cases hsource : b = source
    · exact Or.inl hsource
    · exact Or.inr (Relation.TransGen.single ⟨hsource, hb⟩)
  | @tail b d _ hd ih =>
    by_cases hsource : d = source
    · exact Or.inl hsource
    · rcases ih with rfl | ih
      · exact Or.inr (Relation.TransGen.single ⟨hsource, hd⟩)
      · exact Or.inr (ih.tail ⟨hsource, hd⟩)

/-! ### The relays -/

/-- What the relays of a source are. -/
structure RelaysOf (rules : List Relaying) (source : Int) (relays : List Relay) : Prop where
  starts : ∀ r ∈ relays, r.fromIndex = source
  ends : (relays.map (·.toIndex)).Nodup
  found : ∀ v, (∃ r ∈ relays, r.toIndex = v) ↔ v ≠ source ∧ ∃ c, Path rules (some c) source v
  filters : ∀ r ∈ relays, (∀ c, r.f.allows c = true ↔ Path rules (some c) source r.toIndex) ∧
    (r.f.all = true ↔ Path rules none source r.toIndex)

theorem relaysFrom_spec (hw : Stored rules w) (hknows : ∀ v c, Knows w v c ↔ Path rules c source v) :
    RelaysOf rules source (relaysFrom source w.best) := by
  have hmem : ∀ r, r ∈ relaysFrom source w.best ↔
      ∃ v cs, w.best.get v = some cs ∧ v ≠ source ∧ r = ⟨source, v, newFilter cs.services⟩ := by
    intro r
    unfold relaysFrom
    rw [mem_filterMap]
    constructor
    · intro h
      obtain ⟨⟨v, cs⟩, hentry, hr⟩ := h
      split at hr
      · cases hr
      · rename_i hv
        exact ⟨v, cs, Bucket.mem_entries.mp hentry, hv, (Option.some.inj hr).symm⟩
    · intro h
      obtain ⟨v, cs, hget, hv, rfl⟩ := h
      exact ⟨(v, cs), Bucket.mem_entries.mpr hget, if_neg hv⟩
  refine ⟨fun r hr => ?_, ?_, fun v => ⟨fun h => ?_, fun h => ?_⟩, fun r hr => ?_⟩
  · obtain ⟨v, cs, -, -, rfl⟩ := (hmem r).mp hr
    rfl
  · unfold relaysFrom
    rw [map_filterMap]
    -- A relay has the key of its entry for its end.
    refine Bucket.nodup_filterMap (P := Eq) (fun h h' => h.trans h'.symm) _ fun e _ x hx => ?_
    split at hx
    · cases hx
    · exact Option.some.inj hx
  · obtain ⟨r, hr, rfl⟩ := h
    obtain ⟨v, cs, hget, hv, rfl⟩ := (hmem r).mp hr
    have hsome : ¬ ∀ c, ¬ Has cs (some c) := by
      rw [← empty_iff, hw.inhabited v cs hget]
      exact Bool.false_ne_true
    obtain ⟨c, hc⟩ := not_forall_not.mp hsome
    exact ⟨hv, c, (hknows v _).mp ⟨cs, hget, hc⟩⟩
  · obtain ⟨hv, c, hc⟩ := h
    obtain ⟨cs, hget, -⟩ := (hknows v _).mpr hc
    exact ⟨_, (hmem _).mpr ⟨v, cs, hget, hv, rfl⟩, rfl⟩
  · obtain ⟨v, cs, hget, -, rfl⟩ := (hmem r).mp hr
    have hcarries : ∀ c, Carries cs.services c ↔ Path rules c source v := by
      intro c
      rw [carries_services fun x hx => lowered_of_mem rules (hw.within v cs hget hx), ← hknows]
      simp [Knows, hget]
    exact ⟨fun c => (newFilter_allows _ c).trans (hcarries _), (newFilter_all _).trans (hcarries _)⟩

/-- Steps that all return do so together. -/
theorem mapM_forall₂ {α β : Type} {f : Nat → α → Option β} {P : α → β → Prop} {n : Nat} {xs : List α}
    (h : ∀ x ∈ xs, ∃ y, P x y ∧ ∀ m, n ≤ m → f m x = some y) :
    ∃ ys, List.Forall₂ P xs ys ∧ ∀ m, n ≤ m → xs.mapM (f m) = some ys := by
  induction xs with
  | nil => exact ⟨[], List.Forall₂.nil, fun m _ => rfl⟩
  | cons x xs ih =>
    obtain ⟨y, hy, hfy⟩ := h x mem_cons_self
    obtain ⟨ys, hys, hfys⟩ := ih fun x hx => h x (mem_cons_of_mem _ hx)
    refine ⟨y :: ys, List.Forall₂.cons hy hys, fun m hm => ?_⟩
    rw [mapM_cons, hfy m hm, hfys m hm]
    rfl

theorem exists_of_mem_left {α β : Type} {P : α → β → Prop} {xs : List α} {ys : List β}
    (h : List.Forall₂ P xs ys) {x : α} (hx : x ∈ xs) : ∃ y ∈ ys, P x y := by
  induction h with
  | nil => cases hx
  | cons hP _ ih =>
    rcases mem_cons.mp hx with rfl | hx
    · exact ⟨_, mem_cons_self, hP⟩
    · obtain ⟨y, hy, hPy⟩ := ih hx
      exact ⟨y, mem_cons_of_mem _ hy, hPy⟩

theorem exists_of_mem_right {α β : Type} {P : α → β → Prop} {xs : List α} {ys : List β}
    (h : List.Forall₂ P xs ys) {y : β} (hy : y ∈ ys) : ∃ x ∈ xs, P x y :=
  exists_of_mem_left h.flip hy

/-- The relays of sources that are all different are relays of different pairs. -/
theorem nodup_relays {sources : List (Int × List Relaying)} {out : List (List Relay)}
    (hsources : sources.Pairwise fun a b => a.1 < b.1)
    (h : List.Forall₂ (fun s relays => RelaysOf rules s.1 relays) sources out) :
    (out.flatten.map fun r => (r.fromIndex, r.toIndex)).Nodup := by
  induction h with
  | nil => exact nodup_nil
  | @cons s relays sources out hs hrest ih =>
    obtain ⟨hfirst, hsources⟩ := pairwise_cons.mp hsources
    rw [flatten_cons, map_append, nodup_append]
    refine ⟨?_, ih hsources, fun p hp q hq hpq => ?_⟩
    · refine List.Nodup.of_map Prod.snd ?_
      rw [map_map]
      exact hs.ends
    · obtain ⟨r, hr, rfl⟩ := mem_map.mp hp
      obtain ⟨r', hr', rfl⟩ := mem_map.mp hq
      obtain ⟨relays', hrelays', hr'⟩ := mem_flatten.mp hr'
      obtain ⟨s', hs', hspec⟩ := exists_of_mem_right hrest hrelays'
      have hstart : r.fromIndex = r'.fromIndex := congrArg Prod.fst hpq
      rw [hs.starts r hr, hspec.starts r' hr'] at hstart
      exact absurd (hfirst s' hs') (by rw [hstart]; exact lt_irrefl _)

/-- **The planned relays are the paths of the rules.** From some number of rounds on the plan is the
same: one relay for each pair that a path with a common class connects, with a filter for the classes
that some path carries. Paths that come back to their source are not needed for any of them. -/
theorem planRelays_paths (rules : List Relaying) :
    ∃ n relays, (∀ m, n ≤ m → planRelays m rules = some relays) ∧
      (relays.map fun r => (r.fromIndex, r.toIndex)).Nodup ∧
      (∀ s t, (∃ r ∈ relays, r.fromIndex = s ∧ r.toIndex = t) ↔ s ≠ t ∧ ∃ c, Path rules (some c) s t) ∧
      ∀ r ∈ relays,
        (∀ c, r.f.allows c = true ↔ Path rules (some c) r.fromIndex r.toIndex) ∧
        (r.f.all = true ↔ Path rules none r.fromIndex r.toIndex) ∧
        ∀ c, Path rules c r.fromIndex r.toIndex ↔
          Relation.TransGen (fun a b => b ≠ r.fromIndex ∧ Edge rules c a b) r.fromIndex r.toIndex := by
  have hwalks : ∀ s ∈ (edgesFrom rules).entries, ∃ relays, RelaysOf rules s.1 relays ∧
      ∀ m, potential rules ⟨.empty, []⟩ ≤ m →
        (loop (Walk.next (edgesFrom rules)) m (Walk.start s.2) >>= fun w =>
          pure (relaysFrom s.1 w.best)) = some relays := by
    intro s hs
    obtain ⟨w, hrun, hstored, hknows⟩ := walk_exact rules s.1
    refine ⟨_, relaysFrom_spec hstored hknows, fun m hm => ?_⟩
    rw [edgesFrom_get (Bucket.mem_entries.mp hs), hrun m hm]
    rfl
  obtain ⟨out, hout, hplan⟩ := mapM_forall₂ hwalks
  refine ⟨potential rules ⟨.empty, []⟩, out.flatten.insertionSort fun r s => !relayBefore s r, fun m hm => ?_, ?_,
    fun s t => ?_, fun r hr => ?_⟩
  · unfold planRelays
    dsimp only
    rw [hplan m hm]
    rfl
  · exact (List.Perm.map _ (perm_insertionSort _ _)).nodup_iff.mpr (nodup_relays (edgesFrom rules).sorted hout)
  · constructor
    · intro h
      obtain ⟨r, hr, rfl, rfl⟩ := h
      obtain ⟨relays, hrelays, hr⟩ := mem_flatten.mp ((mem_insertionSort _).mp hr)
      obtain ⟨source, -, hspec⟩ := exists_of_mem_right hout hrelays
      obtain ⟨hne, hpath⟩ := (hspec.found r.toIndex).mp ⟨r, hr, rfl⟩
      rw [hspec.starts r hr]
      exact ⟨Ne.symm hne, hpath⟩
    · intro h
      obtain ⟨hne, c, hpath⟩ := h
      -- A path starts with a rule, so its start has an entry.
      have hfirst : ∃ e ∈ rules, e.fromIndex = s := by
        obtain ⟨b, ⟨e, he, hfrom, -⟩, -⟩ := Relation.TransGen.head'_iff.mp hpath
        exact ⟨e, he, hfrom⟩
      obtain ⟨e, he, rfl⟩ := hfirst
      obtain ⟨edges, hget⟩ := edgesFrom_of_edge he
      obtain ⟨relays, hrelays, hspec⟩ := exists_of_mem_left hout (Bucket.mem_entries.mpr hget)
      obtain ⟨r, hr, hend⟩ := (hspec.found t).mpr ⟨Ne.symm hne, c, hpath⟩
      exact ⟨r, (mem_insertionSort _).mpr (mem_flatten.mpr ⟨relays, hrelays, hr⟩), hspec.starts r hr, hend⟩
  · obtain ⟨relays, hrelays, hr⟩ := mem_flatten.mp ((mem_insertionSort _).mp hr)
    obtain ⟨source, -, hspec⟩ := exists_of_mem_right hout hrelays
    have hstart := hspec.starts r hr
    obtain ⟨hallows, hall⟩ := hspec.filters r hr
    rw [← hstart] at hallows hall
    refine ⟨hallows, hall, fun c => ⟨fun h => ?_, Relation.TransGen.mono (fun a b hab => hab.2) _ _⟩⟩
    refine (path_avoids_source h).resolve_left ?_
    rw [hstart]
    exact ((hspec.found r.toIndex).mp ⟨r, hr, rfl⟩).1

end Ghostd.Proofs.Mdns
