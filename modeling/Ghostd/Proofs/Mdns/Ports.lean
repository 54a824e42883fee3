import Ghostd.Mdns.Service

/-!
# `Ghostd.Proofs.Mdns.Ports`: a published port belongs to one instance

The pool of an interface records who holds each port. The name it records is that of the source and the
key of the instance, so two instances have a port to themselves if their owners differ, and if the pool
has each published port under the owner of its instance (`Recorded`). A rule gives a port back only from
the name it was given to, and takes only ports that are free or its own, so it leaves the entries of
others alone (`Advance`).

For this the key that is computed from the parts of an instance has to be the one it is filed under.
That is not so for every name. `unescapeKeepCase` takes the class off the end of the name as it is
written in lower case, and `key` undoes the escapes of a text whose escapes have been undone. Such
an instance is not removed when it says goodbye, and shares its port with others (`withdrawn_and_published`).
Two more things are asked of the rules: that no two of them read the same classes from the same source,
which happens if one of them names it by a pattern, and that no interface has a `|` in its name.
-/

set_option autoImplicit false

namespace Ghostd.Proofs.Mdns

open Ghostd.Lib Ghostd.Mdns List

variable {k key name : String} {n n' : NatRule} {i : NatInstance} {pool pool' : Ports} {changed : Bool}
    {rr : RR} {pl : Plan}

/-! ### Owners -/

/-- The owner of the instance under a key. -/
def ownerOf (n : NatRule) (key : String) : String := n.source.name ++ "|" ++ key

/-- The class of a name, from its normal form. -/
def classOfKey (key : String) : Option String :=
  let labels := splitText (trimEnd key ".") "."
  if labels.length < 3 ∨ labels.getLast? ≠ some "local" then none else classFrom labels.dropLast.reverse

theorem classOf_eq (name : String) : classOf name = classOfKey (norm name) := rfl

theorem ownerOf_inj (hn : '|' ∉ n.source.name.toList) (hn' : '|' ∉ n'.source.name.toList) {k' : String}
    (h : ownerOf n k = ownerOf n' k') : n.source.name = n'.source.name ∧ k = k' := by
  have hlist : n.source.name.toList ++ '|' :: k.toList = n'.source.name.toList ++ '|' :: k'.toList := by
    have := congrArg String.toList h
    simpa [ownerOf, String.toList_append] using this
  obtain ⟨hname, hkey⟩ := append_cons_inj hn hn' hlist
  exact ⟨String.toList_inj.mp hname, String.toList_inj.mp hkey⟩

theorem ownerOf_inj_key {k' : String} (h : ownerOf n k = ownerOf n k') : k = k' := by
  have := congrArg String.toList h
  simp only [ownerOf, String.toList_append, append_assoc, append_cancel_left_eq] at this
  exact String.toList_inj.mp this

/-! ### What a rule keeps -/

/-- The instances of a rule are filed under their keys, and belong to its classes. -/
structure Filed (n : NatRule) : Prop where
  keyed : ∀ k i, n.insts.get k = some i → i.key = k
  classed : ∀ k i, n.insts.get k = some i → ∃ cls, classOfKey k = some cls ∧ cls ∈ n.f.allow

/-- The pool has the port of every instance under its owner. -/
def Recorded (n : NatRule) (pool : Ports) : Prop :=
  ∀ k i, n.insts.get k = some i → i.hostPort ≠ 0 → pool.get i.hostPort = some (ownerOf n k)

/-- The rule is in order, and its ports are recorded. -/
structure Ordered (n : NatRule) (pool : Ports) : Prop where
  filed : Filed n
  recorded : Recorded n pool

/-- The owners that a rule can have. -/
def Owns (n : NatRule) (o : String) : Prop :=
  ∃ k cls, o = ownerOf n k ∧ classOfKey k = some cls ∧ cls ∈ n.f.allow

/-- What a rule does keeps its own instances in order and leaves the ports of others alone. -/
structure Advance (n : NatRule) (pool : Ports) (n' : NatRule) (pool' : Ports) : Prop where
  filter : n'.f = n.f
  source : n'.source = n.source
  filed : Filed n'
  recorded : Recorded n' pool'
  spares : ∀ p o, pool.get p = some o → ¬ Owns n o → pool'.get p = some o

theorem Advance.ordered (h : Advance n pool n' pool') : Ordered n' pool' := ⟨h.filed, h.recorded⟩

theorem Advance.refl (h : Ordered n pool) : Advance n pool n pool :=
  ⟨rfl, rfl, h.filed, h.recorded, fun _ _ h _ => h⟩

theorem Owns.congr (hf : n'.f = n.f) (hs : n'.source = n.source) {o : String} : Owns n' o ↔ Owns n o := by
  unfold Owns ownerOf
  rw [hf, hs]

theorem Advance.trans {n'' : NatRule} {pool'' : Ports} (h : Advance n pool n' pool')
    (h' : Advance n' pool' n'' pool'') : Advance n pool n'' pool'' :=
  ⟨h'.filter.trans h.filter, h'.source.trans h.source, h'.filed, h'.recorded, fun p o hget hother =>
    h'.spares p o (h.spares p o hget hother) fun ho => hother ((Owns.congr h.filter h.source).mp ho)⟩

section Moves

variable {n : NatRule} {pool : Ports}

/-- A change of the hosts or of the instances that have left. -/
theorem Advance.of_insts (h : Ordered n pool) (hf : n'.f = n.f) (hs : n'.source = n.source)
    (hinsts : n'.insts = n.insts) : Advance n pool n' pool := by
  refine ⟨hf, hs, ⟨?_, ?_⟩, ?_, fun _ _ h _ => h⟩
  · rw [hinsts]
    exact h.filed.keyed
  · rw [hinsts, hf]
    exact h.filed.classed
  · unfold Recorded ownerOf
    rw [hinsts, hs]
    exact h.recorded

/-- An instance with its port takes the place of the one under a key, or a new place. -/
theorem Advance.put (hfiled : Filed n) (hkey : i.key = key)
    (hcls : ∃ cls, classOfKey key = some cls ∧ cls ∈ n.f.allow)
    (hport : i.hostPort ≠ 0 → pool'.get i.hostPort = some (ownerOf n key))
    (hothers : ∀ k j, k ≠ key → n.insts.get k = some j → j.hostPort ≠ 0 →
      pool'.get j.hostPort = some (ownerOf n k))
    (hspares : ∀ p o, pool.get p = some o → o ≠ ownerOf n key → pool'.get p = some o) :
    Advance n pool { n with insts := n.insts.put key i } pool' := by
  refine ⟨rfl, rfl, ⟨fun k j hget => ?_, fun k j hget => ?_⟩, fun k j hget hne => ?_, fun p o hget hother => ?_⟩
  · rcases Bucket.get_put_eq_some.mp hget with ⟨rfl, rfl⟩ | ⟨-, hget⟩
    · exact hkey
    · exact hfiled.keyed k j hget
  · rcases Bucket.get_put_eq_some.mp hget with ⟨rfl, -⟩ | ⟨-, hget⟩
    · exact hcls
    · exact hfiled.classed k j hget
  · rcases Bucket.get_put_eq_some.mp hget with ⟨rfl, rfl⟩ | ⟨hk, hget⟩
    · exact hport hne
    · exact hothers k j hk hget hne
  · obtain ⟨cls, hkcls, hallow⟩ := hcls
    exact hspares p o hget fun ho => hother ⟨key, cls, ho, hkcls, hallow⟩

/-- A change of an instance that is not one of its name or port. -/
theorem Advance.change (h : Ordered n pool) {i' : NatInstance} (hget : n.insts.get key = some i)
    (hkey : i'.key = i.key) (hport : i'.hostPort = i.hostPort) :
    Advance n pool { n with insts := n.insts.put key i' } pool := by
  refine Advance.put h.filed (hkey.trans (h.filed.keyed key i hget)) (h.filed.classed key i hget) ?_
    (fun k j _ hj hne => h.recorded k j hj hne) (fun p o h _ => h)
  rw [hport]
  exact h.recorded key i hget

/-- Giving a port back takes no other entry from the pool. -/
theorem release_spares {p : Nat} {o : String} (hget : pool.get p = some o) (hother : o ≠ n.owner i) :
    (n.release pool i).get p = some o := by
  unfold NatRule.release
  split
  · exact hget
  · split
    · rename_i hheld
      rw [Bucket.get_delete, if_neg fun hp => ?_]
      · exact hget
      · rw [hp, hheld, Option.some.injEq] at hget
        exact hother hget.symm
    · exact hget

/-- A port is given out under the owner, and no entry of another is changed. -/
theorem allocate_spares {p : Nat} (h : n.allocate pool i = some (p, pool')) : pool'.get p = some (n.owner i) ∧
      ∀ q o, pool.get q = some o → o ≠ n.owner i → pool'.get q = some o := by
  unfold NatRule.allocate at h
  obtain ⟨p', hfound, heq⟩ := Option.map_eq_some_iff.mp h
  cases heq
  refine ⟨Bucket.get_put_self _ _ _, fun q o hget hother => ?_⟩
  have hfree := List.find?_some hfound
  rw [Bucket.get_put_of_ne _ fun hq => ?_]
  · exact hget
  · -- The port is not that of another, since it is free or the owner's.
    rw [← hq, hget] at hfree
    exact hother (of_decide_eq_true hfree)

theorem owner_eq (hkey : i.key = key) : n.owner i = ownerOf n key := by
  rw [← hkey]
  rfl

/-- What leaving does to the rule. -/
theorem drop_rule (n : NatRule) (pool : Ports) (i : NatInstance) : (n.drop pool i).1.f = n.f ∧
    (n.drop pool i).1.source = n.source ∧ (n.drop pool i).1.insts = n.insts.delete i.key := by
  unfold NatRule.drop
  dsimp only
  split
  · exact ⟨rfl, rfl, rfl⟩
  · exact ⟨rfl, rfl, rfl⟩

/-- What is left when an instance has left was there. -/
theorem drop_get {j : NatInstance} (h : (n.drop pool i).1.insts.get k = some j) :
    k ≠ i.key ∧ n.insts.get k = some j := by
  rw [(drop_rule n pool i).2.2, Bucket.get_delete_eq_some] at h
  exact h

/-- An instance leaves. -/
theorem Advance.drop (h : Ordered n pool) (hget : n.insts.get key = some i) :
    Advance n pool (n.drop pool i).1 (n.drop pool i).2 := by
  obtain rfl := h.filed.keyed key i hget
  obtain ⟨hf, hs, -⟩ := drop_rule n pool i
  have hpool : ∀ p o, pool.get p = some o → o ≠ ownerOf n i.key → (n.drop pool i).2.get p = some o := by
    intro p o hp ho
    unfold NatRule.drop
    dsimp only
    split
    · exact release_spares hp ho
    · exact hp
  refine ⟨hf, hs, ⟨fun k j hj => h.filed.keyed k j (drop_get hj).2, fun k j hj => ?_⟩, fun k j hj hne => ?_,
    fun p o hp hother => ?_⟩
  · rw [hf]
    exact h.filed.classed k j (drop_get hj).2
  · obtain ⟨hk, hj⟩ := drop_get hj
    have howner : ownerOf (n.drop pool i).1 k = ownerOf n k := by
      unfold ownerOf
      rw [hs]
    rw [howner]
    exact hpool _ _ (h.recorded k j hj hne) fun h => hk (ownerOf_inj_key h)
  · obtain ⟨cls, hcls, hallow⟩ := h.filed.classed i.key i hget
    exact hpool p o hp fun ho => hother ⟨i.key, cls, ho, hcls, hallow⟩

end Moves

/-! ### Learning -/

/-- The key that is computed from the parts of the name is the one that the name is filed under. -/
def SelfKeyed (n : NatRule) (name : String) : Prop :=
  ∀ cls ∈ n.f.allow, classOf name = some cls →
    NatInstance.key { service := cls, «instance» := unescapeKeepCase name cls } = norm name

/-- The name of the instance that a record can make. -/
def instanceName (rr : RR) : Option String :=
  match rr.data with
  | .ptr target => some target
  | .srv _ _ | .txt _ => some rr.name
  | _ => none

/-- The names in a message are filed under the keys that are computed from them. -/
def SelfKeyedMsg (n : NatRule) (m : Msg) : Prop :=
  ∀ rr ∈ m.all, ∀ name, instanceName rr = some name → SelfKeyed n name

/-- The record says goodbye to the instance under a key: a service record of it, or a pointer from one of
the classes of the rule. -/
inductive Goodbye (f : Filter) (key : String) (rr : RR) : Prop where
  | service (port : BitVec 16) (target : String) (httl : rr.ttl = 0) (hdata : rr.data = .srv port target)
      (hkey : norm rr.name = key) : Goodbye f key rr
  | pointer (target cls : String) (httl : rr.ttl = 0) (hdata : rr.data = .ptr target) (hkey : norm target = key)
      (hcls : classOf rr.name = some cls) (hallow : cls ∈ f.allow) : Goodbye f key rr

/-- The record gives the instance under a key a place. -/
def Announces (key : String) (rr : RR) : Prop :=
  rr.ttl ≠ 0 ∧ ∃ port target, rr.data = .srv port target ∧ norm rr.name = key

/-- The instance under the key has no place and no port, if there is one. -/
def Unplaced (key : String) (n : NatRule) : Prop :=
  ∀ i, n.insts.get key = some i → i.port = 0 ∧ i.hostPort = 0

/-- What an operation does to the rule and the pool. -/
abbrev Learned (l l' : Learning) : Prop := Advance l.rule l.pool l'.rule l'.pool

section Learn

variable {l : Learning}

theorem ensure_key {l' : Learning} (h : l.ensure name = (some key, l')) : key = norm name := by
  unfold Learning.ensure at h
  split at h
  · exact absurd (Prod.mk.inj h).1 (by simp)
  · split at h
    · exact absurd (Prod.mk.inj h).1 (by simp)
    · split at h
      · exact (Option.some.inj (Prod.mk.inj h).1).symm
      · exact (Option.some.inj (Prod.mk.inj h).1).symm

theorem ensure_learned (h : Ordered l.rule l.pool) (hname : SelfKeyed l.rule name) :
    Learned l (l.ensure name).2 := by
  unfold Learning.ensure
  split
  · exact Advance.refl h
  · rename_i cls hcls
    split
    · exact Advance.refl h
    · rename_i hallow
      rw [not_not] at hallow
      split
      · exact Advance.refl h
      · refine Advance.put h.filed (hname cls hallow hcls) ⟨cls, (classOf_eq name).symm.trans hcls, hallow⟩ ?_ ?_ ?_
        · exact fun h => absurd rfl h
        · exact fun k j _ hget hne => h.recorded k j hget hne
        · exact fun p o hget _ => hget

theorem ensure_unplaced (name : String) (h : Unplaced key l.rule) : Unplaced key (l.ensure name).2.rule := by
  unfold Learning.ensure
  split
  · exact h
  · split
    · exact h
    · split
      · exact h
      · intro i hget
        dsimp only at hget
        rcases Bucket.get_put_eq_some.mp hget with ⟨-, rfl⟩ | ⟨-, hget⟩
        · exact ⟨rfl, rfl⟩
        · exact h i hget

theorem update_learned (h : Ordered l.rule l.pool) {change : NatInstance → Option NatInstance}
    (hchange : ∀ i i', change i = some i' → i'.key = i.key ∧ i'.hostPort = i.hostPort) :
    Learned l (l.update key change changed) := by
  unfold Learning.update
  split
  · exact Advance.refl h
  · rename_i i' hbind
    obtain ⟨i, hget, hi⟩ := Option.bind_eq_some_iff.mp hbind
    exact Advance.change h hget (hchange i i' hi).1 (hchange i i' hi).2

theorem update_unplaced {change : NatInstance → Option NatInstance}
    (hchange : k = key → ∀ i i', change i = some i' → i'.port = i.port ∧ i'.hostPort = i.hostPort)
    (h : Unplaced k l.rule) : Unplaced k (l.update key change changed).rule := by
  unfold Learning.update
  split
  · exact h
  · rename_i i' hbind
    obtain ⟨i, hget, hi⟩ := Option.bind_eq_some_iff.mp hbind
    intro j hj
    dsimp only at hj
    rcases Bucket.get_put_eq_some.mp hj with ⟨hk, rfl⟩ | ⟨-, hj⟩
    · obtain ⟨hport, hhostPort⟩ := hchange hk i j hi
      rw [hport, hhostPort]
      exact h i (hk ▸ hget)
    · exact h j hj

theorem goodbye_learned (h : Ordered l.rule l.pool) (key : String) : Learned l (l.goodbye key) := by
  unfold Learning.goodbye
  split
  · exact Advance.refl h
  · rename_i i hget
    exact Advance.drop h hget

theorem goodbye_unplaced (h : Unplaced k l.rule) : Unplaced k (l.goodbye key).rule := by
  unfold Learning.goodbye
  split
  · exact h
  · exact fun i hi => h i (drop_get hi).2

/-- Nothing is left under the key. -/
theorem goodbye_gone (h : Ordered l.rule l.pool) (key : String) : Unplaced key (l.goodbye key).rule := by
  unfold Learning.goodbye
  split
  · rename_i hget
    intro i hi
    rw [hget] at hi
    cases hi
  · rename_i i hget
    exact fun j hj => absurd (h.filed.keyed key i hget).symm (drop_get hj).1

theorem SelfKeyed.congr (hf : n'.f = n.f) (h : SelfKeyed n name) : SelfKeyed n' name := by
  unfold SelfKeyed
  rw [hf]
  exact h

/-- The change keeps the key and the published port of the instance under a key. Its place and its lifetime
change only by a record that announces it. -/
def Harmless (rr : RR) (key : String) (change : NatInstance → Option NatInstance) : Prop :=
  ∀ i i', change i = some i' → i'.key = i.key ∧ i'.hostPort = i.hostPort ∧
    (Announces key rr ∨ i'.port = i.port ∧ i'.expires = i.expires)

/-- The rule for a record: it is enough to look at an instance that is made, one that is changed and one that
leaves. -/
theorem record_rule {I : Learning → Prop} (now : Int)
    (hhosts : ∀ l hosts announced, I l → I { l with rule := { l.rule with hosts }, announced })
    (hensure : ∀ l name, instanceName rr = some name → I l → I (l.ensure name).2)
    (hupdate : ∀ l key change changed, Harmless rr key change → I l → I (l.update key change changed))
    (hgoodbye : ∀ l key, I l → I (l.goodbye key)) (h : I l) : I (l.record now rr) := by
  unfold Learning.record
  cases hdata : rr.data with
  | a ip =>
    cases ip with
    | none => exact h
    | some ip =>
      show I (l.address now rr ip)
      unfold Learning.address
      dsimp only
      split
      · exact hhosts l _ l.announced h
      · exact hhosts l l.rule.hosts _ h
  | ptr target =>
    have hmade := hensure l target (by simp [instanceName, hdata]) h
    show I (l.pointer rr target)
    unfold Learning.pointer
    split
    · exact h
    · split
      · exact h
      · split
        · exact hgoodbye l _ h
        · split
          · rename_i l' hensured
            rwa [hensured] at hmade
          · rename_i key l' hensured
            rw [hensured] at hmade
            split
            · refine hupdate l' key _ true (fun i i' hi => ?_) hmade
              split at hi
              · cases hi
              · cases hi
                exact ⟨rfl, rfl, Or.inr ⟨rfl, rfl⟩⟩
            · exact hmade
  | srv port target =>
    have hmade := hensure l rr.name (by simp [instanceName, hdata]) h
    show I (l.service now rr port target)
    unfold Learning.service
    split
    · exact hgoodbye l _ h
    · rename_i httl
      split
      · rename_i l' hensured
        rwa [hensured] at hmade
      · rename_i key l' hensured
        have hannounces : Announces key rr := ⟨httl, port, target, hdata, (ensure_key hensured).symm⟩
        rw [hensured] at hmade
        refine hupdate _ key _ false (fun i i' hi => ?_) (hupdate l' key _ true (fun i i' hi => ?_) hmade)
        · cases hi
          exact ⟨rfl, rfl, Or.inl hannounces⟩
        · unfold Learning.moved at hi
          split at hi
          · cases hi
            exact ⟨rfl, rfl, Or.inl hannounces⟩
          · cases hi
  | txt txt =>
    have hmade := hensure l rr.name (by simp [instanceName, hdata]) h
    show I (l.text rr txt)
    unfold Learning.text
    split
    · rename_i l' hensured
      rwa [hensured] at hmade
    · rename_i key l' hensured
      rw [hensured] at hmade
      split
      · exact hmade
      · refine hupdate l' key _ true (fun i i' hi => ?_) hmade
        split at hi
        · cases hi
          exact ⟨rfl, rfl, Or.inr ⟨rfl, rfl⟩⟩
        · cases hi
  | other => exact h

/-- Every record of a message keeps the rule in order. -/
theorem record_learned (h : Ordered l.rule l.pool) (now : Int)
    (hname : ∀ name, instanceName rr = some name → SelfKeyed l.rule name) : Learned l (l.record now rr) := by
  refine record_rule (I := Learned l) now (fun l1 _ _ h1 => ?_) (fun l1 name hmade h1 => ?_)
    (fun l1 key change changed hchange h1 => ?_) (fun l1 key h1 => ?_) (Advance.refl h)
  · exact h1.trans (Advance.of_insts h1.ordered rfl rfl rfl)
  · exact h1.trans (ensure_learned h1.ordered ((hname name hmade).congr h1.filter))
  · exact h1.trans (update_learned h1.ordered fun i i' hi => ⟨(hchange i i' hi).1, (hchange i i' hi).2.1⟩)
  · exact h1.trans (goodbye_learned h1.ordered key)

theorem records_learned (now : Int) {rrs : List RR}
    (hnames : ∀ rr ∈ rrs, ∀ name, instanceName rr = some name → SelfKeyed l.rule name)
    (h : Ordered l.rule l.pool) : Learned l (rrs.foldl (Learning.record now) l) := by
  induction rrs generalizing l with
  | nil => exact Advance.refl h
  | cons rr rrs ih =>
    have hfirst := record_learned h now (hnames rr mem_cons_self)
    refine hfirst.trans (ih (fun x hx name hname => ?_) hfirst.ordered)
    exact (hnames x (mem_cons_of_mem _ hx) name hname).congr hfirst.filter

/-! ### Publishing -/

theorem publish_learned (h : Ordered l.rule l.pool) (now : Int) (subnet : List Prefix) (key : String) :
    Learned l (l.publish now subnet key) := by
  unfold Learning.publish
  split
  · exact Advance.refl h
  · rename_i i hget
    split
    · exact Advance.refl h
    · split
      · exact Advance.refl h
      · split
        · exact Advance.refl h
        · rename_i ip _
          split
          · have hkey := h.filed.keyed key i hget
            have howner : l.rule.owner i = ownerOf l.rule key := owner_eq hkey
            have hclass := h.filed.classed key i hget
            -- The ports of the other instances survive that the old one is given back.
            have hreleased : ∀ k j, k ≠ key → l.rule.insts.get k = some j → j.hostPort ≠ 0 →
                (l.rule.release l.pool i).get j.hostPort = some (ownerOf l.rule k) := by
              intro k j hk hj hne
              refine release_spares (h.recorded k j hj hne) ?_
              rw [howner]
              exact fun h => hk (ownerOf_inj_key h)
            have hspared : ∀ p o, l.pool.get p = some o → o ≠ ownerOf l.rule key →
                (l.rule.release l.pool i).get p = some o := fun p o hp ho =>
              release_spares hp (by rw [howner]; exact ho)
            dsimp only
            split
            · exact Advance.put h.filed hkey hclass (fun h => absurd rfl h) hreleased hspared
            · rename_i p pool' halloc
              have howner' : l.rule.owner { i with hostPort := 0, ip := some ip } = ownerOf l.rule key := howner
              obtain ⟨hgot, hothers⟩ := allocate_spares halloc
              rw [howner'] at hgot hothers
              refine Advance.put h.filed hkey hclass (fun _ => hgot) (fun k j hk hj hne => ?_) fun q o hq ho => ?_
              · exact hothers _ _ (hreleased k j hk hj hne) fun h => hk (ownerOf_inj_key h)
              · exact hothers q o (hspared q o hq ho) ho
          · exact Advance.refl h

theorem publishes_learned (now : Int) (subnet : List Prefix) (keys : List String) (h : Ordered l.rule l.pool) :
    Learned l (keys.foldl (Learning.publish now subnet) l) := by
  induction keys generalizing l with
  | nil => exact Advance.refl h
  | cons key keys ih =>
    have hfirst := publish_learned h now subnet key
    exact hfirst.trans (ih hfirst.ordered)

end Learn

/-- `learn` keeps the rule in order. -/
theorem learn_advance (h : Ordered n pool) (now : Int) (subnet : List Prefix) (order : Order) {m : Msg}
    (hm : SelfKeyedMsg n m) :
    Advance n pool (n.learn pool now subnet order m).rule (n.learn pool now subnet order m).pool := by
  have hrecords : Learned { rule := n, pool := pool } (m.all.foldl (Learning.record now) { rule := n, pool := pool }) :=
    records_learned now hm h
  have hhosts : Learned (m.all.foldl (Learning.record now) { rule := n, pool := pool }) (n.learnRecords pool now m) :=
    Advance.of_insts hrecords.ordered rfl rfl rfl
  exact (hrecords.trans hhosts).trans (publishes_learned now subnet _ hhosts.ordered)

/-! ### Goodbyes -/

section Withdrawing

variable {l : Learning}

theorem record_goodbye (h : Ordered l.rule l.pool) (now : Int) (hgoodbye : Goodbye l.rule.f key rr) :
    Unplaced key (l.record now rr).rule := by
  cases hgoodbye with
  | service port target httl hdata hkey =>
    have hrecord : l.record now rr = l.goodbye (norm rr.name) := by
      unfold Learning.record
      rw [hdata]
      exact if_pos httl
    rw [hrecord, hkey]
    exact goodbye_gone h key
  | pointer target cls httl hdata hkey hcls hallow =>
    have hrecord : l.record now rr = l.goodbye (norm target) := by
      unfold Learning.record
      rw [hdata]
      show l.pointer rr target = _
      unfold Learning.pointer
      rw [hcls]
      exact (if_neg (not_not.mpr hallow)).trans (if_pos httl)
    rw [hrecord, hkey]
    exact goodbye_gone h key

/-- A record that does not announce the instance gives it no place. -/
theorem record_unplaced (now : Int) (hother : ¬ Announces key rr) (h : Unplaced key l.rule) :
    Unplaced key (l.record now rr).rule := by
  refine record_rule (I := fun l => Unplaced key l.rule) now (fun _ _ _ h1 => h1) (fun l1 name _ h1 => ?_)
    (fun l1 k change changed hchange h1 => ?_) (fun l1 k h1 => goodbye_unplaced h1) h
  · exact ensure_unplaced name h1
  · refine update_unplaced (fun hk i i' hi => ?_) h1
    obtain ⟨-, hport, hannounces | hplace⟩ := hchange i i' hi
    · exact absurd hannounces (hk ▸ hother)
    · exact ⟨hplace.1, hport⟩

/-- An instance without a place is not published. -/
theorem publish_unplaced (now : Int) (subnet : List Prefix) (k : String) (h : Unplaced key l.rule) :
    Unplaced key (l.publish now subnet k).rule := by
  unfold Learning.publish
  split
  · exact h
  · rename_i i hget
    split
    · exact h
    · split
      · exact h
      · rename_i hready
        rw [not_or] at hready
        split
        · exact h
        · split
          · have hk : key ≠ k := by
              intro heq
              rw [← heq] at hget
              exact hready.2 (h i hget).1
            dsimp only
            split
            · intro j hj
              dsimp only at hj
              rw [Bucket.get_put_of_ne _ hk] at hj
              exact h j hj
            · intro j hj
              dsimp only at hj
              rw [Bucket.get_put_of_ne _ hk] at hj
              exact h j hj
          · exact h

theorem records_unplaced (now : Int) {rrs : List RR} (hothers : ∀ rr ∈ rrs, ¬ Announces key rr)
    (h : Unplaced key l.rule) : Unplaced key (rrs.foldl (Learning.record now) l).rule := by
  induction rrs generalizing l with
  | nil => exact h
  | cons rr rrs ih =>
    exact ih (fun x hx => hothers x (mem_cons_of_mem _ hx))
      (record_unplaced now (hothers rr mem_cons_self) h)

theorem publishes_unplaced (now : Int) (subnet : List Prefix) (keys : List String) (h : Unplaced key l.rule) :
    Unplaced key (keys.foldl (Learning.publish now subnet) l).rule := by
  induction keys generalizing l with
  | nil => exact h
  | cons k keys ih => exact ih (publish_unplaced now subnet k h)

end Withdrawing

/-- A message withdraws the instance under a key: it says goodbye to it, and no record after that gives
it a place again. -/
def Withdraws (n : NatRule) (m : Msg) (key : String) : Prop :=
  ∃ before rr after, m.all = before ++ rr :: after ∧ Goodbye n.f key rr ∧ ∀ x ∈ after, ¬ Announces key x

/-- What a message withdraws is not published after it. -/
theorem learn_withdraws (h : Ordered n pool) (now : Int) (subnet : List Prefix) (order : Order) {m : Msg}
    (hm : SelfKeyedMsg n m) (hwithdraws : Withdraws n m key) :
    Unplaced key (n.learn pool now subnet order m).rule := by
  obtain ⟨before, rr, after, hall, hgoodbye, hafter⟩ := hwithdraws
  -- Up to the goodbye the rule is kept in order.
  have hbefore : Learned { rule := n, pool := pool } (before.foldl (Learning.record now) { rule := n, pool := pool }) :=
    records_learned now (fun x hx => hm x (by rw [hall]; exact mem_append_left _ hx)) h
  -- After it nothing gives the instance a place.
  have hend : Unplaced key (m.all.foldl (Learning.record now) { rule := n, pool := pool }).rule := by
    rw [hall, foldl_append, foldl_cons]
    refine records_unplaced now hafter (record_goodbye hbefore.ordered now ?_)
    rw [hbefore.filter]
    exact hgoodbye
  exact publishes_unplaced now subnet _ hend

/-! ### Expiry -/

section Expiring

variable (now : Int) {n : NatRule} {pool : Ports} (changed : Bool)

/-- The instance has lapsed. -/
def Lapsed (now : Int) (i : NatInstance) : Prop := ∃ t, i.expires = some t ∧ ¬ now < t

/-- One instance of the sweep: it goes if it has lapsed. -/
theorem expireOne_advance (h : Ordered n pool) (key : String) :
    Advance n pool (NatRule.expireOne now (n, pool, changed) key).1
        (NatRule.expireOne now (n, pool, changed) key).2.1 ∧
      (∀ i, (NatRule.expireOne now (n, pool, changed) key).1.insts.get key = some i → ¬ Lapsed now i) ∧
      ∀ k i, (NatRule.expireOne now (n, pool, changed) key).1.insts.get k = some i → n.insts.get k = some i := by
  unfold NatRule.expireOne
  dsimp only
  cases hget : n.insts.get key with
  | none =>
    refine ⟨Advance.refl h, fun i hi => ?_, fun k i => id⟩
    dsimp only at hi
    rw [hget] at hi
    cases hi
  | some i =>
    simp only
    cases hexpires : i.expires with
    | none =>
      refine ⟨Advance.refl h, fun j hj => ?_, fun k i => id⟩
      dsimp only at hj
      rw [hget] at hj
      cases hj
      intro hlapsed
      obtain ⟨t, ht, -⟩ := hlapsed
      rw [hexpires] at ht
      cases ht
    | some =>
      simp only
      split
      · rename_i hlater
        refine ⟨Advance.refl h, fun j hj => ?_, fun k i => id⟩
        dsimp only at hj
        rw [hget] at hj
        cases hj
        intro hlapsed
        obtain ⟨t', ht, hnot⟩ := hlapsed
        rw [hexpires] at ht
        cases ht
        exact hnot hlater
      · refine ⟨Advance.drop h hget, fun j hj => ?_, fun k j hj => (drop_get hj).2⟩
        exact absurd (h.filed.keyed key i hget).symm (drop_get hj).1

theorem expires_advance (keys : List String) (h : Ordered n pool) :
    Advance n pool (keys.foldl (NatRule.expireOne now) (n, pool, changed)).1
        (keys.foldl (NatRule.expireOne now) (n, pool, changed)).2.1 ∧
      (∀ k ∈ keys, ∀ i, (keys.foldl (NatRule.expireOne now) (n, pool, changed)).1.insts.get k = some i →
        ¬ Lapsed now i) ∧
      ∀ k i, (keys.foldl (NatRule.expireOne now) (n, pool, changed)).1.insts.get k = some i →
        n.insts.get k = some i := by
  induction keys generalizing n pool changed with
  | nil => exact ⟨Advance.refl h, fun k hk => absurd hk not_mem_nil, fun k i => id⟩
  | cons key keys ih =>
    obtain ⟨hfirst, hkept, hsub⟩ := expireOne_advance now changed h key
    rw [foldl_cons]
    generalize NatRule.expireOne now (n, pool, changed) key = s at hfirst hkept hsub ⊢
    obtain ⟨n', pool', changed'⟩ := s
    obtain ⟨hrest, hgone, hsub'⟩ := ih changed' hfirst.ordered
    refine ⟨hfirst.trans hrest, fun k hk i hget => ?_, fun k i hget => hsub k i (hsub' k i hget)⟩
    rcases mem_cons.mp hk with rfl | hk
    · exact hkept i (hsub' k i hget)
    · exact hgone k hk i hget

end Expiring

/-- `expire` keeps the rule in order and leaves no instance that has lapsed. -/
theorem expire_advance (h : Ordered n pool) (now : Int) (order : Order) :
    Advance n pool (n.expire pool now order).1 (n.expire pool now order).2.1 ∧
      ∀ k i, (n.expire pool now order).1.insts.get k = some i → n.insts.get k = some i ∧ ¬ Lapsed now i := by
  obtain ⟨hadvance, hgone, hsub⟩ := expires_advance now false
    (order.1 (n.insts.entries.map (·.1))) h
  refine ⟨hadvance.trans (Advance.of_insts hadvance.ordered rfl rfl rfl), fun k i hget => ?_⟩
  refine ⟨hsub k i hget, hgone k ?_ i hget⟩
  -- Every key of the map is visited.
  rw [(order.2 _).mem_iff]
  exact mem_map.mpr ⟨(k, i), Bucket.mem_entries.mpr (hsub k i hget), rfl⟩

/-! ### The rules of an interface -/

/-- The instance is published by a rule, under a key. -/
def Publishes (s : Publishing) (rule : Nat) (key : String) (i : NatInstance) : Prop :=
  ∃ n, s.rules[rule]? = some n ∧ n.insts.get key = some i ∧ i ∈ n.published

/-- Rules that cannot have an owner in common. -/
structure Apart (rules : List NatRule) : Prop where
  sources : ∀ (j j' : Nat) (n n' : NatRule), rules[j]? = some n → rules[j']? = some n' → j ≠ j' →
    n.source.name ≠ n'.source.name ∨ Disjoint n.f.allow n'.f.allow
  bars : ∀ (j : Nat) (n : NatRule), rules[j]? = some n → '|' ∉ n.source.name.toList

/-- The names in the event are filed under the keys that are computed from them. -/
def SelfKeyedEvent (s : Publishing) : NatEvent → Prop
  | .learn rule _ _ _ m => ∀ n, s.rules[rule]? = some n → SelfKeyedMsg n m
  | .expire _ _ _ => True

/-- So are those in all events. -/
def SelfKeyedRun : Publishing → List NatEvent → Prop
  | _, [] => True
  | s, event :: events => SelfKeyedEvent s event ∧ SelfKeyedRun (s.step event) events

/-- Every rule is in order, with its ports recorded in the pool. -/
structure Orderly (s : Publishing) : Prop where
  apart : Apart s.rules
  filed : ∀ (j : Nat) n, s.rules[j]? = some n → Filed n
  recorded : ∀ (j : Nat) n, s.rules[j]? = some n → Recorded n s.pool

theorem mem_published :
    i ∈ n.published ↔ (∃ k, n.insts.get k = some i) ∧ i.hostPort ≠ 0 ∧ i.ip.isSome = true := by
  unfold NatRule.published
  rw [mem_insertionSort, mem_filter, mem_map, Bool.and_eq_true_iff, decide_eq_true_eq]
  refine and_congr_left fun _ => ?_
  constructor
  · intro h
    obtain ⟨⟨k, j⟩, hentry, rfl⟩ := h
    exact ⟨k, Bucket.mem_entries.mp hentry⟩
  · intro h
    obtain ⟨k, hget⟩ := h
    exact ⟨(k, i), Bucket.mem_entries.mpr hget, rfl⟩

section Runs

variable {s : Publishing}

theorem Orderly.ordered (h : Orderly s) {j : Nat} (hn : s.rules[j]? = some n) : Ordered n s.pool :=
  ⟨h.filed j n hn, h.recorded j n hn⟩

/-- The owners of one rule are not those of another. -/
theorem Orderly.not_owns (h : Orderly s) {j j' : Nat} (hn : s.rules[j]? = some n) (hn' : s.rules[j']? = some n')
    (hne : j ≠ j') (hget : n'.insts.get k = some i) : ¬ Owns n (ownerOf n' k) := by
  intro howns
  obtain ⟨k2, cls, howner, hcls, hallow⟩ := howns
  obtain ⟨hname, rfl⟩ := ownerOf_inj (h.apart.bars j' n' hn') (h.apart.bars j n hn) howner
  obtain ⟨cls', hcls', hallow'⟩ := (h.filed j' n' hn').classed k i hget
  rw [hcls, Option.some.injEq] at hcls'
  rcases h.apart.sources j j' n n' hn hn' hne with hsource | hdisjoint
  · exact hsource hname.symm
  · exact Finset.disjoint_left.mp hdisjoint hallow (hcls' ▸ hallow')

/-- What one rule does keeps all rules in order. -/
theorem Orderly.advance (h : Orderly s) {j : Nat} (hn : s.rules[j]? = some n)
    (hadvance : Advance n s.pool n' pool') : Orderly ⟨s.rules.set j n', pool'⟩ := by
  -- A rule of the new list is the one that has changed, or an old one at another place.
  have hrules : ∀ {k m}, (s.rules.set j n')[k]? = some m → (k = j ∧ m = n') ∨ (k ≠ j ∧ s.rules[k]? = some m) := by
    intro k m hm
    rw [List.getElem?_set] at hm
    split at hm
    · rename_i hk
      split at hm
      · exact Or.inl ⟨hk.symm, (Option.some.inj hm).symm⟩
      · cases hm
    · rename_i hk
      exact Or.inr ⟨Ne.symm hk, hm⟩
  -- What the rules read and where has not changed.
  have hsame : ∀ {k : Nat} {m : NatRule}, (s.rules.set j n')[k]? = some m →
      ∃ m0 : NatRule, s.rules[k]? = some m0 ∧ m.f = m0.f ∧ m.source = m0.source := by
    intro k m hm
    rcases hrules hm with ⟨rfl, rfl⟩ | ⟨-, hm⟩
    · exact ⟨n, hn, hadvance.filter, hadvance.source⟩
    · exact ⟨m, hm, rfl, rfl⟩
  refine ⟨⟨fun k k' m m' hm hm' hne => ?_, fun k m hm => ?_⟩, fun k m hm => ?_, fun k m hm => ?_⟩
  · obtain ⟨m0, hm0, hf, hs⟩ := hsame hm
    obtain ⟨m0', hm0', hf', hs'⟩ := hsame hm'
    rw [hf, hf', hs, hs']
    exact h.apart.sources k k' m0 m0' hm0 hm0' hne
  · obtain ⟨m0, hm0, -, hs⟩ := hsame hm
    rw [hs]
    exact h.apart.bars k m0 hm0
  · rcases hrules hm with ⟨rfl, rfl⟩ | ⟨-, hm⟩
    · exact hadvance.filed
    · exact h.filed k m hm
  · rcases hrules hm with ⟨rfl, rfl⟩ | ⟨hk, hm⟩
    · exact hadvance.recorded
    · intro key i hget hport
      exact hadvance.spares _ _ (h.recorded k m hm key i hget hport) (h.not_owns hn hm (Ne.symm hk) hget)

theorem Orderly.step (h : Orderly s) {event : NatEvent} (hevent : SelfKeyedEvent s event) :
    Orderly (s.step event) := by
  cases event with
  | learn rule now subnet order =>
    unfold Publishing.step
    dsimp only
    split
    · exact h
    · rename_i n hn
      exact h.advance hn (learn_advance (h.ordered hn) now subnet order (hevent n hn))
  | expire rule now order =>
    unfold Publishing.step
    dsimp only
    split
    · exact h
    · rename_i n hn
      exact h.advance hn (expire_advance (h.ordered hn) now order).1

theorem Orderly.run (h : Orderly s) {events : List NatEvent} (hevents : SelfKeyedRun s events) :
    Orderly (events.foldl Publishing.step s) := by
  induction events generalizing s with
  | nil => exact h
  | cons event events ih => exact ih (h.step hevents.1) hevents.2

/-- A port that is published has one rule and one key. -/
theorem Orderly.exclusive (h : Orderly s) {j j' : Nat} {k' : String} {i' : NatInstance} (hi : Publishes s j k i)
    (hi' : Publishes s j' k' i') (hport : i.hostPort = i'.hostPort) : j = j' ∧ k = k' := by
  obtain ⟨n, hn, hget, hpub⟩ := hi
  obtain ⟨n', hn', hget', hpub'⟩ := hi'
  have hrecorded := h.recorded j n hn k i hget (mem_published.mp hpub).2.1
  have hrecorded' := h.recorded j' n' hn' k' i' hget' (mem_published.mp hpub').2.1
  rw [hport, hrecorded', Option.some.injEq] at hrecorded
  obtain ⟨cls, hcls, hallow⟩ := (h.filed j n hn).classed k i hget
  by_cases hj : j = j'
  · subst hj
    rw [hn, Option.some.injEq] at hn'
    subst hn'
    exact ⟨rfl, (ownerOf_inj_key hrecorded).symm⟩
  · exact absurd ⟨k, cls, hrecorded, hcls, hallow⟩ (h.not_owns hn hn' hj hget')

end Runs

/-! ### The planned rules -/

theorem addPair_nats {rule : ReflectRule} {pl' : Plan} {ends : Interface × Interface}
    (h : Plan.addPair rule pl ends = .ok pl') (hpl : ∀ n ∈ pl.nats, n.insts = .empty) :
    ∀ n ∈ pl'.nats, n.insts = .empty := by
  unfold Plan.addPair at h
  split at h
  · rw [← pure_eq_ok.mp h]
    exact hpl
  · split at h
    · rw [← pure_eq_ok.mp h]
      exact hpl
    · obtain ⟨n, hn, h⟩ := bind_eq_ok.mp h
      rw [← pure_eq_ok.mp h]
      obtain ⟨range, -, hn⟩ := bind_eq_ok.mp hn
      intro n' hn'
      rcases mem_append.mp hn' with hmem | hmem
      · exact hpl n' hmem
      · rw [mem_singleton.mp hmem, ← pure_eq_ok.mp hn]

/-- A planned rule has learned nothing yet. -/
theorem planRules_nats {glob : String → String → Option Bool} {cfg : Config} {all : List Interface}
    (h : planRules glob cfg all = .ok pl) : ∀ n ∈ pl.nats, n.insts = .empty := by
  unfold planRules at h
  obtain ⟨pl0, hadvertised, hrules⟩ := bind_eq_ok.mp h
  have hempty : ∀ n ∈ ({} : Plan).nats, n.insts = .empty := fun n hn => absurd hn not_mem_nil
  have hpl0 : ∀ n ∈ pl0.nats, n.insts = .empty := by
    unfold Plan.advertised at hadvertised
    split at hadvertised
    · refine foldlM_invariant (I := fun pl => ∀ n ∈ pl.nats, n.insts = .empty) (fun name _ pl pl' hpl hstep => ?_)
        hempty hadvertised
      unfold Plan.addAdvertised at hstep
      obtain ⟨found, -, hstep⟩ := bind_eq_ok.mp hstep
      split at hstep
      · rw [← pure_eq_ok.mp hstep]
        exact hpl
      · rw [← pure_eq_ok.mp hstep]
        exact hpl
    · rw [← pure_eq_ok.mp hadvertised]
      exact hempty
  refine foldlM_invariant (I := fun pl => ∀ n ∈ pl.nats, n.insts = .empty) (fun rule _ pl pl' hpl hstep => ?_) hpl0
    hrules
  unfold Plan.addRule at hstep
  obtain ⟨froms, -, hstep⟩ := bind_eq_ok.mp hstep
  obtain ⟨tos, -, hstep⟩ := bind_eq_ok.mp hstep
  exact foldlM_invariant (I := fun pl => ∀ n ∈ pl.nats, n.insts = .empty)
    (fun ends _ pl pl' hpl h => addPair_nats h hpl) hpl hstep

/-- The rules start in order. -/
theorem publishing_orderly {glob : String → String → Option Bool} {cfg : Config} {all : List Interface}
    (hplan : planRules glob cfg all = .ok pl) {index : Int} (hapart : Apart (pl.publishing index).rules) :
    Orderly (pl.publishing index) := by
  have hempty : ∀ (j : Nat) n, (pl.publishing index).rules[j]? = some n → n.insts = .empty := fun j n hn =>
    planRules_nats hplan n (mem_filter.mp (mem_of_getElem? hn)).1
  refine ⟨hapart, fun j n hn => ⟨fun k i hget => ?_, fun k i hget => ?_⟩, fun j n hn k i hget => ?_⟩
  · rw [hempty j n hn] at hget
    cases hget
  · rw [hempty j n hn] at hget
    cases hget
  · rw [hempty j n hn] at hget
    cases hget

/-- A container bridge, another one, and the network that their services are published on. -/
def bridge : Interface := ⟨10, "ctr0", true, true⟩

def lan : Interface := ⟨1, "lan0", true, true⟩

/-- The services of the bridge are published with a single port. -/
def oneRule : Config where
  reflect := [{ fromEnd := "ctr0", toEnd := "lan0", advertise := some ⟨["_ipp._tcp"], "20000-20000"⟩ }]

/-- The bridge is named twice, once by a pattern. -/
def twoRules : Config where
  reflect :=
    [{ fromEnd := "ctr0", toEnd := "lan0", advertise := some ⟨["_ipp._tcp"], "20000-20000"⟩ },
     { fromEnd := "ctr*", toEnd := "lan0", advertise := some ⟨["_ipp._tcp"], "20000-20000"⟩ }]

/-- The pattern of the second rule matches the bridge. -/
def bridgeGlob (pattern name : String) : Option Bool := some (pattern = "ctr*" && name = "ctr0")

def inOrder : Order := ⟨id, fun _ => List.Perm.refl _⟩

def bridgeSubnet : List Prefix := (parsePrefix "10.90.0.0/24").toList

/-- A host announces an instance with its service record and its address. -/
def announcement (name host : String) (ip : BitVec 32) : Msg where
  response := true
  answer := [{ name := name, rrtype := .srv, ttl := 120, data := .srv 631 host },
    { name := host, rrtype := .a, ttl := 120, data := .a (some ip) }]

def farewell (name : String) : Msg where
  response := true
  answer := [{ name := name, rrtype := .srv, ttl := 0, data := .srv 631 "" }]

/-- The plan of a configuration on these interfaces, after responses at rules. -/
def bridgeRun (cfg : Config) (msgs : List (Nat × Msg)) : Option Publishing :=
  (planRules bridgeGlob cfg [bridge, lan]).toOption.map fun pl =>
    (msgs.map fun m => NatEvent.learn m.1 0 bridgeSubnet inOrder m.2).foldl Publishing.step (pl.publishing 1)

/-- The names under which instances are published, with their ports, rule by rule. -/
def publishedNames (s : Publishing) : List (List (String × Nat)) :=
  s.rules.map fun n => (n.insts.entries.filter fun e => e.2 ∈ n.published).map fun e => (e.1, e.2.hostPort)

/-- The names of the example are filed under their keys. -/
theorem den_selfKeyed (n : NatRule) : SelfKeyed n "Den._ipp._tcp.local." := by
  intro cls _ hcls
  have hclass : classOf "Den._ipp._tcp.local." = some "_ipp._tcp" := by decide
  rw [hclass, Option.some.injEq] at hcls
  subst hcls
  decide

end Ghostd.Proofs.Mdns
