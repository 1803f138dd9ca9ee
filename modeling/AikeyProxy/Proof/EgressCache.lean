import AikeyProxy.Lib.Run
import Mathlib.Logic.Equiv.Basic
import AikeyProxy.Proxy.EgressCache

/-!
# Who closes a dialer

A running dialer has one owner: the cache, or the one call that has built it or has taken it out
and is to close it. So it is closed once. A lookup holds an entry without owning it, and what it
returns is open if entries are only taken out while no lookup holds them.
-/

namespace AikeyProxy.Proxy

open Lib EgressCache EgressPc Function

variable {c c' : EgressCache} {act : EgressAct} {t id : Nat} {pc : EgressPc} {spec : String}

/-- The entry that only this call may close. -/
def EgressPc.owned? : EgressPc → Option Nat
  | .built _ id | .closing id _ => some id
  | _ => none

def EgressPc.held? : EgressPc → Option Nat
  | .found id | .returning id => some id
  | .closing _ next => next.held?
  | _ => none

section

variable (c : EgressCache)

/-- What the cache owns under a spec, and what a call owns. -/
def EgressCache.owns : String ⊕ Nat → Option Nat
  | .inl spec => c.transports spec
  | .inr t => (c.calls t).owned?

structure EgressPc.Ok (next : Nat) (pc : EgressPc) : Prop where
  held : ∀ id, pc.held? = some id → id < next
  /-- What a call does after closing is not to own something again. -/
  after : ∀ id pc', pc = .closing id pc' → pc'.owned? = none

structure EgressInv (c : EgressCache) : Prop where
  alone : ∀ o o' id, c.owns o = some id → c.owns o' = some id → o = o'
  owned : ∀ o id, c.owns o = some id → id < c.next ∧ (c.entries id).closes = 0
  calls : ∀ t, (c.calls t).Ok c.next
  entries : ∀ id, (c.entries id).closes = 0 ∨
    (c.entries id).closes = 1 ∧ (c.entries id).built = .group
  running : ∀ id, id < c.next → (c.entries id).built = .group → (c.entries id).closes = 0 →
    ∃ o, c.owns o = some id

def EgressCache.Free (id : Nat) : Prop :=
  (c.entries id).built = .group → ∀ t, (c.calls t).held? ≠ some id

/-- The groups that lookups hold are in the cache. -/
def HeldCached : Prop :=
  ∀ t id, (c.calls t).held? = some id → (c.entries id).built = .group →
    ∃ spec, c.transports spec = some id

theorem owns_empty (o : String ⊕ Nat) : emptyEgress.owns o = none := by
  cases o <;> rfl

theorem egressInv_empty : EgressInv emptyEgress where
  alone o _ _ ho := by rw [owns_empty] at ho; cases ho
  owned o _ ho := by rw [owns_empty] at ho; cases ho
  calls _ := ⟨nofun, nofun⟩
  entries _ := .inl rfl
  running := nofun

theorem owns_setCall (t : Nat) (pc : EgressPc) :
    (c.setCall t pc).owns = update c.owns (.inr t) pc.owned? := by
  funext o
  cases o with
  | inl spec => rfl
  | inr u =>
    exact (apply_update (fun _ => owned?) c.calls t pc u).trans (by simp [update_apply, owns])

theorem owns_setTransport (spec : String) (x : Option Nat) :
    (c.setTransport spec x).owns = update c.owns (.inl spec) x := by
  funext o
  cases o with
  | inl spec' => simp [update_apply, owns, setTransport]
  | inr u => rfl

end

theorem EgressInv.setCalls (h : EgressInv c) (hpc : pc.Ok c.next) (t u : Nat) :
    (update c.calls t pc u).Ok c.next :=
  (forall_update_iff c.calls fun _ => EgressPc.Ok c.next).mpr ⟨hpc, fun u _ => h.calls u⟩ u

/-- What is owned changes hands. -/
theorem EgressInv.transfer (h : EgressInv c) (e : Equiv.Perm (String ⊕ Nat))
    (howns : c'.owns = c.owns ∘ e) (hentries : ∀ i, (c'.entries i).closes = (c.entries i).closes ∧
      (c'.entries i).built = (c.entries i).built) (hnext : c'.next = c.next)
    (hcalls : ∀ t, (c'.calls t).Ok c.next) : EgressInv c' := by
  refine ⟨?_, ?_, hnext ▸ hcalls, ?_, ?_⟩ <;> simp only [hentries, howns, hnext]
  · exact fun o o' id ho ho' => e.injective (h.alone _ _ id ho ho')
  · exact fun o => h.owned (e o)
  · exact h.entries
  · intro id hlt hgroup hopen
    obtain ⟨o, ho⟩ := h.running id hlt hgroup hopen
    exact ⟨e.symm o, by rw [comp_apply, e.apply_symm_apply, ho]⟩

theorem EgressInv.setCall (h : EgressInv c) (hpc : pc.Ok c.next)
    (howned : pc.owned? = (c.calls t).owned?) : EgressInv (c.setCall t pc) := by
  refine h.transfer (.refl _) ?_ (fun _ => ⟨rfl, rfl⟩) rfl (h.setCalls hpc t)
  rw [owns_setCall, howned]
  exact update_eq_self (.inr t) c.owns

theorem EgressInv.waits (h : EgressInv c) (hpc : pc.held? = none ∧ pc.owned? = none)
    (ht : (c.calls t).owned? = none) : EgressInv (c.setCall t pc) := by
  refine h.setCall ⟨?_, ?_⟩ (hpc.2.trans ht.symm)
  · rw [hpc.1]
    exact nofun
  · rintro i pc' rfl
    cases hpc.2

theorem EgressInv.swap {x : Option Nat} (h : EgressInv c) (hpc : pc.Ok c.next)
    (hgiven : (c.calls t).owned? = x) (howned : pc.owned? = c.transports spec) :
    EgressInv ((c.setTransport spec x).setCall t pc) := by
  refine h.transfer (.swap (.inr t) (.inl spec)) ?_ (fun _ => ⟨rfl, rfl⟩) rfl (h.setCalls hpc t)
  rw [owns_setCall, owns_setTransport, Equiv.comp_swap_eq_update, howned, ← hgiven]
  rfl

theorem EgressInv.touch (h : EgressInv c) (id : Nat) (now : Int) :
    EgressInv (c.setEntry id { c.entries id with lastUsedUnix := now }) :=
  h.transfer (.refl _) rfl
    ((forall_update_iff c.entries fun i e =>
      e.closes = (c.entries i).closes ∧ e.built = (c.entries i).built).mpr
      ⟨⟨rfl, rfl⟩, fun _ _ => ⟨rfl, rfl⟩⟩) rfl h.calls

/-- The entry `id`, which nobody but `o` owns, is made or closed. -/
theorem EgressInv.setEntry {o : String ⊕ Nat} {x : Option Nat} {e : AccountEgressEntry}
    (h : EgressInv c) (howns : c'.owns = update c.owns o x)
    (hentries : c'.entries = update c.entries id e) (hcalls : ∀ t, (c'.calls t).Ok c'.next)
    (hle : c.next ≤ c'.next) (hnext : ∀ i, i < c'.next → i ≠ id → i < c.next)
    (hid : ∀ o', c.owns o' = some id → o' = o) (ho : ∀ i, c.owns o = some i → i = id)
    (hx : ∀ i, x = some i → i = id ∧ i < c'.next ∧ e.closes = 0)
    (he : e.closes = 0 ∨ e.closes = 1 ∧ e.built = .group)
    (hrun : e.built = .group → e.closes = 0 → x = some id) : EgressInv c' := by
  have howner : ∀ a i, c'.owns a = some i → a = o ∧ x = some i ∨ c.owns a = some i ∧ i ≠ id := by
    intro a i ha
    rw [howns] at ha
    by_cases heq : a = o
    · rw [heq, update_self] at ha
      exact .inl ⟨heq, ha⟩
    · rw [update_of_ne heq] at ha
      exact .inr ⟨ha, fun hi => heq (hid a (hi ▸ ha))⟩
  refine ⟨fun a b i ha hb => ?_, fun a i ha => ?_, hcalls, ?_, ?_⟩ <;> try rw [hentries]
  · obtain ⟨rfl, hxa⟩ | ⟨ha, hna⟩ := howner a i ha <;>
      obtain ⟨rfl, hxb⟩ | ⟨hb, hnb⟩ := howner b i hb
    · rfl
    · exact absurd (hx i hxa).1 hnb
    · exact absurd (hx i hxb).1 hna
    · exact h.alone a b i ha hb
  · obtain ⟨-, hxa⟩ | ⟨ha, hne⟩ := howner a i ha
    · obtain ⟨rfl, hlt, hopen⟩ := hx i hxa
      rw [update_self]
      exact ⟨hlt, hopen⟩
    · rw [update_of_ne hne]
      exact (h.owned a i ha).imp_left fun hlt => Nat.lt_of_lt_of_le hlt hle
  · exact (forall_update_iff c.entries
      fun _ e => e.closes = 0 ∨ e.closes = 1 ∧ e.built = .group).mpr ⟨he, fun i _ => h.entries i⟩
  · rw [howns]
    intro i hi hgroup hopen
    by_cases hne : i = id
    · subst hne
      rw [update_self] at hgroup hopen
      exact ⟨o, by rw [update_self, hrun hgroup hopen]⟩
    · rw [update_of_ne hne] at hgroup hopen
      obtain ⟨a, ha⟩ := h.running i (hnext i hi hne) hgroup hopen
      refine ⟨a, ?_⟩
      rwa [update_of_ne]
      rintro rfl
      exact hne (ho i ha)

theorem EgressInv.build (h : EgressInv c) (ht : c.calls t = .missed spec) (result : BuiltEgress)
    (now : Int) :
    EgressInv { (c.setEntry c.next ⟨result, now, 0⟩).setCall t (.built spec c.next) with
      next := c.next + 1 } := by
  have hpc : (EgressPc.built spec c.next).Ok c.next := ⟨nofun, nofun⟩
  have hcalls := h.setCalls hpc t
  refine h.setEntry (owns_setCall c t _) rfl
    (fun u => { hcalls u with held := fun i hi => Nat.lt_succ_of_lt ((hcalls u).held i hi) })
    (Nat.le_succ _) (fun i (hi : i < c.next + 1) hne => by omega) ?_ ?_ ?_ (.inl rfl) fun _ _ => rfl
  · exact fun o ho => absurd (h.owned o _ ho).1 (Nat.lt_irrefl _)
  · rw [owns, ht]
    exact nofun
  · rintro i ⟨⟩
    exact ⟨rfl, Nat.lt_succ_self _, rfl⟩

theorem EgressInv.close (h : EgressInv c) (ht : c.calls t = .closing id pc) :
    EgressInv ((c.setEntry id (c.entries id).close).setCall t pc) := by
  have hid : c.owns (.inr t) = some id := by rw [owns, ht]; rfl
  have hopen := (h.owned _ id hid).2
  have hnone := (h.calls t).after id pc ht
  have hheld : ∀ i, pc.held? = some i → i < c.next := by
    have hheld := (h.calls t).held
    rwa [ht] at hheld
  refine h.setEntry (owns_setCall c t pc) rfl (h.setCalls ⟨hheld, ?_⟩ t) (Nat.le_refl _)
    (fun i hi _ => hi) (fun o ho => h.alone o _ id ho hid)
    (fun i hi => Option.some.inj (hi.symm.trans hid)) ?_ ?_ ?_
  · rintro i pc' rfl
    cases hnone
  · rw [hnone]
    exact nofun
  all_goals
    unfold AccountEgressEntry.close
    split
  next hgroup => exact .inr ⟨congrArg (· + 1) hopen, hgroup⟩
  next => exact .inl hopen
  · exact nofun
  next hplain => exact fun hgroup => absurd hgroup hplain

theorem EgressInv.step (h : EgressInv c) (hs : egressStep c act = some c') : EgressInv c' := by
  have hcached : ∀ {spec id}, c.transports spec = some id → ∀ i, some id = some i → i < c.next := by
    rintro spec id htr i ⟨⟩
    exact (h.owned (.inl spec) id htr).1
  revert hs
  fun_cases egressStep c act <;> intro hs <;> cases hs
  case case1 ht id htr => exact h.setCall ⟨hcached htr, nofun⟩ (by rw [ht]; rfl)
  case case4 ht => exact h.build ht _ _
  case case6 ht id htr => exact h.setCall ⟨hcached htr, by rintro i pc ⟨⟩; rfl⟩ (by rw [ht]; rfl)
  case case7 t spec id ht htr =>
    have hgiven : (c.calls t).owned? = some id := by rw [ht]; rfl
    refine h.swap ⟨?_, nofun⟩ hgiven htr.symm
    rintro i ⟨⟩
    exact (h.owned (.inr t) id hgiven).1
  case case9 t now id ht =>
    have hok := h.calls t
    rw [ht] at hok
    exact (h.touch id now).setCall ⟨hok.held, nofun⟩ (congrArg owned? ht).symm
  case case13 ht _ htr | case22 ht htr =>
    exact h.swap ⟨nofun, by rintro i pc ⟨⟩; rfl⟩ (by rw [ht]; rfl) htr.symm
  case case14 => exact h
  case case20 ht => exact h.waits (by split <;> exact ⟨rfl, rfl⟩) (by rw [ht]; rfl)
  case case27 ht => exact h.close ht
  case case2 ht _ | case11 ht | case16 ht | case18 ht | case23 ht _ | case25 ht =>
    exact h.waits ⟨rfl, rfl⟩ (by rw [ht]; rfl)

/-- An eviction or a sweep takes a group out only while no lookup holds it. -/
def EgressStepOk (c : EgressCache) : EgressAct → Prop
  | .evict _ spec => ∀ id, c.transports spec = some id → c.Free id
  | .compareAndDelete t => ∀ cutoff spec id, c.calls t = .judged cutoff spec id → c.Free id
  | _ => True

theorem HeldCached.setCall (h : HeldCached c)
    (hpc : ∀ id, pc.held? = some id → (c.entries id).built = .group →
      ∃ spec, c.transports spec = some id) : HeldCached (c.setCall t pc) :=
  (forall_update_iff c.calls fun _ pc => ∀ id, pc.held? = some id →
    (c.entries id).built = .group → ∃ spec, c.transports spec = some id).mpr ⟨hpc, fun u _ => h u⟩

theorem HeldCached.setEntry {e : AccountEgressEntry} (h : HeldCached c)
    (he : e.built = (c.entries id).built ∨ ∀ t, (c.calls t).held? ≠ some id) :
    HeldCached (c.setEntry id e) := by
  intro t i hheld hgroup
  refine h t i hheld ?_
  by_cases hi : i = id
  · subst hi
    exact (he.resolve_right fun hnot => hnot t hheld) ▸
      (congrArg AccountEgressEntry.built (update_self ..)).symm.trans hgroup
  · exact (congrArg AccountEgressEntry.built (update_of_ne hi ..)).symm.trans hgroup

theorem HeldCached.setTransport (h : HeldCached c)
    (hfree : ∀ id, c.transports spec = some id → c.Free id) (x : Option Nat) :
    HeldCached (c.setTransport spec x) := by
  intro t i hheld hgroup
  obtain ⟨spec', hi⟩ := h t i hheld hgroup
  have hne : spec' ≠ spec := by
    rintro rfl
    exact hfree i hi hgroup t hheld
  exact ⟨spec', (update_of_ne hne ..).trans hi⟩

theorem heldCached_step (hinv : EgressInv c) (h : HeldCached c) (hok : EgressStepOk c act)
    (hs : egressStep c act = some c') : HeldCached c' := by
  revert hs
  fun_cases egressStep c act <;> intro hs <;> cases hs
  case case1 spec _ id htr | case6 spec _ _ id htr =>
    exact h.setCall (by rintro i ⟨⟩ _; exact ⟨spec, htr⟩)
  case case4 =>
    have hnew : ∀ t, (c.calls t).held? ≠ some c.next := fun t ht =>
      Nat.lt_irrefl _ ((hinv.calls t).held _ ht)
    exact (h.setEntry (.inr hnew)).setCall nofun
  case case7 spec id ht htr =>
    refine (h.setTransport (by rw [htr]; exact nofun) (some id)).setCall ?_
    rintro i ⟨⟩ _
    exact ⟨spec, update_self ..⟩
  case case9 t now id ht =>
    have hheld := h t
    rw [ht] at hheld
    have hcall : HeldCached (c.setCall t (.returning id)) := h.setCall hheld
    exact hcall.setEntry (.inl rfl)
  case case13 => exact (h.setTransport hok none).setCall nofun
  case case14 => exact h
  case case20 => exact h.setCall (by split <;> exact nofun)
  case case22 cutoff spec id ht htr =>
    refine (h.setTransport (fun i hi => ?_) none).setCall nofun
    exact Option.some.inj (htr.symm.trans hi) ▸ hok cutoff spec id ht
  case case27 t id pc ht =>
    have hbuilt : (c.entries id).close.built = (c.entries id).built := by
      unfold AccountEgressEntry.close
      split <;> rfl
    have hheld := h t
    rw [ht] at hheld
    have hcall : HeldCached (c.setCall t pc) := h.setCall hheld
    exact hcall.setEntry (.inl hbuilt)
  case case2 | case11 | case16 | case18 | case23 | case25 => exact h.setCall nofun

structure DialersClosedOnce (c : EgressCache) : Prop where
  once : ∀ id, (c.entries id).closes ≤ 1
  /-- While no call is in progress, the running dialers are the cached ones. -/
  cached : (∀ t, c.calls t = .idle) → ∀ id, id < c.next → (c.entries id).built = .group →
    ((c.entries id).closes = 0 ↔ ∃ spec, c.transports spec = some id)

/--
**A dialer is closed once, and not before a lookup returns it.**

The last in runs in which groups are taken out only while no lookup holds them.
-/
theorem egress_closed_once {acts : List EgressAct}
    (hrun : exec egressStep emptyEgress acts = some c) :
    DialersClosedOnce c ∧ (Guarded egressStep EgressStepOk emptyEgress acts c →
      ∀ t id, c.calls t = .returning id → (c.entries id).closes = 0) := by
  have h : EgressInv c := exec_invariant (fun _ _ _ h hs => h.step hs) hrun egressInv_empty
  have honce : ∀ id, (c.entries id).closes ≤ 1 := fun id =>
    (h.entries id).elim (by omega) (by omega)
  refine ⟨⟨honce, ?_⟩, fun hguarded t id ht => ?_⟩
  · intro hidle id hid hgroup
    constructor
    · intro hopen
      obtain ⟨spec | t, ho⟩ := h.running id hid hgroup hopen
      · exact ⟨spec, ho⟩
      · rw [owns, hidle t] at ho
        cases ho
    · rintro ⟨spec, hspec⟩
      exact (h.owned (.inl spec) id hspec).2
  · have hheld := hguarded.invariant (I := fun c => EgressInv c ∧ HeldCached c)
      (fun _ _ _ h hok hs => ⟨h.1.step hs, heldCached_step h.1 h.2 hok hs⟩)
      ⟨egressInv_empty, nofun⟩
    by_contra hclosed
    obtain ⟨spec, hspec⟩ := hheld.2 t id (by rw [ht]; rfl)
      ((h.entries id).resolve_left hclosed).2
    exact hclosed (h.owned (.inl spec) id hspec).2

/-- A group is built, evicted and built again for the lookup that is about to return. -/
def evictedActs : List EgressAct :=
  [.lookup 0 "group", .build 0 .group 0, .loadOrStore 0, .touch 0 0, .return 0, .evict 1 "group",
    .close 1, .lookup 0 "group", .build 0 .group 1, .loadOrStore 0, .touch 0 1]

theorem egress_closed_once_evicted : ∃ c, exec egressStep emptyEgress evictedActs = some c ∧
    c.calls 0 = .returning 1 ∧ (c.entries 0).closes = 1 ∧ (c.entries 1).closes = 0 ∧
    DialersClosedOnce c := by
  obtain ⟨honce, hopen⟩ := @egress_closed_once _ evictedActs rfl
  refine ⟨_, rfl, rfl, rfl, hopen ?_ 0 1 rfl, honce⟩
  refine .cons trivial rfl (.cons trivial rfl (.cons trivial rfl (.cons trivial rfl (.cons trivial
    rfl (.cons ?_ rfl (.cons trivial rfl (.cons trivial rfl (.cons trivial rfl (.cons trivial rfl
      (.cons trivial rfl (.nil _)))))))))))
  intro id _ _ t
  match t with
  | 0 | _ + 1 => exact nofun

/-- The sweep takes out an entry that a lookup has just found and is about to touch. -/
theorem swept_transport_returned : ∃ c, exec egressStep emptyEgress
      [.lookup 0 "group", .build 0 .group 0, .loadOrStore 0, .touch 0 0, .return 0,
        .lookup 0 "group", .sweep 1 10, .visit 1 "group", .judge 1, .compareAndDelete 1, .close 1,
        .touch 0 20] = some c ∧ c.calls 0 = .returning 0 ∧ (c.entries 0).closes = 1 :=
  ⟨_, rfl, rfl, rfl⟩

end AikeyProxy.Proxy
