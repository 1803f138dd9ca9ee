import AikeyProxy.Lib.Region
import AikeyProxy.Lib.Run
import AikeyProxy.Observer.Requests

/-!
# When observer consumers are released

A consumer ends when its channel is closed and drained, and only the end of a request closes it, by
way of the entry under the request's trace id. So a request leaves nothing behind if no start meets
an entry of its trace id, no handler goes without an end for each start, and none outlives the
maximum age.
-/

namespace AikeyProxy.Observer

open Lib Channel AList Option RegistryWorld List

variable {F : Type} {w w' : RegistryWorld F} {c : Channel F}

/-- The consumer is gone, or ends after as many turns as it has events, however its hooks end. -/
def Channel.Released (c : Channel F) : Prop :=
  c.exited = true ∨ ∀ outcomes : List HookOutcome, outcomes.length = c.queue.length →
    ∃ c', exec Channel.consume c (outcomes.map .take ++ [.exit]) = some c' ∧ c'.exited = true

/-- The handler of a start is over, or the start's maximum age has passed. -/
def RegistryWorld.ended (w : RegistryWorld F) (s : RequestState F) : Bool :=
  (w.handlers[s.owner]?).any (·.returned) || decide (s.startedAt + maxRequestAge ≤ w.now)

/-- A start meets no entry of its trace id, a handler that leaves has ended what it started, and
time does not pass beyond the maximum age of a start without an end. -/
def RegistryStepOk (w : RegistryWorld F) : RegistryAct F → Prop
  | .notifyStart _ trace _ => w.requests.lookup trace = none
  | .leave h => ∀ x ∈ w.handlers[h]?, x.due = []
  | .pass duration => ∀ x ∈ w.handlers, ∀ d ∈ x.due, w.now + duration < d.2 + maxRequestAge
  | _ => True

instance (w : RegistryWorld F) : ∀ a, Decidable (RegistryStepOk w a)
  | .notifyStart .. => inferInstanceAs (Decidable (_ = _))
  | .leave _ => inferInstanceAs (Decidable (∀ _ ∈ _, _))
  | .pass _ => inferInstanceAs (Decidable (∀ _ ∈ _, ∀ _ ∈ _, _))
  | .request | .notifySSEEvent .. | .notifyEnd .. | .consume .. => isTrue trivial

theorem Channel.consume_take {ev : ObserverEvent F} {rest : List (ObserverEvent F)}
    (hq : c.queue = ev :: rest) (o : HookOutcome) :
    ∃ c', c.consume (.take o) = some c' ∧ c'.queue = rest ∧ c'.exited = c.exited := by
  refine ⟨_, by rw [consume, hq], ?_⟩
  cases o <;> split <;> exact ⟨rfl, rfl⟩

theorem Channel.released (hclosed : c.closed = true) : c.Released := by
  rcases hexit : c.exited with _ | _
  case true => exact .inl hexit
  refine .inr fun outcomes => ?_
  -- Every turn takes one event off the queue, and an empty closed channel lets the consumer out.
  induction outcomes generalizing c with
  | nil =>
    intro hlen
    have hq : c.queue = [] := length_eq_zero_iff.mp hlen.symm
    exact ⟨{ c with exited := true }, by simp [exec, consume, hq, hclosed, hexit], rfl⟩
  | cons o outcomes ih =>
    intro hlen
    rcases hq : c.queue with _ | ⟨ev, rest⟩
    · rw [hq] at hlen
      cases hlen
    · obtain ⟨c', hc', hrest, hopen⟩ := consume_take hq o
      obtain ⟨c'', hrun, hout⟩ := ih ((consume_closed hc').trans hclosed)
        (hopen.trans hexit) (by rw [hrest]; rw [hq] at hlen; exact Nat.succ.inj hlen)
      exact ⟨c'', by rw [map_cons, cons_append, exec, hc']; exact hrun, hout⟩

/-- Every entry leads to a state of its trace id, a state without an entry is closed, one with an
entry is still due, and what is due is younger than the maximum age. -/
structure RegistryInv (w : RegistryWorld F) : Prop where
  entries : ∀ trace i, w.requests.lookup trace = some i →
    ∃ s, w.states[i]? = some s ∧ s.trace = trace
  closed : ∀ (i : Nat) (s : RequestState F), w.states[i]? = some s →
    w.requests.lookup s.trace ≠ some i → ∀ c ∈ s.channels, c.closed = true
  owned : ∀ (i : Nat) (s : RequestState F), w.states[i]? = some s →
    w.requests.lookup s.trace = some i →
    ∃ x, w.handlers[s.owner]? = some x ∧ (s.trace, s.startedAt) ∈ x.due
  young : ∀ (h : Nat) (x : RequestHandler), w.handlers[h]? = some x → ∀ d ∈ x.due,
    x.returned = false ∧ w.now < d.2 + maxRequestAge

theorem RegistryWorld.entry_eq_some {trace : String} {i : Nat} {s : RequestState F} :
    w.entry trace = some (i, s) ↔
      w.requests.lookup trace = some i ∧ w.states[i]? = some s := by
  simp [entry, bind_eq_some_iff]

theorem RegistryInv.init : RegistryInv (RegistryWorld.init : RegistryWorld F) := by
  constructor <;> simp [RegistryWorld.init]

/-- Only the channels of one state change, and none that is closed is opened. -/
theorem RegistryInv.setChannels (hI : RegistryInv w) {i : Nat} {s : RequestState F}
    (hs : w.states[i]? = some s) {channels : List (Channel F)}
    (hkeep : (∀ c ∈ s.channels, c.closed = true) → ∀ c ∈ channels, c.closed = true) :
    RegistryInv (w.setChannels i s channels) := by
  refine ⟨fun trace j hj => ?_, fun j s' hs' hentry => ?_, fun j s' hs' hentry => ?_, hI.young⟩
  · obtain ⟨s', hs', rfl⟩ := hI.entries trace j hj
    by_cases hij : i = j
    · subst hij
      obtain rfl := some.inj (hs.symm.trans hs')
      exact ⟨{ s with channels }, getElem?_set_of_some hs _, rfl⟩
    · exact ⟨s', (getElem?_set_ne hij).trans hs', rfl⟩
  · obtain ⟨rfl, rfl⟩ | ⟨-, hs'⟩ := getElem?_set_cases hs'
    · exact hkeep (hI.closed j s hs hentry)
    · exact hI.closed j s' hs' hentry
  · obtain ⟨rfl, rfl⟩ | ⟨-, hs'⟩ := getElem?_set_cases hs'
    · exact hI.owned j s hs hentry
    · exact hI.owned j s' hs' hentry

theorem RegistryInv.notifySSEEvent (hI : RegistryInv w) (trace : String) (frame : F) :
    RegistryInv (w.notifySSEEvent trace frame) := by
  rw [RegistryWorld.notifySSEEvent]
  split
  · exact hI
  · next i s hentry =>
    refine hI.setChannels (entry_eq_some.mp hentry).2 fun hall c hc => ?_
    obtain ⟨c₀, hc₀, rfl⟩ := mem_map.mp hc
    rw [offer_closed]
    exact hall c₀ hc₀

/-- A handler's list of what is due may change where nothing of the handler is entered. -/
theorem RegistryInv.setHandler (hI : RegistryInv w) {h : Nat} {x y : RequestHandler}
    (hx : w.handlers[h]? = some x) (hkeep : ∀ d ∈ x.due, d.1 ∈ w.requests → d ∈ y.due)
    (hyoung : ∀ d ∈ y.due, y.returned = false ∧ w.now < d.2 + maxRequestAge) :
    RegistryInv (w.setHandler h y) := by
  refine { hI with owned := fun i s hs hentry => ?_, young := fun h' x' hx' => ?_ }
  · obtain ⟨x', hx', hdue⟩ := hI.owned i s hs hentry
    by_cases hh : h = s.owner
    · subst hh
      obtain rfl := some.inj (hx.symm.trans hx')
      have hmem : s.trace ∈ w.requests := lookup_isSome.mp (isSome_iff_exists.mpr ⟨i, hentry⟩)
      exact ⟨y, getElem?_set_of_some hx y, hkeep _ hdue hmem⟩
    · exact ⟨x', (getElem?_set_ne hh).trans hx', hdue⟩
  · obtain ⟨rfl, rfl⟩ | ⟨-, hx'⟩ := getElem?_set_cases hx'
    · exact hyoung
    · exact hI.young h' x' hx'

/-- The new state is entered under a trace id that has no entry. -/
theorem RegistryInv.notifyStart (hI : RegistryInv w) {h : Nat} {x : RequestHandler}
    {trace : String} (hx : w.handlers[h]? = some x) (hdue : (trace, w.now) ∈ x.due)
    (hnew : w.requests.lookup trace = none) (observers : List ActiveObserver) :
    RegistryInv (w.notifyStart h trace observers) := by
  rw [RegistryWorld.notifyStart]
  split
  · exact hI
  generalize hfirst : RequestState.mk h trace w.now _ = first
  have hstates : ∀ i s, (w.states ++ [first])[i]? = some s →
      i < w.states.length ∧ w.states[i]? = some s ∨ i = w.states.length ∧ s = first := by
    intro i s hs
    rw [getElem?_append] at hs
    split at hs
    next hlt => exact .inl ⟨hlt, hs⟩
    next hge =>
      rw [getElem?_singleton] at hs
      split at hs <;> cases hs
      exact .inr ⟨by omega, rfl⟩
  refine { hI with entries := fun t i hi => ?_, closed := fun i s hs hentry => ?_
                   owned := fun i s hs hentry => ?_ }
  · by_cases ht : t = trace
    · subst ht
      rw [lookup_insert] at hi
      obtain rfl := some.inj hi
      exact ⟨first, getElem?_concat_length, hfirst ▸ rfl⟩
    · rw [lookup_insert_ne ht] at hi
      obtain ⟨s, hs, htrace⟩ := hI.entries t i hi
      exact ⟨s, by rw [List.getElem?_append_left (List.getElem?_eq_some_iff.mp hs).1, hs], htrace⟩
  · obtain ⟨-, hs⟩ | ⟨rfl, rfl⟩ := hstates i s hs
    · refine hI.closed i s hs fun hold => ?_
      by_cases ht : s.trace = trace
      · rw [ht, hnew] at hold
        cases hold
      · exact hentry ((lookup_insert_ne ht).trans hold)
    · subst hfirst
      exact absurd (lookup_insert _) hentry
  · obtain ⟨hlt, hs⟩ | ⟨rfl, rfl⟩ := hstates i s hs
    · by_cases ht : s.trace = trace
      · rw [ht, lookup_insert] at hentry
        exact absurd (some.inj hentry) (Nat.ne_of_gt hlt)
      · exact hI.owned i s hs ((lookup_insert_ne ht).symm.trans hentry)
    · subst hfirst
      exact ⟨x, hx, hdue⟩

theorem RegistryWorld.notifyEnd_setHandler (h : Nat) (x : RequestHandler) (trace : String) :
    (w.setHandler h x).notifyEnd trace = (w.notifyEnd trace).setHandler h x := by
  simp only [RegistryWorld.notifyEnd, entry, RegistryWorld.setHandler]
  split <;> rfl

theorem RegistryInv.erase (hI : RegistryInv w) {trace : String}
    (hclosed : ∀ (i : Nat) (s : RequestState F), w.requests.lookup trace = some i →
      w.states[i]? = some s → ∀ c ∈ s.channels, c.closed = true) :
    RegistryInv { w with requests := w.requests.erase trace } := by
  have hold : ∀ t i, (w.requests.erase trace).lookup t = some i → w.requests.lookup t = some i := by
    intro t i hi
    by_cases ht : t = trace
    · rw [ht, lookup_erase] at hi
      cases hi
    · exact (lookup_erase_ne ht).symm.trans hi
  refine { hI with
    entries := fun t i hi => hI.entries t i (hold t i hi), closed := fun i s hs hentry => ?_
    owned := fun i s hs hentry => hI.owned i s hs (hold _ i hentry) }
  by_cases ht : s.trace = trace ∧ w.requests.lookup trace = some i
  · exact hclosed i s ht.2 hs
  · refine hI.closed i s hs fun hi => ?_
    by_cases heq : s.trace = trace
    · exact ht ⟨heq, heq ▸ hi⟩
    · exact hentry ((lookup_erase_ne heq).trans hi)

theorem RegistryInv.notifyEnd (hI : RegistryInv w) (trace : String) :
    RegistryInv (w.notifyEnd trace) := by
  rw [RegistryWorld.notifyEnd]
  split
  · exact hI
  next i s hentry =>
  obtain ⟨hi, hs⟩ := entry_eq_some.mp hentry
  have hclosed : ∀ c ∈ s.channels.map fun c : Channel F => { c.offer .finish with closed := true },
      c.closed = true := by
    simp
  refine (hI.setChannels hs fun _ => hclosed).erase fun j s' hj hs' => ?_
  obtain rfl := some.inj (hi.symm.trans hj)
  obtain rfl := some.inj ((getElem?_set_of_some hs _).symm.trans hs')
  exact hclosed

theorem RegistryWorld.notifyEnd_keeps (trace : String) :
    (w.notifyEnd trace).handlers = w.handlers ∧ (w.notifyEnd trace).now = w.now := by
  rw [RegistryWorld.notifyEnd]
  split <;> exact ⟨rfl, rfl⟩

theorem RegistryInv.notMem_notifyEnd (hI : RegistryInv w) (trace : String) :
    trace ∉ (w.notifyEnd trace).requests := by
  rw [RegistryWorld.notifyEnd]
  split
  · next hnone =>
    intro hmem
    obtain ⟨i, hi⟩ := isSome_iff_exists.mp (lookup_isSome.mpr hmem)
    obtain ⟨s, hs, -⟩ := hI.entries trace i hi
    rw [entry_eq_some.mpr ⟨hi, hs⟩] at hnone
    cases hnone
  · simp [mem_erase]

theorem RegistryInv.step {a : RegistryAct F} (hI : RegistryInv w) (hok : RegistryStepOk w a)
    (hs : registryStep w a = some w') : RegistryInv w' := by
  revert hs
  fun_cases registryStep w a <;> intro hs
  case case1 =>
    cases hs
    refine { hI with owned := fun i s hs hentry => ?_, young := fun h x hx => ?_ }
    · obtain ⟨x, hx, hdue⟩ := hI.owned i s hs hentry
      exact ⟨x, by rw [List.getElem?_append_left (List.getElem?_eq_some_iff.mp hx).1, hx], hdue⟩
    · rw [getElem?_append] at hx
      split at hx
      · exact hI.young h x hx
      · rw [getElem?_singleton] at hx
        split at hx <;> cases hx
        exact nofun
  case case12 duration =>
    cases hs
    exact { hI with young := fun h x hx d hd =>
      ⟨(hI.young h x hx d hd).1, hok x (mem_of_getElem? hx) d hd⟩ }
  case case2 h trace observers due hx =>
    cases hs
    have hlt : h < w.handlers.length := (List.getElem?_eq_some_iff.mp hx).1
    have hdue : ∀ d ∈ (trace, w.now) :: due, false = false ∧ w.now < d.2 + maxRequestAge := by
      intro d hd
      rcases mem_cons.mp hd with rfl | hd
      · exact ⟨rfl, Nat.lt_add_of_pos_right (by decide)⟩
      · exact hI.young h _ hx d hd
    exact (hI.setHandler hx (fun d hd _ => mem_cons_of_mem _ hd) hdue).notifyStart
      (getElem?_set_self hlt) mem_cons_self hok observers
  case case4 trace frame =>
    cases hs
    exact hI.notifySSEEvent trace frame
  case case5 h trace due hx =>
    cases hs
    rw [notifyEnd_setHandler]
    obtain ⟨hhandlers, hnow⟩ := notifyEnd_keeps (w := w) trace
    refine (hI.notifyEnd trace).setHandler (hhandlers ▸ hx) (fun d hd hmem => ?_) fun d hd => ?_
    · refine mem_filter.mpr ⟨hd, decide_eq_true ?_⟩
      rintro rfl
      exact hI.notMem_notifyEnd d.1 hmem
    · rw [hnow]
      exact hI.young h _ hx d (mem_of_mem_filter hd)
  case case7 h due hx =>
    cases hs
    have hnone : due = [] := hok _ hx
    exact hI.setHandler hx (by simp [hnone]) (by simp [hnone])
  case case11 s hstate c hc =>
    obtain ⟨c', hc', rfl⟩ := map_eq_some_iff.mp hs
    refine hI.setChannels hstate fun hall d hd => ?_
    rcases mem_or_eq_of_mem_set hd with hd | rfl
    · exact hall d hd
    · rw [consume_closed hc']
      exact hall c (mem_of_getElem? hc)
  all_goals cases hs

/-- Once a handler is over or the maximum age of one of its starts has passed, what the start
entered is gone from the table and its consumers are released. -/
theorem ended_request_released {as : List (RegistryAct F)}
    (hrun : Guarded registryStep RegistryStepOk RegistryWorld.init as w) {i : Nat}
    {s : RequestState F} (hs : w.states[i]? = some s) (hended : w.ended s = true) :
    w.requests.lookup s.trace ≠ some i ∧ ∀ c ∈ s.channels, c.Released := by
  have hI : RegistryInv w := hrun.invariant (fun _ _ _ hI => hI.step) .init
  have hgone : w.requests.lookup s.trace ≠ some i := by
    intro hentry
    obtain ⟨x, hx, hdue⟩ := hI.owned i s hs hentry
    have hyoung := hI.young _ x hx _ hdue
    simp only [ended, hx, any_some, hyoung.1, Bool.false_or, decide_eq_true_eq] at hended
    omega
  exact ⟨hgone, fun c hc => released (hI.closed i s hs hgone c hc)⟩

/-- A request that is started, sees a frame and is ended leaves nothing behind. -/
theorem ended_request_released_once :
    ∃ w : RegistryWorld String, ∃ s, w.states[0]? = some s ∧ s.channels.length = 1 ∧
      w.ended s = true ∧
      w.requests.lookup s.trace ≠ some 0 ∧ ∀ c ∈ s.channels, c.Released := by
  have hrun : Guarded registryStep RegistryStepOk (RegistryWorld.init : RegistryWorld String)
      [.request, .notifyStart 0 "t" [⟨true, false⟩], .notifySSEEvent "t" "frame", .notifyEnd 0 "t",
        .leave 0] _ :=
    .of_guardedExec rfl
  exact ⟨_, _, rfl, rfl, rfl, ended_request_released hrun rfl rfl⟩

/-- The attempt's start takes the place of the request's own, and the consumer of the latter waits
for ever, long after the maximum age. -/
theorem app_chain_leaks_consumer :
    ∃ w : RegistryWorld String,
      exec registryStep .init ([.request] ++ appChainCalls 0 "t" [⟨true, false⟩] 1 ++
        [.consume 0 0 (.take .returns), .pass maxRequestAge]) = some w ∧
      ∃ s, w.states[0]? = some s ∧ w.ended s = true ∧ ∃ c ∈ s.channels, ¬ c.Released := by
  refine ⟨_, rfl, _, rfl, rfl, _, mem_cons_self, ?_⟩
  rintro (hexit | hdrain)
  · cases hexit
  · obtain ⟨c', hc', -⟩ := hdrain [] rfl
    cases hc'

end AikeyProxy.Observer
