import Mathlib.Data.List.Induction
import AikeyProxy.Proxy.ChainServe

/-!
# One conversation record per turn

Each attempt of a chain notifies the observers under the trace id of the request, so each may submit
a record; and only a streamed response lets the observer hear what the assistant said. If a single
attempt is made, its response is streamed or has no text, and its notifications find room, the
record is made of all of its text.
-/

namespace AikeyProxy.Proxy

open Lib Observer List Option HopOutcome ObserverEvent

variable {F : Type} {ext : Extractor F}

/-! ## The property and its condition -/

def HopOutcome.unheard : HopOutcome F → Bool
  | .plain text => text ≠ ""
  | _ => false

/-- The condition on a step. An attempt is the first one and its text is notified; a notification
finds room; the audit is on whenever a hook is called. -/
def TurnStepOk (s : TurnWorld F) : TurnAct F → Prop
  | .attempt outcome => s.hops.isEmpty = true ∧ outcome.unheard = false
  | .notify => ∀ h ∈ s.hops.getLast?, h.channel.full = false
  | .consume _ => s.enabled = true
  | _ => True

instance (s : TurnWorld F) : ∀ a, Decidable (TurnStepOk s a)
  | .attempt _ => inferInstanceAs (Decidable (_ ∧ _))
  | .notify => inferInstanceAs (Decidable (∀ _ ∈ _, _))
  | .consume _ => inferInstanceAs (Decidable (_ = _))
  | .skip | .budget | .spent | .returned | .exit _ | .policy .. => isTrue trivial

/-- At most one record is submitted. If an attempt served the client, a record carries its
text, and once the consumers have left there is one, unless neither side said anything. -/
structure OneRecord (s : TurnWorld F) : Prop where
  once : s.audit.records.length ≤ 1
  carries : ∀ text, s.served = some text →
    ∀ r ∈ s.audit.records, r.assistantText = capText text s.cut
  submitted : ∀ text, s.served = some text → (∀ h ∈ s.hops, h.channel.exited = true) →
    s.audit.records ≠ [] ∨
      capText text s.cut = "" ∧ ∀ h ∈ s.hops, capText h.req.prompt.userText s.cut = ""

/-! ## What the hooks make of a sequence of events -/

def auditAfter (ext : Extractor F) (req : RequestContext) (maxBytes : Nat)
    (calls : List (ObserverEvent F)) : AuditState :=
  calls.foldl (auditHook ext req maxBytes true) ⟨none, []⟩

theorem auditAfter_snoc (req : RequestContext) (maxBytes : Nat) (calls : List (ObserverEvent F))
    (ev : ObserverEvent F) :
    auditAfter ext req maxBytes (calls ++ [ev]) =
      auditHook ext req maxBytes true (auditAfter ext req maxBytes calls) ev := by
  unfold auditAfter
  rw [foldl_append]
  rfl

theorem auditAfter_cap {calls : List (ObserverEvent F)} (h : finish ∉ calls) (req : RequestContext)
    (cap cap' : Nat) : auditAfter ext req cap calls = auditAfter ext req cap' calls := by
  refine foldl_ext _ _ _ fun a ev hev => ?_
  cases ev with
  | start | sse frame => rfl
  | finish => exact absurd hev h

section

variable (ext : Extractor F) (req : RequestContext) (maxBytes : Nat) (frames : List F)

theorem auditAfter_frames :
    ∃ st : TurnState, auditAfter ext req maxBytes (.start :: frames.map .sse) = ⟨some st, []⟩ ∧
      st.prompt = req.prompt ∧ st.assistant = String.join (frames.map ext.assistantDelta) := by
  induction frames using List.reverseRecOn with
  | nil => exact ⟨_, rfl, rfl, rfl⟩
  | append_singleton frames f ih =>
    obtain ⟨st, hst, hprompt, htext⟩ := ih
    refine ⟨st.hear ext f, ?_, hprompt, ?_⟩
    · rw [map_append, ← cons_append, map_singleton, auditAfter_snoc, hst]
      rfl
    · rw [map_append, String.join_append, ← htext]
      simp [TurnState.hear]

theorem auditAfter_end :
    ∃ st : TurnState, auditAfter ext req maxBytes (.start :: frames.map .sse ++ [.finish]) =
        ⟨none, (st.record req maxBytes).toList⟩ ∧
      st.prompt = req.prompt ∧ st.assistant = String.join (frames.map ext.assistantDelta) := by
  obtain ⟨st, hst, hprompt, htext⟩ := auditAfter_frames ext req maxBytes frames
  refine ⟨st, ?_, hprompt, htext⟩
  rw [auditAfter_snoc, hst]
  rfl

end

variable {req : RequestContext} {o : HopOutcome F} {h : Hop F} {s s' : TurnWorld F}

variable {maxBytes : Nat} {st : TurnState} {rest : List (ObserverEvent F)} {channel : Channel F}

theorem record_spec {r : ConversationRecord} (h : st.record req maxBytes = some r) :
    r.assistantText = capText st.assistant maxBytes := by
  revert h
  fun_cases TurnState.record st req maxBytes <;> intro h <;> cases h
  rfl

theorem record_none (h : st.record req maxBytes = none) :
    capText st.prompt.userText maxBytes = "" ∧ capText st.assistant maxBytes = "" := by
  revert h
  fun_cases TurnState.record st req maxBytes <;> intro h <;> cases h
  assumption

/-! ## The one attempt -/

/-- The frames an attempt notifies, and whether it notifies an end. -/
def HopOutcome.frames : HopOutcome F → List F
  | .streamed frames | .aborted frames => frames
  | _ => []

def HopOutcome.ends : HopOutcome F → Bool
  | .aborted _ => false
  | _ => true

theorem HopOutcome.notices_eq (o : HopOutcome F) :
    o.notices = .start :: o.frames.map .sse ++ if o.ends then [.finish] else [] := by
  cases o with
  | aborted frames => exact (append_nil _).symm
  | _ => rfl

theorem HopOutcome.servedText_eq {text : String} (hserved : o.servedText ext = some text)
    (hheard : o.unheard = false) :
    o.ends = true ∧ text = String.join (o.frames.map ext.assistantDelta) := by
  cases o with
  | streamed frames => exact ⟨rfl, (some.inj hserved).symm⟩
  | plain t =>
    obtain rfl : t = text := some.inj hserved
    have hempty : t = "" := by simpa [unheard] using hheard
    exact ⟨rfl, hempty⟩
  | captured status modelRefused | aborted frames => cases hserved

theorem HopOutcome.finish_last {sent : List (ObserverEvent F)}
    (h : sent ++ .finish :: rest = o.notices) : rest = [] := by
  -- before its last event no attempt notifies an end
  have hlast : finish ∉ o.notices.dropLast := by
    intro hmem
    rw [o.notices_eq] at hmem
    cases hends : o.ends with
    | true =>
      rw [hends, if_pos rfl, dropLast_concat] at hmem
      simp at hmem
    | false =>
      have hsub := (dropLast_sublist _).subset hmem
      simp [hends] at hsub
  by_contra hne
  apply hlast
  rw [← h, dropLast_append_of_ne_nil (by simp), dropLast_cons_of_ne_nil hne]
  simp

theorem HopOutcome.finish_notMem {ev : ObserverEvent F} {calls : List (ObserverEvent F)}
    (h : calls ++ ev :: rest = o.notices) : finish ∉ calls := by
  intro hmem
  obtain ⟨sent, later, rfl⟩ := append_of_mem hmem
  rw [append_assoc, cons_append] at h
  simpa using finish_last h

/-- What is called of an attempt's notices, in their order: nothing, a beginning without the
end, or all of them. -/
theorem HopOutcome.calls_cases {calls later : List (ObserverEvent F)}
    (h : calls ++ later = o.notices) :
    calls = [] ∨ (∃ frames : List F, calls = .start :: frames.map .sse) ∨
      o.ends = true ∧ calls = .start :: o.frames.map .sse ++ [.finish] := by
  have hprefix : calls <+: o.notices := ⟨later, h⟩
  have hbegin : ∀ {l}, l <+: start :: o.frames.map .sse →
      l = [] ∨ ∃ frames : List F, l = .start :: frames.map .sse := by
    intro l hl
    rcases prefix_cons_iff.mp hl with rfl | ⟨t, rfl, ht⟩
    · exact .inl rfl
    · obtain ⟨frames, -, rfl⟩ := prefix_map_iff.mp ht
      exact .inr ⟨frames, rfl⟩
  rw [o.notices_eq] at hprefix
  cases hends : o.ends with
  | false =>
    rw [hends] at hprefix
    rcases hbegin (by simpa using hprefix) with hnil | hsome
    · exact .inl hnil
    · exact .inr (.inl hsome)
  | true =>
    rw [hends] at hprefix
    rcases prefix_concat_iff.mp hprefix with hall | hpart
    · exact .inr (.inr ⟨rfl, hall⟩)
    · rcases hbegin hpart with hnil | hsome
      · exact .inl hnil
      · exact .inr (.inl hsome)

/-- The attempt and its observer: every notice is called, queued or still to be sent; the observer
is where the calls have brought it. -/
structure HopInv (ext : Extractor F) (s : TurnWorld F) (h : Hop F) : Prop where
  heard : h.outcome.unheard = false
  log : h.channel.calls ++ h.channel.queue ++ h.notices = h.outcome.notices
  able : h.channel.disabled = false
  closed : h.channel.closed = true → h.notices = []
  exited : h.channel.exited = true → h.channel.queue = [] ∧ h.channel.closed = true
  audit : s.audit = auditAfter ext h.req s.cut h.channel.calls
  served : ∀ text, s.served = some text → h.outcome.servedText ext = some text

def TurnInv (ext : Extractor F) (s : TurnWorld F) : Prop :=
  (s.hops = [] ∧ s.audit = ⟨none, []⟩ ∧ s.served = none) ∨ ∃ h, s.hops = [h] ∧ HopInv ext s h

theorem HopInv.records (hinv : HopInv ext s h) :
    s.audit.records = [] ∨ ∃ st : TurnState,
      s.audit.records = (st.record h.req s.cut).toList ∧
      st.assistant = String.join (h.outcome.frames.map ext.assistantDelta) := by
  have hlog := hinv.log
  rw [append_assoc] at hlog
  rw [hinv.audit]
  rcases calls_cases hlog with hnil | ⟨frames, hframes⟩ | ⟨-, hall⟩
  · rw [hnil]
    exact .inl rfl
  · obtain ⟨st, hst, -, -⟩ := auditAfter_frames ext h.req s.cut frames
    rw [hframes, hst]
    exact .inl rfl
  · obtain ⟨st, hst, -, htext⟩ := auditAfter_end ext h.req s.cut h.outcome.frames
    rw [hall, hst]
    exact .inr ⟨st, rfl, htext⟩

theorem HopInv.records_of_exited (hinv : HopInv ext s h) (hexited : h.channel.exited = true)
    (hends : h.outcome.ends = true) :
    ∃ st : TurnState, s.audit.records = (st.record h.req s.cut).toList ∧
      st.prompt = h.req.prompt ∧
      st.assistant = String.join (h.outcome.frames.map ext.assistantDelta) := by
  obtain ⟨hqueue, hclosed⟩ := hinv.exited hexited
  have hlog := hinv.log
  rw [hqueue, hinv.closed hclosed, append_nil, append_nil, h.outcome.notices_eq, hends]
    at hlog
  obtain ⟨st, hst, hprompt, htext⟩ :=
    auditAfter_end ext h.req s.cut h.outcome.frames
  refine ⟨st, ?_, hprompt, htext⟩
  rw [hinv.audit, hlog]
  exact congrArg AuditState.records hst

theorem TurnInv.oneRecord (hinv : TurnInv ext s) : OneRecord s := by
  rcases hinv with ⟨hnil, haudit, hserved⟩ | ⟨h, hhops, hinv⟩
  · exact ⟨by simp [haudit], by simp [hserved], by simp [hserved]⟩
  · refine ⟨?_, ?_, ?_⟩
    · rcases hinv.records with hnil | ⟨st, hst, -⟩
      · rw [hnil]
        simp
      · rw [hst]
        cases st.record h.req s.cut <;> simp
    · intro text htext r hr
      obtain ⟨-, rfl⟩ := servedText_eq (hinv.served text htext) hinv.heard
      rcases hinv.records with hnil | ⟨st, hst, hsaid⟩
      · rw [hnil] at hr
        cases hr
      · rw [hst] at hr
        rw [record_spec (mem_toList.mp hr), hsaid]
    · intro text htext hexited
      obtain ⟨hends, rfl⟩ := servedText_eq (hinv.served text htext) hinv.heard
      have hleft := hexited h (by rw [hhops]; exact mem_singleton_self h)
      obtain ⟨st, hst, hprompt, hsaid⟩ := hinv.records_of_exited hleft hends
      cases hrecord : st.record h.req s.cut with
      | some r =>
        left
        rw [hst, hrecord]
        simp
      | none =>
        right
        obtain ⟨huser, hassistant⟩ := record_none hrecord
        rw [← hsaid]
        refine ⟨hassistant, ?_⟩
        intro h' hh'
        rw [hhops] at hh'
        rw [mem_singleton.mp hh', ← hprompt]
        exact huser

/-! ## Steps and runs -/

theorem TurnInv.same (hinv : TurnInv ext s) (hhops : s'.hops = s.hops) (haudit : s'.audit = s.audit)
    (hserved : s'.served = s.served) (hcut : s'.cut = s.cut) : TurnInv ext s' := by
  rcases hinv with ⟨hnil, hinit, hnone⟩ | ⟨h, hone, hop⟩
  · exact .inl ⟨by rw [hhops, hnil], by rw [haudit, hinit], by rw [hserved, hnone]⟩
  · refine .inr ⟨h, by rw [hhops, hone], hop.heard, hop.log, hop.able, hop.closed, hop.exited, ?_, ?_⟩
    · rw [haudit, hcut]
      exact hop.audit
    · rw [hserved]
      exact hop.served

theorem HopInv.begin {outcome : HopOutcome F} (hheard : outcome.unheard = false)
    (haudit : s.audit = ⟨none, []⟩) (hserved : s.served = none) :
    HopInv ext s ⟨req, outcome, outcome.notices, .fresh⟩ :=
  ⟨hheard, rfl, rfl, nofun, nofun, haudit, by simp [hserved]⟩

theorem HopInv.notify {h' : Hop F} (hinv : HopInv ext s h) (hroom : h.channel.full = false)
    (hs : h.notify = some h') (haudit : s'.audit = s.audit) (hserved : s'.served = s.served)
    (hcut : s'.cut = s.cut) : HopInv ext s' h' := by
  obtain ⟨hheard, hlog, hable, hclosed, hexited, hcalls, hsaid⟩ := hinv
  have hoffer : ∀ ev, h.channel.offer ev = { h.channel with queue := h.channel.queue ++ [ev] } := by
    intro ev
    rw [Channel.offer, if_neg (by rw [hroom]; simp)]
  rw [← haudit, ← hcut] at hcalls
  rw [← hserved] at hsaid
  revert hs
  fun_cases Hop.notify h <;> intro hs <;> cases hs
  next rest hnotices =>
    rw [hnotices] at hlog
    rw [hoffer]
    exact ⟨hheard, by simp [← hlog], hable, fun _ => finish_last hlog,
      by grind -linarith, hcalls, hsaid⟩
  next ev rest _ hnotices =>
    rw [hnotices] at hlog
    rw [hoffer]
    exact ⟨hheard, by simp [← hlog], hable, by grind -linarith, by grind -linarith, hcalls, hsaid⟩

theorem HopInv.consume {ev : ObserverEvent F} (hinv : HopInv ext s h) (henabled : s.enabled = true)
    (hqueue : h.channel.queue = ev :: rest) (hs : h.channel.consume (.take .returns) = some channel)
    (haudit : s'.audit = auditHook ext h.req s.maxBytes s.enabled s.audit ev)
    (hcut : s'.cut = s.cutBy ev) (hserved : s'.served = s.served) :
    HopInv ext s' { h with channel } := by
  have hchannel : channel =
      { h.channel with queue := rest, calls := h.channel.calls ++ [ev] } := by
    simpa [Channel.consume, hqueue, hinv.able, Channel.dispatchOne] using hs.symm
  subst hchannel
  have hlog := hinv.log
  rw [hqueue] at hlog
  refine ⟨hinv.heard, ?_, hinv.able, hinv.closed, ?_, ?_, hserved ▸ hinv.served⟩
  · rw [← hlog]
    simp
  · intro hexited
    have hempty := (hinv.exited hexited).1
    rw [hqueue] at hempty
    cases hempty
  · rw [haudit, auditAfter_snoc, henabled, hinv.audit, hcut]
    cases ev with
    | start | sse frame => rfl
    | finish =>
      -- the calls before the end do not look at the cap
      rw [append_assoc] at hlog
      rw [auditAfter_cap (finish_notMem hlog) h.req s.cut s.maxBytes]
      rfl

theorem HopInv.exit (hinv : HopInv ext s h) (hs : h.channel.consume .exit = some channel)
    (hops : List (Hop F)) : HopInv ext { s with hops } { h with channel } := by
  simp only [Channel.consume] at hs
  split at hs
  next hleave =>
    cases hs
    exact ⟨hinv.heard, hinv.log, hinv.able, hinv.closed,
      fun _ => ⟨isEmpty_iff.mp hleave.1, hleave.2.1⟩, hinv.audit, hinv.served⟩
  next => cases hs

theorem HopInv.conclude (hinv : HopInv ext s h) : HopInv ext (s.conclude ext h.outcome) h := by
  obtain ⟨hheard, hlog, hable, hclosed, hexited, haudit, hserved⟩ := hinv
  unfold TurnWorld.conclude
  split <;>
    exact ⟨hheard, hlog, hable, hclosed, hexited, haudit, by grind -linarith⟩

theorem conclude_hops (s : TurnWorld F) (outcome : HopOutcome F) :
    (s.conclude ext outcome).hops = s.hops := by
  cases outcome <;> rfl

theorem TurnInv.only (hinv : TurnInv ext s) {k : Nat} (hk : s.hops[k]? = some h) :
    k = 0 ∧ s.hops = [h] ∧ HopInv ext s h := by
  rcases hinv with ⟨hnil, -, -⟩ | ⟨h', hone, hop⟩
  · simp [hnil] at hk
  · rw [hone, getElem?_singleton] at hk
    split at hk <;> cases hk
    exact ⟨‹_›, hone, hop⟩

theorem TurnInv.last (hinv : TurnInv ext s) (hlast : s.hops.getLast? = some h) :
    s.hops = [h] ∧ HopInv ext s h := by
  rcases hinv with ⟨hnil, -, -⟩ | ⟨h', hone, hop⟩
  · simp [hnil] at hlast
  · rw [hone] at hlast
    cases hlast
    exact ⟨hone, hop⟩

theorem TurnInv.init (chained : Bool) (order : List Candidate) (prompt : Prompt) (maxBytes : Nat)
    (enabled : Bool) : TurnInv ext (TurnWorld.init chained order prompt maxBytes enabled) :=
  .inl ⟨rfl, rfl, rfl⟩

theorem TurnInv.step {a : TurnAct F} (hinv : TurnInv ext s) (hok : TurnStepOk s a)
    (hs : turnStep ext s a = some s') : TurnInv ext s' := by
  cases a with
  | attempt outcome =>
    obtain ⟨hempty, hheard⟩ := hok
    have hnil := isEmpty_iff.mp hempty
    simp only [turnStep] at hs
    split at hs
    · cases hs
    · split at hs <;> cases hs
      rcases hinv with ⟨-, hinit, hnone⟩ | ⟨h, hone, -⟩
      · exact .inr ⟨_, by rw [hnil, nil_append], .begin hheard hinit hnone⟩
      · simp [hone] at hnil
  | skip | budget | spent | policy =>
    have hsame : s'.hops = s.hops ∧ s'.audit = s.audit ∧ s'.served = s.served ∧
        s'.cut = s.cut := by
      simp only [turnStep] at hs
      grind -linarith
    exact hinv.same hsame.1 hsame.2.1 hsame.2.2.1 hsame.2.2.2
  | notify =>
    obtain ⟨h, hlast, hs⟩ := bind_eq_some_iff.mp hs
    obtain ⟨h', hnotify, hs⟩ := bind_eq_some_iff.mp hs
    obtain ⟨hone, hop⟩ := hinv.last hlast
    split at hs <;> cases hs
    refine .inr ⟨h', by rw [hone]; rfl, hop.notify (hok h hlast) hnotify rfl rfl rfl⟩
  | returned =>
    obtain ⟨h, hlast, hs⟩ := bind_eq_some_iff.mp hs
    obtain ⟨hone, hop⟩ := hinv.last hlast
    split at hs <;> cases hs
    exact .inr ⟨h, by rw [conclude_hops, hone], hop.conclude⟩
  | consume k =>
    obtain ⟨h, hk, hs⟩ := bind_eq_some_iff.mp hs
    obtain ⟨rfl, hone, hop⟩ := hinv.only hk
    split at hs
    · cases hs
    next ev rest hqueue =>
      obtain ⟨channel, htake, hs⟩ := bind_eq_some_iff.mp hs
      cases hs
      exact .inr ⟨{ h with channel }, by rw [hone]; rfl, hop.consume hok hqueue htake rfl rfl rfl⟩
  | exit k =>
    obtain ⟨h, hk, hs⟩ := bind_eq_some_iff.mp hs
    obtain ⟨channel, hexit, hs⟩ := bind_eq_some_iff.mp hs
    obtain ⟨rfl, hone, hop⟩ := hinv.only hk
    cases hs
    exact .inr ⟨{ h with channel }, by rw [hone]; rfl, hop.exit hexit _⟩

/-- **One conversation record per turn.** In a run whose steps meet `TurnStepOk` at most one record
is submitted, and it carries the text of the attempt that served the client. -/
theorem turn_recorded_once (ext : Extractor F) (chained : Bool) (order : List Candidate)
    (prompt : Prompt) (maxBytes : Nat) (enabled : Bool) (acts : List (TurnAct F))
    (s : TurnWorld F)
    (hrun : Guarded (turnStep ext) TurnStepOk
      (TurnWorld.init chained order prompt maxBytes enabled) acts s) : OneRecord s := by
  have hinv : TurnInv ext s :=
    hrun.invariant (fun _ _ _ hinv hok hs => hinv.step hok hs)
      (TurnInv.init chained order prompt maxBytes enabled)
  exact hinv.oneRecord

/-! ## Chains of two upstreams -/

def plainText : Extractor String := ⟨id, fun _ => false⟩

def upstreamA : Candidate := ⟨"a", true, true, "https://a"⟩

def upstreamB : Candidate := ⟨"b", true, true, "https://b"⟩

def wholeAttempt (k n : Nat) (outcome : HopOutcome String) : List (TurnAct String) :=
  .attempt outcome :: List.replicate n .notify ++ [.returned] ++ List.replicate n (.consume k)
    ++ [.exit k]

theorem first_attempt_recorded_once :
    ∃ s, Guarded (turnStep plainText) TurnStepOk
        (TurnWorld.init true [upstreamA, upstreamB] ⟨"hello", "", "m"⟩ 0 true)
        (wholeAttempt 0 4 (.streamed ["hi", " there"])) s ∧
      s.served = some "hi there" ∧
      s.audit.records = [⟨"a", "m", "hello", "hi there", "", .incomplete⟩] ∧ OneRecord s := by
  refine ⟨_, Guarded.of_guardedExec rfl, rfl, rfl, ?_⟩
  exact turn_recorded_once plainText true [upstreamA, upstreamB] ⟨"hello", "", "m"⟩ 0 true
    (wholeAttempt 0 4 (.streamed ["hi", " there"])) _ (Guarded.of_guardedExec rfl)

def fallback : List (TurnAct String) :=
  wholeAttempt 0 2 (.captured 500 false) ++ wholeAttempt 1 4 (.streamed ["hi", " there"])

theorem fallback_recorded_twice :
    ¬ ∀ (F : Type) (ext : Extractor F) (chained : Bool) (order : List Candidate)
      (prompt : Prompt) (maxBytes : Nat) (enabled : Bool) (acts : List (TurnAct F))
      (s : TurnWorld F),
      exec (turnStep ext) (TurnWorld.init chained order prompt maxBytes enabled) acts = some s →
      OneRecord s := by
  intro hall
  have honce := (hall _ plainText true [upstreamA, upstreamB] ⟨"hello", "", "m"⟩ 0 true fallback _ rfl).once
  exact absurd honce (by decide)

end AikeyProxy.Proxy
