import AikeyProxy.Proof.StreamDrainer

/-!
# What an observer is told of a request

All events of a request go through one bounded channel, so the hooks called so far followed by what
is queued is what the channel was given: the start, some of the frames in their order, and the end,
if there was room. A consumer leaves when its channel is closed and empty.
-/

namespace AikeyProxy.Proxy

open Lib Observer List Channel HandlerPc DrainerPc Option

variable {F : Type}

/-! ## The property and its condition -/

def HandlerPc.sendingEnd : HandlerPc → Bool
  | .sendEnd _ => true
  | _ => false

/-- The condition on a step. When `NotifyEnd` sends the end to an observer that has neither
panicked nor been disabled, there is room in its channel. -/
def EndStepOk (s : StreamWorld F) : StreamAct → Prop
  | .handler (.tell i) =>
    s.handler.sendingEnd = true → ∀ c ∈ s.channels[i]?, c.faulty = false → c.full = false
  | _ => True

instance (s : StreamWorld F) : ∀ a, Decidable (EndStepOk s a)
  | .handler (.tell _) => inferInstanceAs (Decidable (_ → ∀ _ ∈ _, _))
  | .handler .go | .handler .answer | .handler .abort | .handler .stream | .handler (.readPipe _)
  | .handler (.written _) | .drainer _ | .consumer .. | .clientGone | .shutdown => isTrue trivial

def WholeRequest (frames : List F) (calls : List (ObserverEvent F)) : Prop :=
  ∃ fs : List F, fs.Sublist frames ∧ calls = .start :: fs.map .sse ++ [.finish]

def consumerLeft (c : Channel F) : Nat := c.queue.length + if c.exited then 0 else 1

/-- Once `NotifyEnd` is over, a consumer that has not left can take a step, its own steps
leave it less to do, and no other step gives it more. -/
def ConsumersProceed (s : StreamWorld F) : Prop :=
  s.handler = .finished → ∀ i c, s.channels[i]? = some c → c.exited = false →
    (∃ a, a ≠ .disable ∧ (streamStep s (.consumer i a)).isSome = true) ∧
    ∀ a s', streamStep s a = some s' →
      ∃ c', s'.channels[i]? = some c' ∧ consumerLeft c' ≤ consumerLeft c ∧
        ∀ e, a = .consumer i e → e ≠ .disable → consumerLeft c' < consumerLeft c

/-- Every observer that has neither panicked nor been disabled has been called for the whole request
by the time its consumer leaves; and the consumers proceed to that point. -/
structure ObserversServed (s : StreamWorld F) : Prop where
  whole : ∀ c ∈ s.channels, c.faulty = false → c.exited = true → WholeRequest s.notified c.calls
  proceed : ConsumersProceed s

/-! ## What a channel has been given -/

def HandlerPc.startDue (i : Nat) : HandlerPc → Bool
  | .sendStart todo => i ∈ todo
  | _ => false

def HandlerPc.endSent (i : Nat) : HandlerPc → Bool
  | .sendEnd todo | .closing _ todo => i ∉ todo
  | .finished => true
  | _ => false

def HandlerPc.inEnd : HandlerPc → Bool
  | .sendEnd _ | .closing .. | .finished => true
  | _ => false

def StreamWorld.heard (s : StreamWorld F) (i : Nat) : List F :=
  if i ∈ s.drainer.todo then s.notified.dropLast else s.notified

def Given (pc : HandlerPc) (i : Nat) (heard : List F) (log : List (ObserverEvent F)) : Prop :=
  if pc.startDue i then log = []
  else ∃ fs : List F, fs.Sublist heard ∧
    log = .start :: fs.map .sse ++ if pc.endSent i then [.finish] else []

/-- A consumer that has left finds nothing more; a disabled observer counts as faulty. -/
structure ChannelInv (c : Channel F) : Prop where
  exited : c.exited = true → c.queue = [] ∧ c.closed = true
  disabled : c.disabled = true → c.faulty = true

/-- A frame that is being sent is the last one notified. -/
def SendsLast (s : StreamWorld F) : Prop :=
  ∀ f todo fs err, s.drainer = .sending f todo fs err →
    todo.Nodup ∧ ∃ pre, s.notified = pre ++ [f]

structure GivenInv (s : StreamWorld F) : Prop where
  base : StreamInv s
  log : ∀ i c, s.channels[i]? = some c → c.faulty = false →
    Given s.handler i (s.heard i) (c.calls ++ c.queue)
  channel : ∀ c ∈ s.channels, ChannelInv c
  frame : SendsLast s
  registered : s.handler.inEnd = false → s.channels = [] ∨ s.registered = true
  shut : ∀ i c, s.channels[i]? = some c → s.handler.closedEnd i = true → c.closed = true

theorem GivenInv.init (observers : List ActiveObserver) (upstream : List (Chunk F)) :
    GivenInv (StreamWorld.init observers upstream) where
  base := StreamInv.init observers upstream
  log i c hc := by simp [StreamWorld.init] at hc
  channel c hc := by simp [StreamWorld.init] at hc
  frame f todo fs err h := by cases h
  registered _ := .inl rfl
  shut i c hc := by simp [StreamWorld.init] at hc

variable {log : List (ObserverEvent F)} {heard : List F} {i : Nat} {pc pc' : HandlerPc}
  {s s' : StreamWorld F} {c c' : Channel F} {todo : List Nat}

theorem Given.mono {heard' : List F} (h : Given pc i heard log) (hsub : heard.Sublist heard') :
    Given pc i heard' log := by
  unfold Given at h ⊢
  split
  next hdue => rwa [if_pos hdue] at h
  next hdue =>
    rw [if_neg hdue] at h
    obtain ⟨fs, hfs, hlog⟩ := h
    exact ⟨fs, hfs.trans hsub, hlog⟩

theorem Given.moves (h : Given pc i heard log) (hdue : pc'.startDue i = pc.startDue i)
    (hend : pc'.endSent i = pc.endSent i) : Given pc' i heard log := by
  unfold Given at h ⊢
  rw [hdue, hend]
  exact h

theorem Given.start (h : Given pc i heard log) (hdue : pc.startDue i = true)
    (hdue' : pc'.startDue i = false) (hend' : pc'.endSent i = false) :
    Given pc' i heard (log ++ [.start]) := by
  unfold Given at h ⊢
  rw [if_pos hdue] at h
  rw [if_neg (by rw [hdue']; simp), h, hend']
  exact ⟨[], nil_sublist _, rfl⟩

theorem Given.frame {pc : HandlerPc} {i : Nat} {pre : List F} {f : F}
    {log : List (ObserverEvent F)} (h : Given pc i pre log) (hdue : pc.startDue i = false)
    (hend : pc.endSent i = false) : Given pc i (pre ++ [f]) (log ++ [.sse f]) := by
  unfold Given at h ⊢
  rw [if_neg (by rw [hdue]; simp), hend] at h ⊢
  obtain ⟨fs, hfs, hlog⟩ := h
  refine ⟨fs ++ [f], hfs.append (List.Sublist.refl _), ?_⟩
  rw [hlog]
  simp

theorem Given.finish (h : Given pc i heard log) (hdue : pc.startDue i = false)
    (hend : pc.endSent i = false) (hdue' : pc'.startDue i = false) (hend' : pc'.endSent i = true) :
    Given pc' i heard (log ++ [.finish]) := by
  unfold Given at h ⊢
  rw [if_neg (by rw [hdue]; simp), hend] at h
  rw [if_neg (by rw [hdue']; simp), hend']
  obtain ⟨fs, hfs, hlog⟩ := h
  refine ⟨fs, hfs, ?_⟩
  rw [hlog]
  simp

/-! ## Steps -/

theorem ChannelInv.offer (h : ChannelInv c) (hopen : c.closed = false) (ev : ObserverEvent F) :
    ChannelInv (c.offer ev) where
  exited he := by
    rw [c.offer_exited ev] at he
    cases hopen.symm.trans (h.exited he).2
  disabled hd := by
    rw [c.offer_disabled ev] at hd
    rw [c.offer_faulty ev, h.disabled hd]

theorem offer_log {ev : ObserverEvent F} (hroom : c.full = false) :
    (c.offer ev).calls ++ (c.offer ev).queue = c.calls ++ c.queue ++ [ev] := by
  unfold Channel.offer
  rw [if_neg (by rw [hroom]; simp), append_assoc]

theorem HandlerPc.not_inEnd (h : pc.ended = false) :
    pc.inEnd = false ∧ (∀ i, pc.endSent i = false) := by
  cases pc with
  | notifyEnd | sendEnd _ | closing _ _ | finished => cases h
  | _ => exact ⟨rfl, fun _ => rfl⟩

theorem HandlerPc.not_startDue (h : pc.early = false) (i : Nat) : pc.startDue i = false := by
  cases pc with
  | begin | sendStart _ | roundTrip => cases h
  | _ => rfl

theorem StreamInv.between (h : StreamInv s) (hrun : s.drainer.running = true) :
    s.handler.early = false ∧ s.handler.ended = false := by
  constructor <;> by_contra hnot
  · rw [h.idle (by simpa using hnot)] at hrun
    cases hrun
  · rw [h.ended (by simpa using hnot)] at hrun
    cases hrun

def HandlerPc.middle : HandlerPc → Bool
  | .roundTrip | .copying | .writing | .failed | .aborted | .notifyEnd => true
  | _ => false

theorem HandlerPc.middle_spec (h : pc.middle = true) (i : Nat) :
    pc.startDue i = false ∧ pc.endSent i = false ∧ pc.closedEnd i = false ∧ pc.inEnd = false := by
  cases pc with
  | begin | sendStart _ | sendEnd _ | closing _ _ | finished => cases h
  | _ => exact ⟨rfl, rfl, rfl, rfl⟩

theorem HandlerPc.middle_of_serving (h : pc.serving = true) : pc.middle = true := by
  cases pc with
  | copying | writing | failed => rfl
  | _ => cases h

theorem heard_of_mem (h : i ∈ s.drainer.todo) : s.heard i = s.notified.dropLast := if_pos h

theorem heard_of_notMem (h : i ∉ s.drainer.todo) : s.heard i = s.notified := if_neg h

theorem heard_of_todo (h : s.drainer.todo = []) (i : Nat) : s.heard i = s.notified :=
  heard_of_notMem (by rw [h]; exact not_mem_nil)

theorem sendsLast_of_not_sends (h : s.drainer.sends = false) : SendsLast s := by
  intro f todo fs err hpc
  rw [hpc] at h
  cases h

theorem GivenInv.keeps (h : GivenInv s) (hbase : StreamInv s')
    (hchannels : s'.channels = s.channels)
    (hheard : ∀ i < s.channels.length, (s.heard i).Sublist (s'.heard i))
    (hpc : ∀ i < s.channels.length, s'.handler.startDue i = s.handler.startDue i ∧
      s'.handler.endSent i = s.handler.endSent i ∧
      (s'.handler.closedEnd i = true → s.handler.closedEnd i = true))
    (hframe : SendsLast s')
    (hregistered : s'.handler.inEnd = false → s.channels = [] ∨ s'.registered = true) :
    GivenInv s' := by
  refine ⟨hbase, fun i c hc hfaulty => ?_, hchannels ▸ h.channel, hframe, hchannels ▸ hregistered,
    fun i c hc hclosed => ?_⟩ <;> rw [hchannels] at hc <;>
    obtain ⟨hdue, hend, hshut⟩ := hpc i (List.getElem?_eq_some_iff.mp hc).1
  · have hsub := hheard i (List.getElem?_eq_some_iff.mp hc).1
    exact ((h.log i c hc hfaulty).mono hsub).moves hdue hend
  · exact h.shut i c hc (hshut hclosed)

theorem GivenInv.setChannel (h : GivenInv s) (hbase : StreamInv s')
    (hchannels : s'.channels = s.channels.set i c') (hinv : ChannelInv c')
    (hnew : c'.faulty = false → Given s'.handler i (s'.heard i) (c'.calls ++ c'.queue))
    (hshut : s'.handler.closedEnd i = true → c'.closed = true)
    (hheard : ∀ j ≠ i, s'.heard j = s.heard j)
    (hpc : ∀ j ≠ i, s'.handler.startDue j = s.handler.startDue j ∧
      s'.handler.endSent j = s.handler.endSent j ∧
      (s'.handler.closedEnd j = true → s.handler.closedEnd j = true))
    (hframe : SendsLast s') (hregistered : s'.handler.inEnd = false → s'.registered = true) :
    GivenInv s' := by
  refine ⟨hbase, fun j d hd hfaulty => ?_, fun d hd => ?_, hframe, fun he => .inr (hregistered he),
    fun j d hd hclosed => ?_⟩ <;> rw [hchannels] at hd
  · obtain ⟨rfl, rfl⟩ | ⟨hne, hd⟩ := getElem?_set_cases hd
    · exact hnew hfaulty
    · rw [hheard j hne]
      exact (h.log j d hd hfaulty).moves (hpc j hne).1 (hpc j hne).2.1
  · obtain hd | rfl := mem_or_eq_of_mem_set hd
    · exact h.channel d hd
    · exact hinv
  · obtain ⟨rfl, rfl⟩ | ⟨hne, hd⟩ := getElem?_set_cases hd
    · exact hshut hclosed
    · exact h.shut j d hd ((hpc j hne).2.2 hclosed)

theorem GivenInv.registered_of_some (h : GivenInv s) (hc : s.channels[i]? = some c)
    (he : s.handler.inEnd = false) : s.registered = true := by
  refine (h.registered he).resolve_left fun hnone => ?_
  rw [hnone] at hc
  cases hc

theorem GivenInv.drainer {a : DrainerAct} (h : GivenInv s) (hs : drainerStep s a = some s') :
    GivenInv s' := by
  have hbase := h.base.drainer hs
  cases drainerStep_moves hs with
  | loop hpc _ htodo _ hsends _ _ =>
    subst hpc
    refine h.keeps hbase rfl (fun i _ => ?_) (fun _ _ => ⟨rfl, rfl, id⟩)
      (sendsLast_of_not_sends hsends) h.registered
    rw [heard_of_todo htodo, heard_of_todo (todo_of_not_sends hsends)]
  | @frame f frames err hpc _ =>
    refine h.keeps hbase rfl (fun i hi => ?_) (fun _ _ => ⟨rfl, rfl, id⟩) ?_ h.registered
    · -- the new frame is still to be sent to every channel
      rw [heard_of_todo (by rw [hpc]; rfl), heard_of_mem (by exact mem_range.mpr hi),
        dropLast_concat]
    · rintro _ _ _ _ ⟨⟩
      exact ⟨nodup_range, s.notified, rfl⟩
  | @unheard f frames err hpc =>
    refine h.keeps hbase rfl (fun i _ => ?_) (fun _ _ => ⟨rfl, rfl, id⟩)
      (sendsLast_of_not_sends rfl) h.registered
    rw [heard_of_todo (by rw [hpc]; rfl), heard_of_todo rfl]
    exact sublist_append_left ..
  | @tell f todo frames err i c hpc hc hi hopen =>
    obtain ⟨hearly, hended⟩ := h.base.between (by rw [hpc]; rfl)
    obtain ⟨hnodup, pre, hpre⟩ := h.frame f todo frames err hpc
    refine h.setChannel hbase rfl ((h.channel c (mem_of_getElem? hc)).offer hopen _)
      (fun hfaulty => ?_) (fun hend => ?_) (fun j hne => ?_) (fun _ _ => ⟨rfl, rfl, id⟩) ?_
      (h.registered_of_some hc)
    · rw [offer_faulty] at hfaulty
      have hgiven := h.log i c hc hfaulty
      rw [heard_of_mem (by rw [hpc]; exact hi), hpre, dropLast_concat] at hgiven
      rw [heard_of_notMem (by exact hnodup.not_mem_erase)]
      change Given s.handler i s.notified _
      rw [hpre]
      cases hfull : c.full with
      | false =>
        rw [offer_log hfull]
        exact hgiven.frame (not_startDue hearly i) ((not_inEnd hended).2 i)
      | true =>
        -- no room: the frame is dropped
        rw [Channel.offer, if_pos hfull]
        exact hgiven.mono (sublist_append_left _ _)
    · cases hended.symm.trans (ended_of_closedEnd hend)
    · simp [StreamWorld.heard, hpc, DrainerPc.todo, mem_erase_of_ne hne, StreamWorld.setChannel]
    · rintro _ _ _ _ ⟨⟩
      exact ⟨hnodup.erase i, pre, hpre⟩
  | panic hi hc hclosed =>
    cases hclosed.symm.trans (h.base.open_of_running (running_of_todo hi) hc)
  | closePipe hpc | record hpc | callback hpc =>
    refine h.keeps hbase rfl (fun i _ => ?_) (fun _ _ => ⟨rfl, rfl, id⟩)
      (sendsLast_of_not_sends rfl) h.registered
    rw [heard_of_todo (by rw [hpc]; rfl), heard_of_todo rfl]

/-- Before the end is notified nothing changes for the channels. -/
theorem GivenInv.waits (h : GivenInv s) (hbase : StreamInv s')
    (hchannels : s'.channels = s.channels)
    (hregistered : s'.registered = s.registered) (hheard : ∀ i, s'.heard i = s.heard i)
    (hold : s.handler.middle = true) (hnew : s'.handler.middle = true) (hframe : SendsLast s') :
    GivenInv s' := by
  refine h.keeps hbase hchannels (fun i _ => by rw [hheard]) (fun i _ => ?_) hframe
    fun _ => hregistered ▸ h.registered (middle_spec hold 0).2.2.2
  obtain ⟨hdue, hend, hclosed, -⟩ := middle_spec hold i
  obtain ⟨hdue', hend', hclosed', -⟩ := middle_spec hnew i
  exact ⟨hdue'.trans hdue.symm, hend'.trans hend.symm, fun he => by rw [hclosed'] at he; cases he⟩

theorem GivenInv.handler {a : HandlerAct} (h : GivenInv s) (hok : EndStepOk s (.handler a))
    (hs : handlerStep s a = some s') : GivenInv s' := by
  have hbase := h.base.handler hs
  have hnodup := h.base.handlerTodo
  cases handlerStep_moves hs with
  | wait hpc =>
    refine h.keeps hbase rfl (fun _ _ => .refl _) (fun _ _ => ?_) h.frame fun _ => h.registered ?_
    all_goals rcases hpc with hpc | hpc <;> rw [hpc]
    exacts [⟨rfl, rfl, id⟩, ⟨rfl, rfl, id⟩, rfl, rfl]
  | start hpc =>
    have hfresh : ∀ c ∈ startChannels (F := F) s.observers, c = .fresh := by
      intro c hc
      obtain ⟨o, -, rfl⟩ := mem_map.mp hc
      rfl
    refine ⟨hbase, fun i c hc _ => ?_, fun c hc => ?_, h.frame, fun _ => .inr rfl,
      fun _ _ _ he => by cases he⟩
    · have hi := (List.getElem?_eq_some_iff.mp hc).1
      rw [hfresh c (mem_of_getElem? hc)]
      simp [Given, startDue, hi, fresh]
    · rw [hfresh c hc]
      exact ⟨fun he => (by cases he), fun he => by cases he⟩
  | @tellStart todo i c hpc hc hi hopen hroom =>
    rw [hpc] at hnodup
    refine h.setChannel hbase rfl ((h.channel c (mem_of_getElem? hc)).offer hopen _)
      (fun hfaulty => ?_) (fun he => by cases he) (fun _ _ => rfl) (fun j hne => ?_) h.frame
      fun _ => h.registered_of_some hc (by rw [hpc]; rfl)
    · rw [offer_faulty] at hfaulty
      rw [offer_log hroom]
      exact (h.log i c hc hfaulty).start (by rw [hpc]; exact decide_eq_true hi)
        (decide_eq_false hnodup.not_mem_erase) rfl
    · simp [hpc, startDue, endSent, closedEnd, mem_erase_of_ne hne]
  | panic hpc hc hi hclosed => exact absurd hclosed (h.base.open_of_todo hpc hc hi)
  | answer hpc | abort hpc | eof hpc _ | fail hpc =>
    exact h.waits hbase rfl rfl (fun _ => rfl) (by rw [hpc]; rfl) rfl h.frame
  | stream hpc =>
    have hidle := h.base.idle (by rw [hpc]; rfl)
    refine h.waits hbase rfl rfl (fun i => ?_) (by rw [hpc]; rfl) rfl (sendsLast_of_not_sends rfl)
    rw [heard_of_todo rfl, heard_of_todo (by rw [hidle]; rfl)]
  | serve hserving hserving' _ _ =>
    exact h.waits hbase rfl rfl (fun _ => rfl) (middle_of_serving hserving)
      (middle_of_serving hserving') h.frame
  | unregister hpc _ =>
    refine h.keeps hbase rfl (fun _ _ => .refl _) (fun i hi => ?_) h.frame fun he => by cases he
    simp [hpc, startDue, endSent, closedEnd, hi]
  | unregistered hpc hreg =>
    have hnone := (h.registered (by rw [hpc]; rfl)).resolve_right (by simp [hreg])
    refine h.keeps hbase rfl (fun _ _ => .refl _) (fun i hi => ?_) h.frame fun he => by cases he
    rw [hnone] at hi
    cases hi
  | finish hpc =>
    refine h.keeps hbase rfl (fun _ _ => .refl _) (fun i _ => ?_) h.frame fun he => by cases he
    simp [hpc, startDue, endSent, closedEnd]
  | @tellEnd todo i c hpc hc hi hopen =>
    rw [hpc] at hnodup
    refine h.setChannel hbase rfl ((h.channel c (mem_of_getElem? hc)).offer hopen _)
      (fun hfaulty => ?_) (by simp [closedEnd]) (fun _ _ => rfl) (fun j hne => ?_) h.frame
      fun he => by cases he
    · rw [offer_faulty] at hfaulty
      rw [offer_log (hok (by rw [hpc]; rfl) _ hc hfaulty)]
      exact (h.log i c hc hfaulty).finish (by rw [hpc]; rfl) (by simp [hpc, endSent, hi]) rfl
        (decide_eq_true hnodup.not_mem_erase)
    · simp [hpc, startDue, endSent, closedEnd, mem_erase_of_ne hne, hne]
  | @closeChannel todo i c hpc hc =>
    rw [hpc] at hnodup
    have hinv := h.channel c (mem_of_getElem? hc)
    refine h.setChannel hbase rfl ⟨fun he => ⟨(hinv.exited he).1, rfl⟩, hinv.disabled⟩
      (fun hfaulty => ?_) (fun _ => rfl) (fun _ _ => rfl) (fun j hne => ?_) h.frame
      fun he => by cases he
    · exact (h.log i c hc hfaulty).moves (by rw [hpc]; rfl) (by rw [hpc]; rfl)
    · simp [hpc, startDue, endSent, closedEnd, hne]

/-- What a consumer takes, it takes from the front; a hook that returns has been called with
it. -/
theorem take_spec {outcome : HookOutcome} (hs : c.consume (.take outcome) = some c') :
    ∃ ev rest, c.queue = ev :: rest ∧ c'.queue = rest ∧ c'.exited = c.exited ∧
      (c'.disabled = true → c.disabled = true ∨ c'.faulty = true) ∧
      (c'.faulty = false → c.faulty = false ∧
        (c.disabled = true ∨ c'.calls = c.calls ++ [ev])) := by
  simp only [consume] at hs
  split at hs
  · cases hs
  next ev rest hqueue =>
    cases hs
    refine ⟨ev, rest, hqueue, ?_⟩
    split
    next hdisabled => exact ⟨rfl, rfl, .inl, fun hfaulty => ⟨hfaulty, .inl hdisabled⟩⟩
    next =>
      cases outcome with
      | returns => exact ⟨rfl, rfl, .inl, fun hfaulty => ⟨hfaulty, .inr rfl⟩⟩
      | panics exhausted => exact ⟨rfl, rfl, fun _ => .inr rfl, nofun⟩

variable {a : ConsumerAct}

theorem ChannelInv.consume (h : ChannelInv c) (hs : c.consume a = some c') :
    ChannelInv c' ∧ (c'.faulty = false → c.faulty = false ∧
      c'.calls ++ c'.queue = c.calls ++ c.queue) := by
  cases a with
  | take outcome =>
    -- a consumer that has left finds nothing to take
    obtain ⟨ev, rest, hqueue, hrest, hexited, hdisabled, hcalls⟩ := take_spec hs
    refine ⟨⟨fun he => ?_, fun hd => ?_⟩, fun hfaulty => ?_⟩
    · rw [(h.exited (hexited ▸ he)).1] at hqueue
      cases hqueue
    · refine (hdisabled hd).elim (fun hold => ?_) id
      by_contra hfaulty
      exact absurd (h.disabled hold) (by simp [(hcalls (by simpa using hfaulty)).1])
    · obtain ⟨hfaulty, hold | hcalls⟩ := hcalls hfaulty
      · cases hfaulty.symm.trans (h.disabled hold)
      · exact ⟨hfaulty, by rw [hcalls, hrest, hqueue, append_assoc, singleton_append]⟩
  | exit =>
    simp only [consume] at hs
    split at hs <;> cases hs
    next hleave =>
      exact ⟨⟨fun _ => ⟨isEmpty_iff.mp hleave.1, hleave.2.1⟩, h.disabled⟩,
        fun hfaulty => ⟨hfaulty, rfl⟩⟩
  | disable =>
    cases hs
    exact ⟨⟨h.exited, fun _ => rfl⟩, nofun⟩

theorem consumerLeft_consume (hs : c.consume a = some c') :
    consumerLeft c' ≤ consumerLeft c ∧ (a ≠ .disable → consumerLeft c' < consumerLeft c) := by
  unfold consumerLeft
  cases a with
  | take outcome =>
    obtain ⟨ev, rest, hqueue, hrest, hexited, -, -⟩ := take_spec hs
    rw [hqueue, hrest, hexited, length_cons]
    omega
  | exit =>
    simp only [consume] at hs
    split at hs <;> cases hs
    next hleave => simp [hleave.2.2]
  | disable =>
    cases hs
    exact ⟨Nat.le_refl _, fun hne => absurd rfl hne⟩

theorem GivenInv.step {a : StreamAct} (h : GivenInv s) (hok : EndStepOk s a)
    (hs : streamStep s a = some s') : GivenInv s' := by
  have hbase := h.base.step hs
  cases a with
  | handler a => exact h.handler hok hs
  | drainer a => exact h.drainer hs
  | consumer i a =>
    obtain ⟨c, hc, hs⟩ := bind_eq_some_iff.mp hs
    obtain ⟨c', hconsume, hs⟩ := bind_eq_some_iff.mp hs
    cases hs
    obtain ⟨hinv, hlog⟩ := (h.channel c (mem_of_getElem? hc)).consume hconsume
    refine h.setChannel hbase rfl hinv (fun hfaulty => ?_) (fun hend => ?_) (fun _ _ => rfl)
      (fun _ _ => ⟨rfl, rfl, id⟩) h.frame (h.registered_of_some hc)
    · obtain ⟨hold, hsame⟩ := hlog hfaulty
      rw [hsame]
      exact h.log i c hc hold
    · exact (consume_closed hconsume).trans (h.shut i c hc hend)
  | clientGone | shutdown =>
    cases hs
    exact ⟨hbase, h.log, h.channel, h.frame, h.registered, h.shut⟩

/-! ## The main result -/

theorem HandlerPc.endSent_of_closedEnd (h : pc.closedEnd i = true) :
    pc.endSent i = true ∧ pc.startDue i = false := by
  cases pc with
  | sendEnd todo => exact ⟨h, rfl⟩
  | closing j todo => exact ⟨decide_eq_true (of_decide_eq_true h).1, rfl⟩
  | finished => exact ⟨rfl, rfl⟩
  | _ => cases h

theorem heard_sublist (s : StreamWorld F) (i : Nat) : (s.heard i).Sublist s.notified := by
  unfold StreamWorld.heard
  split
  · exact dropLast_sublist _
  · exact List.Sublist.refl _

theorem GivenInv.whole {s : StreamWorld F} (h : GivenInv s) {c : Channel F} (hc : c ∈ s.channels)
    (hfaulty : c.faulty = false) (hexited : c.exited = true) : WholeRequest s.notified c.calls := by
  obtain ⟨i, hi⟩ := mem_iff_getElem?.mp hc
  obtain ⟨hempty, hclosed⟩ := (h.channel c hc).exited hexited
  obtain ⟨hsent, hdue⟩ := endSent_of_closedEnd (h.base.closed i c hi hclosed)
  have hgiven := h.log i c hi hfaulty
  unfold Given at hgiven
  rw [if_neg (by rw [hdue]; simp), hsent, hempty, append_nil] at hgiven
  obtain ⟨fs, hfs, hcalls⟩ := hgiven
  exact ⟨fs, hfs.trans (heard_sublist s i), hcalls⟩

theorem GivenInv.finished_step {a : StreamAct} (h : GivenInv s) (hfin : s.handler = .finished)
    (hs : streamStep s a = some s') (hc : s.channels[i]? = some c) :
    ∃ c', s'.channels[i]? = some c' ∧ consumerLeft c' ≤ consumerLeft c ∧
      ∀ e, a = .consumer i e → e ≠ .disable → consumerLeft c' < consumerLeft c := by
  cases a with
  | handler a => simp [streamStep, handlerStep, hfin] at hs
  | drainer a =>
    have hrun : s.drainer.running = false := h.base.ended (by rw [hfin]; rfl)
    refine ⟨c, ?_, Nat.le_refl _, fun _ he => by cases he⟩
    cases drainerStep_moves hs with
    | tell hpc _ _ _ =>
      rw [hpc] at hrun
      cases hrun
    | _ => exact hc
  | consumer j e =>
    obtain ⟨d, hd, hs⟩ := bind_eq_some_iff.mp hs
    obtain ⟨d', hconsume, hs⟩ := bind_eq_some_iff.mp hs
    cases hs
    have hless := consumerLeft_consume hconsume
    by_cases hij : j = i
    · subst hij
      obtain rfl := some.inj (hd.symm.trans hc)
      refine ⟨d', getElem?_set_of_some hc d', hless.1, ?_⟩
      rintro _ ⟨⟩
      exact hless.2
    · refine ⟨c, (getElem?_set_ne hij).trans hc, Nat.le_refl _, ?_⟩
      rintro _ ⟨⟩
      exact absurd rfl hij
  | clientGone | shutdown =>
    cases hs
    exact ⟨c, hc, Nat.le_refl _, fun _ he => by cases he⟩

theorem GivenInv.proceed (h : GivenInv s) : ConsumersProceed s := by
  intro hfin i c hc hstay
  refine ⟨?_, fun a s' hs => h.finished_step hfin hs hc⟩
  have hclosed := h.shut i c hc (by rw [hfin]; rfl)
  cases hqueue : c.queue with
  | nil =>
    refine ⟨.exit, by simp, ?_⟩
    simp [streamStep, hc, consume, hqueue, hclosed, hstay]
  | cons ev rest =>
    refine ⟨.take .returns, by simp, ?_⟩
    simp [streamStep, hc, consume, hqueue]

/-- **Observers see a complete request** in every run in which `NotifyEnd` finds room in the
channels. -/
theorem observers_see_whole_request (observers : List ActiveObserver) (upstream : List (Chunk F))
    (acts : List StreamAct) (s : StreamWorld F)
    (hrun : Guarded streamStep EndStepOk (StreamWorld.init observers upstream) acts s) :
    ObserversServed s := by
  have h : GivenInv s :=
    hrun.invariant (fun _ _ _ hinv hok hs => hinv.step hok hs) (GivenInv.init observers upstream)
  exact ⟨fun c hc hfaulty hexited => h.whole hc hfaulty hexited, h.proceed⟩

/-! ## Streams of one chunk -/

def oneChunkStream (n takes : Nat) : List StreamAct :=
  [.handler .go, .handler (.tell 0), .handler .go, .handler .stream, .drainer .go,
    .drainer (.chunk (some .eof)), .handler (.readPipe 1), .handler (.written true), .drainer .go]
  ++ (List.replicate n [.drainer .go, .drainer (.tell 0), .drainer .go]).flatten
  ++ [.drainer .go, .drainer .go, .handler .go, .handler .go, .handler (.tell 0), .handler .go,
    .handler .go]
  ++ List.replicate takes (.consumer 0 (.take .returns)) ++ [.consumer 0 .exit]

theorem one_frame_request_whole :
    ∃ s, Guarded streamStep EndStepOk (StreamWorld.init [⟨true, false⟩] [⟨0, [()]⟩])
        (oneChunkStream 1 3) s ∧
      s.channels = [⟨[], true, [.start, .sse (), .finish], true, false, false⟩] ∧
      ObserversServed s := by
  refine ⟨_, Guarded.of_guardedExec rfl, rfl, ?_⟩
  exact observers_see_whole_request [⟨true, false⟩] [⟨0, [()]⟩] (oneChunkStream 1 3) _
    (Guarded.of_guardedExec rfl)

theorem fullChannel_exec :
    ∃ s, exec streamStep (StreamWorld.init [⟨true, false⟩] [⟨0, List.replicate 31 ()⟩])
        (oneChunkStream 31 32) = some s ∧
      s.channels = [⟨[], true, .start :: List.replicate 31 (.sse ()), true, false, false⟩] :=
  ⟨_, rfl, rfl⟩

theorem full_channel_misses_end :
    ¬ ∀ (F : Type) (observers : List ActiveObserver) (upstream : List (Chunk F))
      (acts : List StreamAct) (s : StreamWorld F),
      exec streamStep (StreamWorld.init observers upstream) acts = some s → ObserversServed s := by
  intro hall
  obtain ⟨s, hexec, hchannels⟩ := fullChannel_exec
  have hserved := hall Unit _ _ _ s hexec
  obtain ⟨fs, -, hcalls⟩ :=
    hserved.whole _ (by rw [hchannels]; exact mem_singleton_self _) rfl rfl
  have hmem : ObserverEvent.finish ∈ ObserverEvent.start :: fs.map .sse ++ [.finish] := by simp
  rw [← hcalls] at hmem
  simp at hmem

end AikeyProxy.Proxy
