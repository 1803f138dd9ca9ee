import AikeyProxy.Lib.Region
import AikeyProxy.Proxy.StreamDrainer
import Mathlib.Algebra.GroupWithZero.Nat

/-!
# Ending a request does not break its stream

The handler comes to `NotifyEnd` without a drainer, or after the pipe has given it the end of the
stream. The drainer closes the pipe after its loop, so it has no frame left to notify by then. A
client that goes away makes the copy fail, and the handler is aborted before `NotifyEnd`; the
drainer finds the pipe closed and records what it has.
-/

namespace AikeyProxy.Proxy

open Lib Observer List DrainerPc StreamWorld HandlerPc Option Channel

variable {F : Type}

/-! ## Where the two stand -/

def HandlerPc.early : HandlerPc → Bool
  | .begin | .sendStart _ | .roundTrip => true
  | _ => false

def HandlerPc.serving : HandlerPc → Bool
  | .copying | .writing | .failed => true
  | _ => false

def HandlerPc.ended : HandlerPc → Bool
  | .notifyEnd | .sendEnd _ | .closing .. | .finished => true
  | _ => false

def HandlerPc.left (pc : HandlerPc) : Bool := pc.ended || decide (pc = .aborted)

def HandlerPc.closedEnd (i : Nat) : HandlerPc → Bool
  | .sendEnd todo => i ∉ todo
  | .closing j todo => i ∉ todo ∧ i ≠ j
  | .finished => true
  | _ => false

def HandlerPc.todo : HandlerPc → List Nat
  | .sendStart todo | .sendEnd todo => todo
  | .closing i todo => i :: todo
  | _ => []

def DrainerPc.running : DrainerPc F → Bool
  | .top | .read | .write .. | .frames .. | .sending .. | .close _ => true
  | _ => false

def DrainerPc.closedPipe : DrainerPc F → Bool
  | .record _ | .callback _ | .done => true
  | _ => false

def DrainerPc.todo : DrainerPc F → List Nat
  | .sending _ todo _ _ => todo
  | _ => []

def DrainerPc.sends : DrainerPc F → Bool
  | .sending .. => true
  | _ => false

theorem DrainerPc.todo_of_not_sends {pc : DrainerPc F} (h : pc.sends = false) : pc.todo = [] := by
  cases pc with
  | sending f todo frames err => cases h
  | _ => rfl

def DrainerPc.records : DrainerPc F → Nat
  | .callback _ | .done => 1
  | _ => 0

def DrainerPc.callbacks : DrainerPc F → Nat
  | .done => 1
  | _ => 0

variable {i : Nat} {pc : HandlerPc} {s s' : StreamWorld F} {a : HandlerAct} {c : Channel F}
  {todo : List Nat}

theorem DrainerPc.running_of_todo {pc : DrainerPc F} (h : i ∈ pc.todo) : pc.running = true := by
  cases pc with
  | sending f todo frames err => rfl
  | _ => cases h

theorem HandlerPc.ended_of_closedEnd (h : pc.closedEnd i = true) : pc.ended = true := by
  cases pc with
  | sendEnd _ | closing _ _ | finished => rfl
  | _ => cases h

theorem HandlerPc.not_early_of_ended (h : pc.ended = true) : pc.early = false := by
  cases pc with
  | notifyEnd | sendEnd _ | closing _ _ | finished => rfl
  | _ => cases h

theorem HandlerPc.of_serving (h : pc.serving = true) :
    pc.early = false ∧ pc.ended = false ∧ pc.left = false ∧ pc.todo = [] := by
  cases pc with
  | copying | writing | failed => exact ⟨rfl, rfl, rfl, rfl⟩
  | _ => cases h

theorem DrainerPc.not_running_of_closedPipe {pc : DrainerPc F} (h : pc.closedPipe = true) :
    pc.running = false := by
  cases pc with
  | record _ | callback _ | done => rfl
  | _ => cases h

/-! ## What a step of the drainer does -/

inductive DrainerMove (s : StreamWorld F) : StreamWorld F → Prop
  | loop {old pc : DrainerPc F} {pipe : Pipe} {upstream : List (Chunk F)} :
      s.drainer = old → old.running = true → old.todo = [] → pc.running = true →
      pc.sends = false →
      (pipe.writerClosed = some .eof → s.pipe.writerClosed = some .eof) →
      pipe.readerClosed = s.pipe.readerClosed →
      DrainerMove s { s with drainer := pc, pipe, upstream }
  | frame {f : F} {frames : List F} {err : Option ReadErr} :
      s.drainer = .frames (f :: frames) err → s.registered = true →
      DrainerMove s { s with
        fed := s.fed ++ [f], notified := s.notified ++ [f]
        drainer := .sending f (List.range s.channels.length) frames err }
  | unheard {f : F} {frames : List F} {err : Option ReadErr} :
      s.drainer = .frames (f :: frames) err →
      DrainerMove s { s with
        fed := s.fed ++ [f], notified := s.notified ++ [f], drainer := .frames frames err }
  | tell {f : F} {todo : List Nat} {frames : List F} {err : Option ReadErr} {i : Nat}
      {c : Channel F} :
      s.drainer = .sending f todo frames err → s.channels[i]? = some c → i ∈ todo →
      c.closed = false →
      DrainerMove s { s.setChannel i (c.offer (.sse f)) with
        drainer := .sending f (todo.erase i) frames err }
  | panic {i : Nat} {c : Channel F} :
      i ∈ s.drainer.todo → s.channels[i]? = some c → c.closed = true →
      DrainerMove s { s with closedSends := s.closedSends + 1, drainer := .panicked }
  | closePipe {completion : Completion} :
      s.drainer = .close completion →
      DrainerMove s { s with
        drainer := .record completion, pipe := s.pipe.closeWriter .eof }
  | record {completion : Completion} :
      s.drainer = .record completion →
      DrainerMove s { s with
        drainer := .callback completion, recorded := s.recorded ++ [(s.fed, completion)] }
  | callback {completion : Completion} :
      s.drainer = .callback completion →
      DrainerMove s { s with drainer := .done, completed := s.completed ++ [completion] }

theorem Pipe.closeWriter_other {p : Pipe} (h : (p.closeWriter .other).writerClosed = some .eof) :
    p.writerClosed = some .eof := by
  unfold Pipe.closeWriter at h
  cases hw : p.writerClosed with
  | none => simp [hw] at h
  | some err => simpa [hw] using h

theorem drainerStep_moves {a : DrainerAct} (hs : drainerStep s a = some s') : DrainerMove s s' := by
  revert hs
  fun_cases drainerStep s a <;> intro hs
  case case17 hpc =>
    obtain ⟨c, hc, hs⟩ := bind_eq_some_iff.mp hs
    split at hs
    · cases hs
    next hin =>
      have hmem := Decidable.not_not.mp hin
      split at hs <;> cases hs
      next hclosed => exact .panic (by rw [hpc]; exact hmem) hc hclosed
      next hopen => exact .tell hpc hc hmem (by simpa using hopen)
  all_goals cases hs
  case case1 hpc _ => exact .loop hpc rfl rfl rfl rfl Pipe.closeWriter_other rfl
  case case13 hpc _ hreg => exact .frame hpc hreg
  case case14 hpc _ _ => exact .unheard hpc
  case case19 hpc => exact .closePipe hpc
  case case20 hpc => exact .record hpc
  case case21 hpc => exact .callback hpc
  all_goals exact .loop ‹_› rfl rfl rfl rfl id rfl

/-! ## What a step of the handler does -/

/-- How many steps the handler has left to take for the stream, beside its reads. -/
def HandlerPc.work : HandlerPc → Nat
  | .writing => 3
  | .copying => 2
  | .failed => 1
  | _ => 0

/-- The kinds of steps the handler takes. While it serves the stream it only changes the pipe,
and comes closer to its end. -/
inductive HandlerMove (s : StreamWorld F) : HandlerAct → StreamWorld F → Prop
  | wait : s.handler = .begin ∨ s.handler = .sendStart [] →
      HandlerMove s .go { s with handler := .roundTrip }
  | start : s.handler = .begin →
      HandlerMove s .go { s with
        channels := startChannels s.observers, registered := true
        handler := .sendStart (List.range (startChannels (F := F) s.observers).length) }
  | tellStart {todo : List Nat} {i : Nat} {c : Channel F} :
      s.handler = .sendStart todo → s.channels[i]? = some c → i ∈ todo → c.closed = false →
      c.full = false →
      HandlerMove s (.tell i)
        { s.setChannel i (c.offer .start) with handler := .sendStart (todo.erase i) }
  | panic {todo : List Nat} {i : Nat} {c : Channel F} :
      s.handler = .sendStart todo ∨ s.handler = .sendEnd todo → s.channels[i]? = some c →
      i ∈ todo → c.closed = true →
      HandlerMove s (.tell i) { s with closedSends := s.closedSends + 1, handler := .aborted }
  | answer : s.handler = .roundTrip → HandlerMove s .answer { s with handler := .notifyEnd }
  | abort : s.handler = .roundTrip → HandlerMove s .abort { s with handler := .aborted }
  | stream : s.handler = .roundTrip →
      HandlerMove s .stream { s with handler := .copying, drainer := .top }
  | serve {a : HandlerAct} {pc : HandlerPc} {pipe : Pipe} :
      s.handler.serving = true → pc.serving = true →
      pipe.writerClosed = s.pipe.writerClosed →
      2 * pipe.offered + pc.work < 2 * s.pipe.offered + s.handler.work →
      HandlerMove s a { s with handler := pc, pipe }
  | eof : s.handler = .copying → s.pipe.writerClosed = some .eof →
      HandlerMove s .go { s with
        handler := .notifyEnd, pipe := { s.pipe with readerClosed := true } }
  | fail : s.handler = .failed →
      HandlerMove s .go { s with
        handler := .aborted, pipe := { s.pipe with readerClosed := true } }
  | unregister : s.handler = .notifyEnd → s.registered = true →
      HandlerMove s .go { s with
        registered := false, handler := .sendEnd (List.range s.channels.length) }
  | unregistered : s.handler = .notifyEnd → s.registered = false →
      HandlerMove s .go { s with handler := .finished }
  | tellEnd {todo : List Nat} {i : Nat} {c : Channel F} :
      s.handler = .sendEnd todo → s.channels[i]? = some c → i ∈ todo → c.closed = false →
      HandlerMove s (.tell i)
        { s.setChannel i (c.offer .finish) with handler := .closing i (todo.erase i) }
  | finish : s.handler = .sendEnd [] → HandlerMove s .go { s with handler := .finished }
  | closeChannel {todo : List Nat} {i : Nat} {c : Channel F} :
      s.handler = .closing i todo → s.channels[i]? = some c →
      HandlerMove s .go { s.setChannel i { c with closed := true } with handler := .sendEnd todo }

theorem handlerStep_moves (hs : handlerStep s a = some s') : HandlerMove s a s' := by
  revert hs
  fun_cases handlerStep s a <;> intro hs
  case case3 hpc =>
    obtain ⟨c, hc, hs⟩ := bind_eq_some_iff.mp hs
    split at hs
    · cases hs
    next hin =>
      have hmem := Decidable.not_not.mp hin
      split at hs
      next hclosed =>
        cases hs
        exact .panic (.inl hpc) hc hmem hclosed
      next hopen =>
        split at hs <;> cases hs
        next hroom => exact .tellStart hpc hc hmem (by simpa using hopen) (by simpa using hroom)
  case case19 hpc =>
    obtain ⟨c, hc, hs⟩ := bind_eq_some_iff.mp hs
    split at hs
    · cases hs
    next hin =>
      have hmem := Decidable.not_not.mp hin
      split at hs <;> cases hs
      next hclosed => exact .panic (.inr hpc) hc hmem hclosed
      next hopen => exact .tellEnd hpc hc hmem (by simpa using hopen)
  case case21 hpc =>
    obtain ⟨c, hc, hs⟩ := bind_eq_some_iff.mp hs
    cases hs
    exact .closeChannel hpc hc
  all_goals cases hs
  case case1 hpc _ => exact .wait (.inl hpc)
  case case2 hpc _ _ => exact .start hpc
  case case4 hpc => exact .wait (.inr hpc)
  case case5 hpc => exact .answer hpc
  case case6 hpc => exact .abort hpc
  case case7 hpc => exact .stream hpc
  case case11 hpc heof => exact .eof hpc heof
  case case15 ok hpc =>
    exact .serve (by rw [hpc]; rfl) (by cases ok <;> rfl) rfl
      (by cases ok <;> simp [hpc, HandlerPc.work])
  case case16 hpc => exact .fail hpc
  case case17 hpc hreg => exact .unregister hpc hreg
  case case18 hpc hreg => exact .unregistered hpc (by simpa using hreg)
  case case20 hpc => exact .finish hpc
  case case8 hpc _ | case12 hpc _ | case13 hpc _ =>
    exact .serve (by rw [hpc]; rfl) rfl rfl (by simp only [hpc, HandlerPc.work]; omega)

/-! ## The invariant -/

structure StreamInv (s : StreamWorld F) : Prop where
  idle : s.handler.early = true → s.drainer = .idle
  eof : s.pipe.writerClosed = some .eof → s.drainer.closedPipe = true
  ended : s.handler.ended = true → s.drainer.running = false
  closed : ∀ i c, s.channels[i]? = some c → c.closed = true → s.handler.closedEnd i = true
  reader : s.handler.left = true → s.drainer = .idle ∨ s.pipe.readerClosed = true
  handlerTodo : s.handler.todo.Nodup
  drainerTodo : ∀ i ∈ s.drainer.todo, i < s.channels.length
  clean : s.closedSends = 0
  awake : s.drainer ≠ .panicked
  recorded : s.recorded.length = s.drainer.records
  completed : s.completed.length = s.drainer.callbacks

variable (observers : List ActiveObserver) (upstream : List (Chunk F))

theorem StreamInv.init : StreamInv (StreamWorld.init observers upstream) where
  idle _ := rfl
  eof h := by cases h
  ended h := by cases h
  closed i c hc := by simp [StreamWorld.init] at hc
  reader h := by cases h
  handlerTodo := nodup_nil
  drainerTodo i hi := by cases hi
  clean := rfl
  awake h := by cases h
  recorded := rfl
  completed := rfl

theorem StreamInv.open_of_running (h : StreamInv s) (hrun : s.drainer.running = true)
    (hc : s.channels[i]? = some c) : c.closed = false := by
  by_contra hclosed
  have hend := ended_of_closedEnd (h.closed i c hc (by simpa using hclosed))
  rw [h.ended hend] at hrun
  cases hrun

theorem DrainerPc.counts_of_running {pc : DrainerPc F} (h : pc.running = true) :
    pc.records = 0 ∧ pc.callbacks = 0 := by
  cases pc with
  | idle | record _ | callback _ | done | panicked => cases h
  | _ => exact ⟨rfl, rfl⟩

theorem DrainerPc.ne_of_running {pc : DrainerPc F} (h : pc.running = true) :
    pc ≠ .idle ∧ pc.closedPipe = false ∧ pc ≠ .panicked := by
  cases pc with
  | idle | record _ | callback _ | done | panicked => cases h
  | _ => exact ⟨by simp, rfl, by simp⟩

variable {c' : Channel F} {pipe : Pipe}

theorem StreamInv.setChannel (h : StreamInv s) (hc : s.channels[i]? = some c)
    (hsame : c'.closed = c.closed) : StreamInv (s.setChannel i c') := by
  refine { h with closed := fun j d hd hclosed => ?_, drainerTodo := ?_ }
  · obtain ⟨rfl, rfl⟩ | ⟨-, hd⟩ := getElem?_set_cases hd
    · exact h.closed j c hc (hsame ▸ hclosed)
    · exact h.closed j d hd hclosed
  · change ∀ j ∈ s.drainer.todo, j < (s.channels.set i c').length
    rw [length_set]
    exact h.drainerTodo

/-! ### The drainer -/

theorem StreamInv.loops (h : StreamInv s) (pc : DrainerPc F) (hold : s.drainer.running = true)
    (hnew : pc.running = true) (htodo : ∀ i ∈ pc.todo, i < s.channels.length)
    (hwriter : pipe.writerClosed = some .eof → s.pipe.writerClosed = some .eof)
    (hreader : pipe.readerClosed = s.pipe.readerClosed) :
    StreamInv { s with drainer := pc, pipe } := by
  obtain ⟨hidle, hopen, -⟩ := ne_of_running hold
  obtain ⟨hrec, hcomp⟩ := counts_of_running hold
  obtain ⟨hrec', hcomp'⟩ := counts_of_running hnew
  exact { h with
    idle := fun he => absurd (h.idle he) hidle
    eof := fun he => absurd (h.eof (hwriter he)) (by simp [hopen])
    ended := fun he => absurd (h.ended he) (by simp [hold])
    reader := fun hl => .inr (hreader.trans ((h.reader hl).resolve_left hidle))
    drainerTodo := htodo
    awake := (ne_of_running hnew).2.2
    recorded := h.recorded.trans (hrec.trans hrec'.symm)
    completed := h.completed.trans (hcomp.trans hcomp'.symm) }

/-- The drainer is past its loop: the pipe is closed. -/
theorem StreamInv.closes {recorded : List (List F × Completion)} {completed : List Completion}
    (h : StreamInv s) (pc : DrainerPc F) (hold : s.drainer ≠ .idle) (hnew : pc.closedPipe = true)
    (hreader : pipe.readerClosed = s.pipe.readerClosed) (hrec : recorded.length = pc.records)
    (hcomp : completed.length = pc.callbacks) :
    StreamInv { s with drainer := pc, pipe, recorded, completed } := by
  have hdone : pc.running = false := not_running_of_closedPipe hnew
  exact { h with
    idle := fun he => absurd (h.idle he) hold
    eof := fun _ => hnew
    ended := fun _ => hdone
    reader := fun hl => .inr (hreader.trans ((h.reader hl).resolve_left hold))
    drainerTodo := fun i hi => absurd (running_of_todo hi) (by simp [hdone])
    awake := by rintro rfl; cases hnew
    recorded := hrec
    completed := hcomp }

theorem StreamInv.drainer {a : DrainerAct} (h : StreamInv s) (hs : drainerStep s a = some s') :
    StreamInv s' := by
  have hrec := h.recorded
  have hcomp := h.completed
  cases drainerStep_moves hs with
  | @loop _ pc _ _ hpc hold _ hnew hsends hwriter hreader =>
    subst hpc
    have hnone : ∀ i ∈ pc.todo, i < s.channels.length := by
      rw [todo_of_not_sends hsends]
      exact nofun
    exact { h.loops pc hold hnew hnone hwriter hreader with }
  | frame hpc _ =>
    exact { h.loops (.sending ..) (by rw [hpc]; rfl) rfl (fun i => mem_range.mp) id rfl with }
  | unheard hpc => exact { h.loops (.frames ..) (by rw [hpc]; rfl) rfl nofun id rfl with }
  | @tell f todo frames err i c hpc hc hi _ =>
    have hsent := h.setChannel hc (c.offer_closed (.sse f))
    have htodo := hsent.drainerTodo
    have hdrainer : (s.setChannel i (c.offer (.sse f))).drainer = .sending f todo frames err := hpc
    rw [hdrainer] at htodo
    exact { hsent.loops (.sending f (todo.erase i) frames err) (by rw [hdrainer]; rfl) rfl
      (fun j hj => htodo j (mem_of_mem_erase hj)) id rfl with }
  | panic hi hc hclosed =>
    rw [h.open_of_running (running_of_todo hi) hc] at hclosed
    cases hclosed
  | closePipe hpc =>
    rw [hpc] at hrec hcomp
    exact h.closes (.record _) (by rw [hpc]; nofun) rfl rfl hrec hcomp
  | record hpc =>
    rw [hpc] at hrec hcomp
    exact h.closes (.callback _) (by rw [hpc]; nofun) rfl rfl (by rw [length_append, hrec]; rfl)
      hcomp
  | callback hpc =>
    rw [hpc] at hrec hcomp
    exact h.closes .done (by rw [hpc]; nofun) rfl rfl hrec (by rw [length_append, hcomp]; rfl)

/-! ### The handler -/

theorem StreamInv.open_of_todo (h : StreamInv s)
    (hpc : s.handler = .sendStart todo ∨ s.handler = .sendEnd todo) (hc : s.channels[i]? = some c)
    (hi : i ∈ todo) : ¬c.closed = true := by
  intro hclosed
  have hend := h.closed i c hc hclosed
  rcases hpc with hpc | hpc
  · rw [hpc] at hend
    cases hend
  · rw [hpc] at hend
    simp [closedEnd, hi] at hend

/-- Before `NotifyEnd` no channel is closed. -/
theorem StreamInv.serves (h : StreamInv s) (hold : s.handler.ended = false)
    (hwriter : pipe.writerClosed = s.pipe.writerClosed)
    (hidle : pc.early = true → s.drainer = .idle)
    (hended : pc.ended = true → s.drainer.running = false)
    (hreader : pc.left = true → s.drainer = .idle ∨ pipe.readerClosed = true)
    (htodo : pc.todo.Nodup) : StreamInv { s with handler := pc, pipe } :=
  { h with
    idle := hidle
    eof := fun he => h.eof (hwriter ▸ he)
    ended := hended
    closed := fun i c hc hclosed => by
      rw [ended_of_closedEnd (h.closed i c hc hclosed)] at hold
      cases hold
    reader := hreader
    handlerTodo := htodo }

theorem StreamInv.ends (h : StreamInv s) (hold : s.handler.ended = true) (hnew : pc.ended = true)
    (hclosed : ∀ i c, s.channels[i]? = some c → s.handler.closedEnd i = true →
      pc.closedEnd i = true) (htodo : pc.todo.Nodup) : StreamInv { s with handler := pc } :=
  { h with
    idle := fun he => by rw [not_early_of_ended hnew] at he; cases he
    ended := fun _ => h.ended hold
    closed := fun i c hc hcl => hclosed i c hc (h.closed i c hc hcl)
    reader := fun _ => h.reader (by rw [left, hold]; rfl)
    handlerTodo := htodo }

theorem StreamInv.handler (h : StreamInv s) (hs : handlerStep s a = some s') : StreamInv s' := by
  have hnodup := h.handlerTodo
  cases handlerStep_moves hs with
  | wait hpc =>
    have hold : s.handler.early = true ∧ s.handler.ended = false := by
      rcases hpc with hpc | hpc <;> rw [hpc] <;> exact ⟨rfl, rfl⟩
    exact h.serves hold.2 rfl (fun _ => h.idle hold.1) nofun nofun nodup_nil
  | start hpc =>
    have hidle := h.idle (by rw [hpc]; rfl)
    refine { h with
      idle := fun _ => hidle, ended := nofun, closed := fun i c hc hclosed => ?_, reader := nofun
      handlerTodo := nodup_range, drainerTodo := by rw [hidle]; exact nofun }
    -- the channels are new
    obtain ⟨o, -, rfl⟩ := mem_map.mp (mem_of_getElem? hc)
    cases hclosed
  | tellStart hpc hc hi _ _ =>
    have hidle := h.idle (by rw [hpc]; rfl)
    rw [hpc] at hnodup
    exact (h.setChannel hc (offer_closed ..)).serves (congrArg HandlerPc.ended hpc) rfl
      (fun _ => hidle) nofun nofun (hnodup.erase _)
  | panic hpc hc hi hclosed => exact absurd hclosed (h.open_of_todo hpc hc hi)
  | answer hpc =>
    have hidle := h.idle (by rw [hpc]; rfl)
    exact h.serves (by rw [hpc]; rfl) rfl nofun (fun _ => by rw [hidle]; rfl)
      (fun _ => .inl hidle) nodup_nil
  | abort hpc =>
    exact h.serves (by rw [hpc]; rfl) rfl nofun nofun (fun _ => .inl (h.idle (by rw [hpc]; rfl)))
      nodup_nil
  | stream hpc =>
    have hidle := h.idle (by rw [hpc]; rfl)
    have hrec := h.recorded
    have hcomp := h.completed
    have heof := h.eof
    rw [hidle] at hrec hcomp heof
    have hcopy : StreamInv { s with handler := .copying } :=
      h.serves (by rw [hpc]; rfl) rfl nofun nofun nofun nodup_nil
    exact { hcopy with
      idle := nofun, eof := fun he => absurd (heof he) nofun, ended := nofun, reader := nofun
      drainerTodo := nofun, awake := nofun, recorded := hrec, completed := hcomp }
  | serve hserving hserving' hwriter _ =>
    obtain ⟨hearly, hended, hleft, htodo⟩ := of_serving hserving'
    refine h.serves (of_serving hserving).2.1 hwriter ?_ ?_ ?_ (htodo ▸ nodup_nil)
    · rw [hearly]; exact nofun
    · rw [hended]; exact nofun
    · rw [hleft]; exact nofun
  | eof hpc heof =>
    exact h.serves (by rw [hpc]; rfl) rfl nofun (fun _ => not_running_of_closedPipe (h.eof heof))
      (fun _ => .inr rfl) nodup_nil
  | fail hpc => exact h.serves (by rw [hpc]; rfl) rfl nofun nofun (fun _ => .inr rfl) nodup_nil
  | unregister hpc _ =>
    have hend : StreamInv { s with handler := .sendEnd (range s.channels.length) } :=
      h.ends (by rw [hpc]; rfl) rfl (by rw [hpc]; exact nofun) nodup_range
    exact { hend with }
  | unregistered hpc _ | finish hpc =>
    exact h.ends (by rw [hpc]; rfl) rfl (fun _ _ _ _ => rfl) nodup_nil
  | @tellEnd todo i c hpc hc hi _ =>
    rw [hpc] at hnodup
    refine (h.setChannel hc (offer_closed ..)).ends (congrArg HandlerPc.ended hpc) rfl
      (fun j d _ hj => ?_) (nodup_cons.mpr ⟨hnodup.not_mem_erase, hnodup.erase i⟩)
    change s.handler.closedEnd j = true at hj
    rw [hpc] at hj
    have hj : j ∉ todo := of_decide_eq_true hj
    refine decide_eq_true ⟨fun hin => hj (mem_of_mem_erase hin), ?_⟩
    rintro rfl
    exact hj hi
  | @closeChannel todo i c hpc hc =>
    rw [hpc] at hnodup
    have hended : s.handler.ended = true := by rw [hpc]; rfl
    refine { h with
      idle := nofun, ended := fun _ => h.ended hended, closed := fun j d hd hclosed => ?_
      reader := fun _ => h.reader (by rw [left, hended]; rfl)
      handlerTodo := (nodup_cons.mp hnodup).2, drainerTodo := ?_ }
    · refine decide_eq_true (?_ : j ∉ todo)
      obtain ⟨rfl, -⟩ | ⟨-, hd⟩ := getElem?_set_cases hd
      · exact (nodup_cons.mp hnodup).1
      · have hend := h.closed j d hd hclosed
        rw [hpc] at hend
        exact (of_decide_eq_true hend).1
    · change ∀ j ∈ s.drainer.todo, j < (s.channels.set i _).length
      rw [length_set]
      exact h.drainerTodo

theorem StreamInv.step {a : StreamAct} (h : StreamInv s) (hs : streamStep s a = some s') :
    StreamInv s' := by
  cases a with
  | handler a => exact h.handler hs
  | drainer a => exact h.drainer hs
  | consumer i a =>
    obtain ⟨c, hc, hs⟩ := bind_eq_some_iff.mp hs
    obtain ⟨c', hconsume, hs⟩ := bind_eq_some_iff.mp hs
    cases hs
    exact h.setChannel hc (consume_closed hconsume)
  | clientGone | shutdown =>
    cases hs
    exact ⟨h.idle, h.eof, h.ended, h.closed, h.reader, h.handlerTodo, h.drainerTodo, h.clean,
      h.awake, h.recorded, h.completed⟩

/-! ## The drainer comes to its end -/

/-- What is left to do for a frame that goes to `n` channels, for a chunk, and for the drainer
where it stands. -/
def Chunk.work (n : Nat) (c : Chunk F) : Nat := 2 * c.bytes + c.frames.length * (n + 2) + 4

def DrainerPc.work (n : Nat) : DrainerPc F → Nat
  | .top => 6
  | .read => 5
  | .write fs _ => fs.length * (n + 2) + 8
  | .frames fs _ => fs.length * (n + 2) + 7
  | .sending _ todo fs _ => todo.length + fs.length * (n + 2) + 8
  | .close _ => 3
  | .record _ => 2
  | .callback _ => 1
  | .idle | .done | .panicked => 0

def StreamWorld.work (s : StreamWorld F) : Nat :=
  s.drainer.work s.channels.length + (s.upstream.map (Chunk.work s.channels.length)).sum +
    2 * s.pipe.offered + s.handler.work

/-- The steps that serve the stream: the drainer's, and the handler's while it copies. -/
def Serves (s : StreamWorld F) : StreamAct → Prop
  | .drainer _ => True
  | .handler _ => s.handler.serving = true
  | _ => False

/-- A drainer that has begun and is not done: somebody can serve the stream, every step that
does leaves less to do, and no other step adds to it. -/
def DrainerProceeds (s : StreamWorld F) : Prop :=
  s.drainer ≠ .idle → s.drainer ≠ .done →
    (∃ a, Serves s a ∧ (streamStep s a).isSome = true) ∧
    ∀ a s', streamStep s a = some s' → s'.work ≤ s.work ∧ (Serves s a → s'.work < s.work)

theorem work_drainer {a : DrainerAct} (hs : drainerStep s a = some s') : s'.work < s.work := by
  unfold drainerStep at hs
  split at hs
  case h_4 hpc =>
    split at hs <;> cases hs
    next chunk rest hup =>
      simp only [StreamWorld.work, hpc, hup, DrainerPc.work, map_cons, sum_cons,
        Chunk.work]
      omega
  case h_7 f frames err hpc =>
    have hcons : (f :: frames).length * (s.channels.length + 2) =
        frames.length * (s.channels.length + 2) + (s.channels.length + 2) := by
      rw [length_cons, Nat.succ_mul]
    simp only at hs
    split at hs <;> cases hs <;>
      simp only [StreamWorld.work, hpc, DrainerPc.work, hcons, length_range] <;> omega
  case h_10 hpc =>
    obtain ⟨c, hc, hs⟩ := bind_eq_some_iff.mp hs
    split at hs
    · cases hs
    next hin =>
      have hmem := Decidable.not_not.mp hin
      have hlen := length_erase_of_mem hmem
      have hpos := length_pos_of_mem hmem
      split at hs <;> cases hs <;>
        simp only [StreamWorld.work, hpc, DrainerPc.work, setChannel, length_set,
          hlen] <;> omega
  all_goals grind -linarith [StreamWorld.work, DrainerPc.work, Pipe.closeWriter]

theorem work_of_handler (hdrainer : s'.drainer = s.drainer) (hup : s'.upstream = s.upstream)
    (hlen : s'.channels.length = s.channels.length)
    (hle : 2 * s'.pipe.offered + s'.handler.work ≤ 2 * s.pipe.offered + s.handler.work)
    (hlt : s.handler.serving = true →
      2 * s'.pipe.offered + s'.handler.work < 2 * s.pipe.offered + s.handler.work) :
    s'.work ≤ s.work ∧ (s.handler.serving = true → s'.work < s.work) := by
  unfold StreamWorld.work
  rw [hdrainer, hup, hlen]
  refine ⟨by omega, fun hserving => ?_⟩
  have := hlt hserving
  omega

theorem work_of_ended (hended : s.handler.ended = true) (hdrainer : s'.drainer = s.drainer)
    (hup : s'.upstream = s.upstream) (hlen : s'.channels.length = s.channels.length)
    (hpipe : s'.pipe = s.pipe) (hwork : s'.handler.work = 0) :
    s'.work ≤ s.work ∧ (s.handler.serving = true → s'.work < s.work) := by
  have hno : s.handler.serving = false := by
    cases hpc : s.handler <;> simp_all [HandlerPc.ended, serving]
  exact work_of_handler hdrainer hup hlen (by rw [hpipe, hwork]; omega) (by simp [hno])

theorem work_handler (h : StreamInv s) (hne : s.drainer ≠ .idle) (hs : handlerStep s a = some s') :
    s'.work ≤ s.work ∧ (s.handler.serving = true → s'.work < s.work) := by
  -- before the response there is no drainer
  have hlate : s.handler.early ≠ true := fun hearly => hne (h.idle hearly)
  cases handlerStep_moves hs with
  | wait hpc =>
    rcases hpc with hpc | hpc <;> exact absurd (by rw [hpc]; rfl) hlate
  | start hpc | tellStart hpc _ _ _ _ | answer hpc | abort hpc | stream hpc =>
    exact absurd (by rw [hpc]; rfl) hlate
  | panic hpc hc hi hclosed => exact absurd hclosed (h.open_of_todo hpc hc hi)
  | serve _ _ _ hless => exact work_of_handler rfl rfl rfl (Nat.le_of_lt hless) (fun _ => hless)
  | eof hpc _ | fail hpc =>
    have hless : 0 < s.handler.work := by rw [hpc]; decide
    exact work_of_handler rfl rfl rfl (Nat.add_le_add_left (Nat.zero_le _) _)
      (fun _ => Nat.add_lt_add_left hless _)
  | unregister hpc _ | unregistered hpc _ | finish hpc =>
    exact work_of_ended (by rw [hpc]; rfl) rfl rfl rfl rfl rfl
  | tellEnd hpc _ _ _ | closeChannel hpc _ =>
    exact work_of_ended (by rw [hpc]; rfl) rfl rfl (by simp [setChannel]) rfl rfl

theorem StreamInv.reader_serves (h : StreamInv s) (hne : s.drainer ≠ .idle)
    (hreader : ¬s.pipe.readerClosed = true) (hoffered : s.pipe.offered ≠ 0) :
    ∃ a, Serves s a ∧ (streamStep s a).isSome = true := by
  have hlate : s.handler.early ≠ true := fun hearly => hne (h.idle hearly)
  have hstay : s.handler.left ≠ true := fun hleft => (h.reader hleft).elim hne hreader
  cases hpc : s.handler with
  | copying =>
    have hpos : 0 < s.pipe.offered := by omega
    refine ⟨.handler (.readPipe s.pipe.offered), by simp [Serves, hpc, serving], ?_⟩
    simp [streamStep, handlerStep, hpc, hpos]
  | writing =>
    refine ⟨.handler (.written true), by simp [Serves, hpc, serving], ?_⟩
    simp [streamStep, handlerStep, hpc]
  | failed =>
    refine ⟨.handler .go, by simp [Serves, hpc, serving], ?_⟩
    simp [streamStep, handlerStep, hpc]
  | begin | sendStart _ | roundTrip => exact absurd (by rw [hpc]; rfl) hlate
  | aborted | notifyEnd | sendEnd _ | closing _ _ | finished =>
    exact absurd (by rw [hpc]; rfl) hstay

theorem StreamInv.someone_serves (h : StreamInv s) (hne : s.drainer ≠ .idle)
    (hdone : s.drainer ≠ .done) : ∃ a, Serves s a ∧ (streamStep s a).isSome = true := by
  cases hpc : s.drainer with
  | idle => exact absurd hpc hne
  | done => exact absurd hpc hdone
  | panicked => exact absurd hpc h.awake
  | top =>
    by_cases hdown : s.shuttingDown = true
    · exact ⟨.drainer .shutdown, trivial, by simp [streamStep, drainerStep, hpc, hdown]⟩
    · by_cases hgone : s.clientGone = true
      · exact ⟨.drainer .client, trivial, by simp [streamStep, drainerStep, hpc, hgone]⟩
      · exact ⟨.drainer .go, trivial, by simp [streamStep, drainerStep, hpc, hdown, hgone]⟩
  | read => exact ⟨.drainer (.fail .other), trivial, by simp [streamStep, drainerStep, hpc]⟩
  | write frames err =>
    by_cases hempty : s.pipe.offered = 0
    · exact ⟨.drainer .go, trivial, by simp [streamStep, drainerStep, hpc, hempty]⟩
    · by_cases hreader : s.pipe.readerClosed = true
      · exact ⟨.drainer .go, trivial, by simp [streamStep, drainerStep, hpc, hempty, hreader]⟩
      · exact h.reader_serves hne hreader hempty
  | frames frames err =>
    refine ⟨.drainer .go, trivial, ?_⟩
    cases frames with
    | nil => cases err <;> simp [streamStep, drainerStep, hpc]
    | cons f frames => cases hr : s.registered <;> simp [streamStep, drainerStep, hpc, hr]
  | sending f todo frames err =>
    cases todo with
    | nil => exact ⟨.drainer .go, trivial, by simp [streamStep, drainerStep, hpc]⟩
    | cons i todo =>
      have hlt := h.drainerTodo i (by rw [hpc]; exact mem_cons_self)
      have hc : s.channels[i]? = some s.channels[i] := getElem?_eq_getElem hlt
      have hopen := h.open_of_running (by rw [hpc]; rfl) hc
      exact ⟨.drainer (.tell i), trivial,
        by simp [streamStep, drainerStep, hpc, hc, hopen]⟩
  | close completion | record completion | callback completion =>
    exact ⟨.drainer .go, trivial, by simp [streamStep, drainerStep, hpc]⟩

theorem StreamInv.proceeds (h : StreamInv s) : DrainerProceeds s := by
  intro hne hdone
  refine ⟨h.someone_serves hne hdone, ?_⟩
  intro a s' hs
  cases a with
  | handler a => exact work_handler h hne hs
  | drainer a =>
    have hlt := work_drainer hs
    exact ⟨Nat.le_of_lt hlt, fun _ => hlt⟩
  | consumer i a =>
    obtain ⟨c, -, hs⟩ := bind_eq_some_iff.mp hs
    obtain ⟨c', -, hs⟩ := bind_eq_some_iff.mp hs
    cases hs
    refine ⟨?_, fun hserves => hserves.elim⟩
    simp [StreamWorld.work, StreamWorld.setChannel]
  | clientGone | shutdown =>
    cases hs
    exact ⟨Nat.le_refl _, fun hserves => hserves.elim⟩

/-! ## The main result -/

/-- Nothing was sent on a closed channel; the usage is recorded and the callback made at most once,
both when the drainer is done, and a drainer that is not done proceeds. -/
structure StreamUnbroken (s : StreamWorld F) : Prop where
  noClosedSend : s.closedSends = 0
  atMostOnce : s.recorded.length ≤ 1 ∧ s.completed.length ≤ 1
  once : s.drainer = .done → s.recorded.length = 1 ∧ s.completed.length = 1
  proceeds : DrainerProceeds s

/-- **Ending a request never breaks its stream**, however drainer, handler, consumers, client and
shutdown interleave. -/
theorem stream_never_broken (acts : List StreamAct) (s : StreamWorld F)
    (hrun : exec streamStep (StreamWorld.init observers upstream) acts = some s) :
    StreamUnbroken s := by
  have h : StreamInv s :=
    exec_invariant (fun _ _ _ hinv hs => hinv.step hs) hrun (StreamInv.init observers upstream)
  refine ⟨h.clean, ?_, ?_, h.proceeds⟩
  · rw [h.recorded, h.completed]
    cases s.drainer <;> simp [records, callbacks]
  · intro hdone
    rw [h.recorded, h.completed, hdone]
    exact ⟨rfl, rfl⟩

/-- The handler is aborted between the frame's lookup and its send, and the drainer goes on alone.
-/
def clientLeavesMidFrame : List StreamAct :=
  [.handler .go, .handler (.tell 0), .handler .go, .handler .stream, .drainer .go,
    .drainer (.chunk none), .handler (.readPipe 1), .drainer .go, .drainer .go, .clientGone,
    .handler (.written false), .handler .go, .drainer (.tell 0), .drainer .go, .drainer .go,
    .drainer .client, .drainer .go, .drainer .go, .drainer .go]

theorem left_stream_unbroken :
    ∃ s, exec streamStep (StreamWorld.init [⟨true, false⟩] [⟨0, [7]⟩]) clientLeavesMidFrame
        = some s ∧ s.handler = .aborted ∧ s.drainer = .done ∧ s.recorded = [([7], .partly)] ∧
      StreamUnbroken s := by
  exact ⟨_, rfl, rfl, rfl, rfl, stream_never_broken [⟨true, false⟩] [⟨0, [7]⟩] clientLeavesMidFrame _ rfl⟩

end AikeyProxy.Proxy
