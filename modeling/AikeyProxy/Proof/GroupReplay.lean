import AikeyProxy.Proxy.GroupReplay
import AikeyProxy.Lib.Budget

/-!
# The replay budget balances

A request holds at most two reservations: the buffer it reads into and, while it grows, the next
one. Each step that changes the counter takes or gives back one of them, so the counter is what the
requests hold. The buffer and what is left to read are together the body, which is what a captured
body replays.
-/

namespace AikeyProxy.Proxy

open Lib List ReplayRequest ReplayBody

variable {budget : Nat} {used used' : Int} {r r' : ReplayRequest}

/-! ## What holds of one request -/

/-- The buffer and the rest are the body. With a declared length the buffer has room for
exactly that. -/
structure BufferOk (r : ReplayRequest) (buf : ReplayBuffer) : Prop where
  bytes : buf.data ++ r.rest = r.body
  declared : 0 ≤ r.contentLength → (buf.cap : Int) = r.contentLength ∧ buf.data.length ≤ buf.cap

/-- A captured body gives its memory back exactly when it is committed and no reader is open, and
until then has the original bytes; so has every reader opened before. -/
structure BodyOk (r : ReplayRequest) (b : ReplayBody) (opened : List ReplayReader) : Prop where
  released : b.released = true ↔ b.committed = true ∧ b.readers = 0
  readers : b.readers = opened.countP fun rd => rd.owned && !rd.closed
  data : b.released = false → b.data = r.original
  content : ∀ rd ∈ opened, rd.late = false → rd.content = r.original

def PcOk (budget : Nat) (r : ReplayRequest) : ReplayPc → Prop
  | .start => r.rest = r.body
  | .reserve n seen none =>
    (∀ u ∈ seen, u + n ≤ budget) ∧ r.rest = r.body ∧ r.contentLength ≤ r.limit ∧
      n = initialReservation r.contentLength r.limit
  | .reserve n seen (some buf) =>
    (∀ u ∈ seen, u + n ≤ budget) ∧ BufferOk r buf ∧ r.contentLength < 0
  | .grown buf _ => BufferOk r buf ∧ r.contentLength < 0
  | .reading buf => BufferOk r buf
  | .failing _ _ | .failed _ => True
  | .captured b opened => BodyOk r b opened

structure ReplayOk (budget : Nat) (r : ReplayRequest) : Prop where
  ledger : r.taken = r.returned ++ r.pc.live
  pc : PcOk budget r r.pc

/-- What a step of a request does: the counter and what the request holds change by the same
amount, and the request stays in order. -/
structure Moved (budget : Nat) (used used' : Int) (r r' : ReplayRequest) : Prop where
  balance : used' + (r.pc.live.sum : Nat) = used + (r'.pc.live.sum : Nat)
  within : used ≤ budget → used' ≤ budget
  ok : ReplayOk budget r'

theorem Moved.of_live_eq (hlive : r'.pc.live = r.pc.live) (ok : ReplayOk budget r') :
    Moved budget used used r r' := ⟨by rw [hlive], fun h => h, ok⟩

theorem ReplayOk.stay (hok : ReplayOk budget r) {rest : List UInt8} {pc : ReplayPc}
    (hlive : pc.live = r.pc.live) (h : PcOk budget { r with rest, pc } pc) :
    Moved budget used used r { r with rest, pc } :=
  .of_live_eq hlive ⟨by rw [hok.ledger, hlive], h⟩

theorem ReplayOk.giveBack (hok : ReplayOk budget r) {m : Nat} {pc : ReplayPc}
    (hlive : r.pc.live = m :: pc.live)
    (h : PcOk budget { r with pc, returned := r.returned ++ [m] } pc) :
    Moved budget used (used - m) r { r with pc, returned := r.returned ++ [m] } := by
  refine ⟨?_, fun h => by omega, by simp [hok.ledger, hlive], h⟩
  rw [hlive, sum_cons]
  push_cast
  omega

theorem Moved.of_before {r₁ : ReplayRequest} (h : Moved budget used used' r₁ r')
    (hlive : r₁.pc.live = r.pc.live) : Moved budget used used' r r' :=
  ⟨hlive ▸ h.balance, h.within, h.ok⟩

/-! ## The parts of a step -/

theorem initialReservation_declared {contentLength : Int} {limit : Nat} (h0 : 0 ≤ contentLength)
    (h : contentLength ≤ limit) : (initialReservation contentLength limit : Int) = contentLength := by
  simp only [initialReservation, if_neg (Int.not_lt.mpr h0), if_neg (Int.not_lt.mpr h)]
  omega

variable {n : Nat} {buf : ReplayBuffer} {opened : List ReplayReader} {b : ReplayBody}

variable {grow : Option ReplayBuffer} {seen : Option Int}

section

variable (hok : ReplayOk budget r) (hpc : r.pc = .reserve n seen grow)

include hok hpc

theorem moved_reserved (hused : used' = used + n) (hwithin : used ≤ budget → used' ≤ budget) :
    Moved budget used used' r (r.reserved n grow) := by
  obtain ⟨hledger, hat⟩ := hok
  rw [hpc] at hledger hat
  have hdeclared : 0 ≤ r.contentLength → r.contentLength ≤ r.limit →
      (initialReservation r.contentLength r.limit : Int) = r.contentLength :=
    initialReservation_declared
  refine ⟨?_, hwithin, ?_, ?_⟩ <;> cases grow <;>
    grind -linarith [ReplayRequest.reserved, ReplayPc.live, PcOk, BufferOk]

theorem moved_refused : Moved budget used used r (r.refused grow) := by
  cases grow <;> exact hok.stay (by rw [hpc]; rfl) trivial

theorem moved_reserve {seen' : Option Int} (hroom : ∀ u ∈ seen', u + n ≤ budget) :
    Moved budget used used r { r with pc := .reserve n seen' grow } := by
  have hat := hok.pc
  rw [hpc] at hat
  cases grow with
  | none => exact hok.stay (by rw [hpc]; rfl) ⟨hroom, hat.2⟩
  | some buf =>
    exact hok.stay (by rw [hpc]; rfl) ⟨hroom, ⟨hat.2.1.bytes, hat.2.1.declared⟩, hat.2.2⟩

end

theorem bodyOk_capture (horig : buf.data = r.original) :
    BodyOk r ⟨buf.data, buf.reserved, 0, false, false⟩ [] where
  released := by simp
  readers := rfl
  data _ := horig
  content := by simp

theorem moved_capture (hok : ReplayOk budget r) (hpc : r.pc.live = [buf.reserved])
    (horig : buf.data = r.original) : Moved budget used used r (r.capture buf) :=
  hok.stay hpc.symm (bodyOk_capture horig)

theorem original_of_complete (hbuf : BufferOk r buf) (hc : r.complete buf = true) :
    buf.data = r.original := by
  obtain ⟨h0, hlen⟩ := of_decide_eq_true hc
  rw [original, if_pos h0, ← hlen, ← hbuf.bytes]
  simp

theorem original_of_end (hbuf : BufferOk r buf) (hrest : r.rest = []) : buf.data = r.original := by
  have hdata : buf.data = r.body := by simpa [hrest] using hbuf.bytes
  have hdeclared := hbuf.declared
  grind -linarith [original, take_of_length_le]

theorem moved_ended (hok : ReplayOk budget r) (hpc : r.pc.live = [buf.reserved])
    (hbuf : BufferOk r buf) (hrest : r.rest = []) : Moved budget used used r (r.ended buf) := by
  unfold ended
  split
  · exact moved_capture hok hpc (original_of_end hbuf hrest)
  · exact hok.stay hpc.symm trivial

theorem moved_read (hok : ReplayOk budget r) (hpc : r.pc = .reading buf) {last : Bool}
    (hs : r.read buf n last = some r') : Moved budget used used r r' := by
  have hbuf : BufferOk r buf := by simpa [hpc, PcOk] using hok.pc
  revert hs
  fun_cases ReplayRequest.read r buf n last <;> intro hs <;> cases hs
  -- the buffer is at the limit: a further byte is too much
  next => exact hok.stay (by rw [hpc]; rfl) trivial
  next =>
    exact moved_ended hok (by rw [hpc]; rfl) hbuf (length_eq_zero_iff.mp (by grind -linarith))
  next => exact .of_live_eq rfl hok
  next hguard _ hroom buf' r'' =>
    have hbuf' : BufferOk r'' buf' :=
      ⟨by simpa [r'', buf'] using hbuf.bytes, by have := hbuf.declared; grind -linarith⟩
    have hstay : Moved budget used used r r'' := hok.stay (by rw [hpc]; rfl) hbuf'
    split
    next hl =>
      refine (moved_ended hstay.ok rfl hbuf' ?_).of_before (by rw [hpc]; rfl)
      exact drop_eq_nil_of_le (by grind -linarith)
    · exact hstay

theorem moved_settle (hledger : r.taken = r.returned ++ r.pc.live)
    (hlive : r.pc.live = if b.released then [] else [b.reserved])
    (hrel : b.released = true → b.committed = true ∧ b.readers = 0)
    (hreaders : b.readers = opened.countP fun rd => rd.owned && !rd.closed)
    (hdata : b.released = false → b.data = r.original)
    (hcontent : ∀ rd ∈ opened, rd.late = false → rd.content = r.original) :
    Moved budget used (r.settle used b opened).1 r (r.settle used b opened).2 := by
  rw [hlive] at hledger
  unfold settle releaseIfIdleLocked
  split
  next b' heq =>
    -- it stays as it is: given back before, not committed, or still read
    obtain ⟨hkeep, rfl⟩ : (b.released || !b.committed || b.readers ≠ 0) = true ∧ b = b' := by grind -linarith
    refine .of_live_eq (by rw [hlive]; rfl) ⟨hledger, ⟨hrel, fun h => ?_⟩, hreaders, hdata, hcontent⟩
    simpa [h.1, h.2] using hkeep
  next b' n heq =>
    obtain ⟨hgive, rfl, rfl⟩ : (b.released = false ∧ b.committed = true ∧ b.readers = 0) ∧
        { b with released := true, data := [], reserved := 0 } = b' ∧ b.reserved = n := by grind -linarith
    rw [hgive.1] at hlive hledger
    refine ⟨?_, fun h => by omega, ?_, ⟨fun _ => hgive.2, fun _ => rfl⟩, hreaders,
      (nofun), hcontent⟩
    · rw [hlive]
      simp [ReplayPc.live]
    · simpa [ReplayPc.live] using hledger

theorem bodyOk_open (h : BodyOk r b opened) :
    BodyOk r b.openReader.1 (opened ++ [b.openReader.2]) ∧
      b.openReader.1.released = b.released ∧ b.openReader.1.reserved = b.reserved := by
  obtain ⟨hreleased, hreaders, hdata, hcontent⟩ := h
  unfold openReader
  split
  next hempty =>
    -- an early empty reader is that of an empty body
    refine ⟨⟨hreleased, by simpa [countP_append] using hreaders, hdata, ?_⟩, rfl, rfl⟩
    grind -linarith
  next hheld =>
    refine ⟨⟨by grind -linarith, by simp [countP_append, hreaders], hdata, ?_⟩, rfl, rfl⟩
    grind -linarith

theorem moved_closeReader (hok : ReplayOk budget r) (hpc : r.pc = .captured b opened) {k : Nat}
    {rd : ReplayReader} (hrd : opened[k]? = some rd) (hopen : rd.closed = false)
    (howned : rd.owned = true) :
    Moved budget used
      (r.settle used { b with readers := b.readers - 1 }
        (opened.set k { rd with closed := true })).1 r
      (r.settle used { b with readers := b.readers - 1 }
        (opened.set k { rd with closed := true })).2 := by
  obtain ⟨hreleased, hreaders, hdata, hcontent⟩ : BodyOk r b opened := by simpa [hpc, PcOk] using hok.pc
  obtain ⟨hk, hget⟩ := List.getElem?_eq_some_iff.mp hrd
  refine moved_settle hok.ledger (by rw [hpc]; rfl) (by grind -linarith) ?_ hdata ?_
  · rw [countP_set hk, hget, hreaders]
    simp [hopen, howned]
  · grind -linarith [mem_or_eq_of_mem_set]

theorem ReplayOk.step (hok : ReplayOk budget r) {move : ReplayMove}
    (hs : r.step budget used move = some (used', r')) : Moved budget used used' r r' := by
  have hat := hok.pc
  revert hs
  fun_cases ReplayRequest.step budget used r move <;> intro hs
  case case16 b opened hpc =>
    rw [hpc] at hat
    obtain ⟨rfl, rfl⟩ := Prod.ext_iff.mp (Option.some.inj hs)
    exact moved_settle hok.ledger (by rw [hpc]; rfl) (fun h => ⟨rfl, (hat.released.mp h).2⟩)
      hat.readers hat.data hat.content
  case case19 hpc rd hrd hlive =>
    obtain ⟨rfl, rfl⟩ := Prod.ext_iff.mp (Option.some.inj hs)
    exact moved_closeReader hok hpc hrd (by grind -linarith) (by grind -linarith)
  case case13 hpc =>
    obtain ⟨r'', hread, heq⟩ := Option.map_eq_some_iff.mp hs
    cases heq
    exact moved_read hok hpc hread
  all_goals cases hs
  next hpc hlen => exact hok.stay (by rw [hpc]; rfl) trivial
  next hpc hlen =>
    rw [hpc] at hat
    exact hok.stay (by rw [hpc]; rfl) ⟨by simp, hat, Int.not_lt.mp hlen, rfl⟩
  next hpc => exact moved_reserved hok hpc (by simp) id
  next hpc _ _ => exact moved_refused hok hpc
  next hpc _ hfits => exact moved_reserve hok hpc (by grind -linarith)
  next grow hpc =>
    rw [hpc] at hat
    exact moved_reserved hok hpc rfl fun _ => by cases grow <;> exact hat.1 used rfl
  next hpc _ => exact moved_reserve hok hpc (by simp)
  next hpc hcomplete =>
    rw [hpc] at hat
    exact moved_capture hok (by rw [hpc]; rfl) (original_of_complete hat hcomplete)
  next buf hpc hfull =>
    rw [hpc] at hat
    -- a buffer of the declared length is complete when it is full
    have hdeclared := hat.declared
    have hneg : r.contentLength < 0 := by grind -linarith [complete]
    exact hok.stay (by rw [hpc]; rfl) ⟨by simp, ⟨hat.bytes, hat.declared⟩, hneg⟩
  next hpc =>
    rw [hpc] at hat
    exact hok.giveBack (by rw [hpc]; rfl)
      ⟨hat.1.bytes, fun h0 => absurd h0 (Int.not_le.mpr hat.2)⟩
  next hpc => exact hok.giveBack (by rw [hpc]; rfl) trivial
  next b opened hpc =>
    rw [hpc] at hat
    obtain ⟨hbody, hrel, hres⟩ := bodyOk_open hat
    refine hok.stay ?_ ⟨hbody.released, hbody.readers, hbody.data, hbody.content⟩
    simp only [hpc, ReplayPc.live, hrel, hres]
  next => exact .of_live_eq rfl hok

/-! ## Whole runs -/

/-- The counter is what the requests hold, and every request is in order. -/
structure ReplayInv (limit : Nat) (w : ReplayWorld) : Prop where
  budget : w.limit = limit
  balanced : Balanced w.limit w.used w.held
  requests : ∀ r ∈ w.requests, ReplayOk w.limit r

theorem replayInv_init (limit : Nat) : ReplayInv limit (ReplayWorld.init limit) :=
  ⟨rfl, ⟨rfl, Int.natCast_nonneg limit⟩, by simp [ReplayWorld.init]⟩

theorem ReplayInv.step {limit : Nat} {w w' : ReplayWorld} {a : ReplayAct} (h : ReplayInv limit w)
    (hs : replayStep w a = some w') : ReplayInv limit w' := by
  obtain ⟨hlimit, hbalanced, hrequests⟩ := h
  cases a with
  | arrive contentLength bodyLimit body ending =>
    cases hs
    refine ⟨hlimit, ?_, ?_⟩
    · simpa [ReplayWorld.held, ReplayPc.live] using hbalanced.join
    · intro r hr
      rcases mem_append.mp hr with hold | hnew
      · exact hrequests r hold
      · obtain rfl := mem_singleton.mp hnew
        exact ⟨rfl, rfl⟩
  | move i m =>
    simp only [replayStep] at hs
    split at hs
    · cases hs
    next r hr =>
      obtain ⟨⟨used', r'⟩, hmove, heq⟩ := Option.map_eq_some_iff.mp hs
      cases heq
      obtain ⟨hbalance, hwithin, hok⟩ := (hrequests r (mem_of_getElem? hr)).step hmove
      have hheld : w.held[i]? = some r.pc.live.sum := by simp [ReplayWorld.held, hr]
      refine ⟨hlimit, ?_, by grind -linarith [mem_or_eq_of_mem_set]⟩
      simpa [ReplayWorld.held, map_set] using
        hbalanced.move hheld hbalance (hwithin hbalanced.within)

theorem ReplayOk.live_of_over (h : ReplayOk budget r) (hover : r.pc.over = true) :
    r.pc.live = [] := by
  have hat := h.pc
  cases hpc : r.pc with
  | failed err => rfl
  | captured b opened =>
    rw [hpc] at hat hover
    obtain ⟨hcommitted, hclosed⟩ := Bool.and_eq_true_iff.mp hover
    have hidle : b.readers = 0 := by
      rw [hat.readers, countP_eq_zero]
      grind -linarith
    simp [ReplayPc.live, hat.released.mpr ⟨hcommitted, hidle⟩]
  | _ => rw [hpc] at hover; cases hover

/-- While a body is not committed or has an open reader, opening it gives the original bytes, and so
does every reader that was opened before it gave its memory back. -/
def Replays (r : ReplayRequest) : Prop :=
  ∀ b opened, r.pc = .captured b opened →
    (¬ (b.committed = true ∧ b.readers = 0) → b.openReader.2.content = r.original) ∧
    ∀ rd ∈ opened, rd.late = false → rd.content = r.original

theorem ReplayOk.replays (h : ReplayOk budget r) : Replays r := by
  intro b opened hpc
  have hbody : BodyOk r b opened := by simpa [hpc, PcOk] using h.pc
  refine ⟨fun hheld => ?_, hbody.content⟩
  have hrel : b.released = false := by
    rw [← Bool.not_eq_true, hbody.released]
    exact hheld
  exact (bodyOk_open hbody).1.content b.openReader.2 (by simp) (by
    unfold openReader
    split <;> simp [hrel])

/-- **The replay budget is balanced** in every interleaving, and a captured body replays its bytes
until it is committed and its last reader is closed. -/
theorem replay_budget_balanced (limit : Nat) (acts : List ReplayAct) (w : ReplayWorld)
    (hrun : exec replayStep (ReplayWorld.init limit) acts = some w) :
    0 ≤ w.used ∧ w.used ≤ limit ∧ w.used = (w.held.sum : Nat) ∧
    ∀ r ∈ w.requests, r.taken = r.returned ++ r.pc.live ∧
      (r.pc.over = true → r.returned = r.taken) ∧ Replays r := by
  have hinv : ReplayInv limit w :=
    exec_invariant (fun _ _ _ hi hs => hi.step hs) hrun (replayInv_init limit)
  refine ⟨hinv.balanced.nonneg, hinv.budget ▸ hinv.balanced.within, hinv.balanced.total, fun r hr => ?_⟩
  have hok := hinv.requests r hr
  refine ⟨hok.ledger, fun hover => ?_, hok.replays⟩
  rw [hok.ledger, hok.live_of_over hover, append_nil]

/-- A body of two bytes is captured, committed with a reader open, and opened once more after
that reader is closed. -/
def captureTwo : List ReplayAct :=
  [.arrive 2 16 [104, 105] .eof, .move 0 .enter, .move 0 .load, .move 0 .swap,
    .move 0 (.read 2 false), .move 0 .finish, .move 0 .openReader, .move 0 .commit,
    .move 0 (.closeReader 0)]

theorem capture_two_balanced :
    ∃ w, exec replayStep (ReplayWorld.init 64) captureTwo = some w ∧ w.used = 0 ∧
      w.requests.map (·.taken) = [[2]] ∧ w.held.sum = 0 := by
  obtain ⟨w, hexec, hused, htaken⟩ : ∃ w, exec replayStep (ReplayWorld.init 64) captureTwo = some w ∧
      w.used = 0 ∧ w.requests.map (·.taken) = [[2]] := ⟨_, rfl, rfl, rfl⟩
  have hsum := (replay_budget_balanced 64 captureTwo w hexec).2.2.1
  exact ⟨w, hexec, hused, htaken, by omega⟩

theorem late_open_empty :
    ¬ ∀ (limit : Nat) (acts : List ReplayAct) (w : ReplayWorld),
      exec replayStep (ReplayWorld.init limit) acts = some w →
      ∀ r ∈ w.requests, ∀ b opened, r.pc = .captured b opened →
        ∀ rd ∈ opened, rd.content = r.original := by
  intro hall
  obtain ⟨w, r, b, rd, hexec, hr, hpc, hcontent, horig⟩ : ∃ w r b rd,
      exec replayStep (ReplayWorld.init 64) (captureTwo ++ [.move 0 .openReader]) = some w ∧
      w.requests = [r] ∧ r.pc = .captured b [⟨[104, 105], true, true, false⟩, rd] ∧
      rd.content = [] ∧ r.original = [104, 105] := ⟨_, _, _, _, rfl, rfl, rfl, rfl, rfl⟩
  have hlate := hall 64 _ w hexec r (by simp [hr]) b _ hpc rd (by simp)
  rw [hcontent, horig] at hlate
  cases hlate

end AikeyProxy.Proxy
