import AikeyProxy.AppHook.Roundtrip
import AikeyProxy.Lib.Region
import AikeyProxy.Lib.Run

/-!
# Replies reach their own caller

While the ids have not wrapped around, an entry of the table stands for a call that has not returned
and whose channel nobody has filled or is about to fill. So a reader that took the entry finds the
channel empty, and a call gets a reply only for its own id.
-/

namespace AikeyProxy.AppHook

open Lib Option AList ReplyWorld

variable {w w' : ReplyWorld} {c j : Nat} {call new : Roundtrip} {reply : ChildReply}

/-- Where a call may have an entry in the table. -/
@[grind]
def RoundtripPc.listed : RoundtripPc → Bool
  | .writing | .waiting | .removing _ => true
  | _ => false

/-- Nobody has a reply for the call, and nobody has put one into its channel. -/
@[grind]
def ReplyWorld.Untouched (w : ReplyWorld) (c : Nat) (call : Roundtrip) : Prop :=
  call.channel = [] ∧ ∀ (j : Nat) (reply : ChildReply), w.readers[j]? ≠ some (some (c, reply))

def ReplyWorld.numbered (w : ReplyWorld) : Nat := w.calls.countP fun call => call.id.isSome

structure RepliesInv (w : ReplyWorld) : Prop where
  count : w.nextReqID = w.numbered
  bound : ∀ (c : Nat) (call : Roundtrip) (id : Nat), w.calls[c]? = some call →
    call.id = some id → id ≤ w.nextReqID
  early : ∀ (c : Nat) (call : Roundtrip), w.calls[c]? = some call →
    call.pc = .enter ∨ call.pc = .number → call.id = none
  fresh : ∀ (c : Nat) (call : Roundtrip), w.calls[c]? = some call →
    call.id = none ∨ call.pc = .register → w.Untouched c call
  chan : ∀ (c : Nat) (call : Roundtrip), w.calls[c]? = some call →
    ∀ reply ∈ call.channel, call.id = some reply.reqID
  own : ∀ (c : Nat) (call : Roundtrip) (reply : ChildReply), w.calls[c]? = some call →
    call.pc = .returned (.ok reply) → call.id = some reply.reqID
  inj : ∀ (c c' : Nat) (call call' : Roundtrip) (id : Nat), w.calls[c]? = some call →
    w.calls[c']? = some call' → call.id = some id → call'.id = some id → c = c'
  pend : ∀ id c, w.pending.lookup id = some c → ∃ call, w.calls[c]? = some call ∧
    call.id = some id ∧ call.pc.listed = true ∧ w.Untouched c call
  hand : ∀ (j c : Nat) (reply : ChildReply), w.readers[j]? = some (some (c, reply)) →
    ∃ call, w.calls[c]? = some call ∧ call.id = some reply.reqID ∧ call.channel = []
  alone : ∀ (j j' c : Nat) (r r' : ChildReply), w.readers[j]? = some (some (c, r)) →
    w.readers[j']? = some (some (c, r')) → j = j'

theorem numbered_set (hc : w.calls[c]? = some call) (hid : new.id.isSome = call.id.isSome) :
    w.numbered = (w.set c new).numbered := by
  have hmove := countP_set (q := fun call : Roundtrip => call.id.isSome) hc new
  rw [hid] at hmove
  exact (Nat.add_right_cancel hmove).symm

/-! ### Readers -/

/-- The entry that a reader takes is the only thing that stood between the call and its reply. -/
theorem RepliesInv.frame (h : RepliesInv w) (reply : ChildReply)
    (hj : w.readers[j]? = some none) : RepliesInv (w.frameStep j reply) := by
  unfold frameStep
  split
  · exact h
  · next c hc =>
    obtain ⟨call, hcall, hid, hlisted, hun⟩ := h.pend _ _ hc
    have hcount := h.count
    cases h
    constructor
    case count => exact hcount
    case pend => grind -linarith [lookup_erase, lookup_erase_ne]
    all_goals grind -linarith

theorem RepliesInv.handed (h : RepliesInv w) (hj : w.readers[j]? = some (some (c, reply)))
    (hs : w.handStep j c reply = some w') : RepliesInv w' := by
  obtain ⟨call, hcall, hid, hempty⟩ := h.hand _ _ _ hj
  have hcount := h.count
  cases h
  unfold handStep at hs
  split at hs <;> cases hs
  next id pc hc =>
  obtain rfl := some.inj (hcall.symm.trans hc)
  constructor
  case count => exact hcount.trans (numbered_set hcall rfl)
  all_goals grind -linarith [ReplyWorld.set]

theorem RepliesInv.reader (h : RepliesInv w) :
    RepliesInv { w with readers := w.readers ++ [none] } := by
  have hcount := h.count
  cases h
  constructor
  case count => exact hcount
  all_goals grind -linarith

/-! ### Calls -/

/-- A call goes on with the id it has: the table keeps its entry, or loses it. -/
theorem RepliesInv.move (h : RepliesInv w) (hc : w.calls[c]? = some call) {pc : RoundtripPc}
    {channel : List ChildReply} {pending : Table Nat Nat}
    (hnumber : pc = .number → call.pc = .enter) (hpc : pc ≠ .register ∧ pc ≠ .enter)
    (hrest : channel = call.channel ∨ ∃ reply, call.channel = reply :: channel)
    (hret : ∀ reply, pc = .returned (.ok reply) → reply ∈ call.channel)
    (hkeep : ∀ id c', pending.lookup id = some c' → w.pending.lookup id = some c' ∧
      (c' = c → pc.listed = true)) :
    RepliesInv { w.set c ⟨call.id, channel, pc⟩ with pending } := by
  have hcount := h.count
  cases h
  constructor
  case count => exact hcount.trans (numbered_set hc rfl)
  all_goals grind -linarith [ReplyWorld.set]

theorem RepliesInv.spawn (h : RepliesInv w) :
    RepliesInv { w with calls := w.calls ++ [⟨none, [], .enter⟩] } := by
  have hcount := h.count
  cases h
  constructor
  case count => simpa [numbered] using hcount
  all_goals grind -linarith

theorem RepliesInv.number (h : RepliesInv w) (hc : w.calls[c]? = some call)
    (hpc : call.pc = .number) (hlen : w.calls.length < 2 ^ 32) :
    RepliesInv
      { w.set c { call with id := some ((w.nextReqID + 1) % 2 ^ 32), pc := .register } with
        nextReqID := (w.nextReqID + 1) % 2 ^ 32 } := by
  have hnone := h.early c call hc (.inr hpc)
  have hcount := h.count
  cases h
  generalize hnew : (w.nextReqID + 1) % 2 ^ 32 = new
  have hmove := countP_set (q := fun call : Roundtrip => call.id.isSome) hc
    { call with id := some new, pc := .register }
  simp only [hnone, isSome_none, Bool.toNat_false, isSome_some,
    Bool.toNat_true, Nat.add_zero] at hmove
  -- This call has no number yet, so fewer are given out than there are calls.
  have hle := List.countP_le_length (p := fun call : Roundtrip => call.id.isSome)
    (l := w.calls.set c { call with id := some new, pc := .register })
  rw [List.length_set, hmove] at hle
  have hsmall : new = w.nextReqID + 1 := by
    rw [← hnew, hcount]
    exact Nat.mod_eq_of_lt (Nat.lt_of_le_of_lt hle hlen)
  constructor
  case count =>
    show new = (w.calls.set c _).countP _
    rw [hmove, hsmall, hcount]
    rfl
  all_goals grind -linarith [ReplyWorld.set]

theorem RepliesInv.register (h : RepliesInv w) (hc : w.calls[c]? = some call)
    (hpc : call.pc = .register) {id : Nat} (hid : call.id = some id) :
    RepliesInv { w.set c { call with pc := .writing } with pending := w.pending.insert id c } := by
  have hfree := h.fresh c call hc (.inr hpc)
  have hcount := h.count
  cases h
  constructor
  case count => exact hcount.trans (numbered_set hc rfl)
  case pend => grind -linarith [ReplyWorld.set, lookup_insert, lookup_insert_ne]
  all_goals grind -linarith [ReplyWorld.set]

theorem RepliesInv.callStep {ev : RoundtripEvent} (h : RepliesInv w)
    (hc : w.calls[c]? = some call) (hlen : w.calls.length < 2 ^ 32)
    (hs : w.callStep c call ev = some w') : RepliesInv w' := by
  -- The call may have an entry only under its own id and while its channel is empty.
  have hown : ∀ id, w.pending.lookup id = some c → call.id = some id ∧ call.pc.listed = true ∧
      call.channel = [] := fun id hid => by
    obtain ⟨call', hcall', hid', hlisted, hun⟩ := h.pend id c hid
    obtain rfl := some.inj (hc.symm.trans hcall')
    exact ⟨hid', hlisted, hun.1⟩
  unfold ReplyWorld.callStep at hs
  split at hs
  case h_4 hpc => exact some.inj hs ▸ h.number hc hpc hlen
  case h_5 hpc =>
    obtain ⟨id, hid, rfl⟩ := map_eq_some_iff.mp hs
    exact h.register hc hpc hid
  case h_8 =>
    split at hs
    · cases hs
    · next reply rest hchan =>
      exact some.inj hs ▸
        h.move hc (by simp) (by simp) (.inr ⟨reply, hchan⟩) (by simp [hchan])
        fun id c' hid => ⟨hid, by grind -linarith⟩
  case h_10 =>
    obtain ⟨id, hid, rfl⟩ := map_eq_some_iff.mp hs
    refine h.move hc (by simp) (by simp) (.inl rfl) (by simp) fun id' c' hid' => ?_
    grind -linarith [lookup_erase, lookup_erase_ne]
  case h_11 => cases hs
  all_goals
    cases hs
    exact h.move hc (by simp [*]) (by simp) (.inl rfl) (by simp) fun id c' hid => ⟨hid, by grind -linarith⟩

/-! ### Whole runs -/

theorem RepliesInv.step {a : ReplyAct} (h : RepliesInv w) (hlen : w.calls.length < 2 ^ 32)
    (hs : replyStep w a = some w') : RepliesInv w' := by
  revert hs
  fun_cases replyStep w a <;> intro hs
  case case1 => exact some.inj hs ▸ h.spawn
  case case3 call hc => exact h.callStep hc hlen hs
  case case4 => exact some.inj hs ▸ h.reader
  case case5 hj => exact some.inj hs ▸ h.frame _ hj
  case case7 hj => exact h.handed hj hs
  all_goals cases hs

theorem length_replyStep {a : ReplyAct} (hs : replyStep w a = some w') :
    w.calls.length ≤ w'.calls.length := by
  cases a with
  | call | reader | frame => grind -linarith [replyStep, frameStep]
  | hand => grind -linarith [replyStep, handStep, ReplyWorld.set]
  | thread c ev =>
    simp only [replyStep, ReplyWorld.callStep, ReplyWorld.set] at hs
    grind -linarith [map_eq_some_iff]

def duplicateReply : List ReplyAct :=
  let reply : ChildReply := ⟨1, [], [], [], 0⟩
  [.call, .reader, .thread 0 .go, .thread 0 .go, .thread 0 .go, .thread 0 .wrote, .frame 0 reply,
    .hand 0, .frame 0 reply, .thread 0 .answer]

end AikeyProxy.AppHook
