import AikeyProxy.Proxy.SseRestore

/-!
# The reader does not see how the stream is cut

The pieces in which the upstream bytes arrive end up in the same lines, and the sizes of the
client's own reads only cut up what is ready for it (`readRestored_eq`).
-/

namespace AikeyProxy.Proxy

open Lib List SseRestorer

variable {J : SseJson} {st : MaskRestore}

theorem pushLines_append (a b : List Bytes) :
    ∀ (frame : List Bytes) (h : SseHeld),
      pushLines J st frame h (a ++ b) =
        ((pushLines J st (pushLines J st frame h a).1.1 (pushLines J st frame h a).1.2 b).1,
          (pushLines J st frame h a).2 ++
            (pushLines J st (pushLines J st frame h a).1.1 (pushLines J st frame h a).1.2 b).2) := by
  intro frame h
  fun_induction pushLines J st frame h a with
  | case1 => rfl
  | case2 | case3 => simp_all [pushLines]

def feed (J : SseJson) (st : MaskRestore) (c : SseCore) (data : Bytes) : SseCore × Bytes :=
  assembleFrames J st { c with buf := c.buf ++ data }

theorem feed_append (c : SseCore) (a b : Bytes) :
    feed J st c (a ++ b) =
      ((feed J st (feed J st c a).1 b).1, (feed J st c a).2 ++ (feed J st (feed J st c a).1 b).2) := by
  have hlines : takeLines newline (c.buf ++ a ++ b) = _ := takeLines_append (c.buf ++ a) b
  simp only [feed, assembleFrames, ← append_assoc, hlines, pushLines_append]

/-- All that comes out of a stream: what its bytes give, and then what its end gives. -/
def restoredFrom (J : SseJson) (st : MaskRestore) (c : SseCore) (data : Bytes) : Bytes :=
  (feed J st c data).2 ++ (finish J (feed J st c data).1).2

theorem restoredFrom_append (c : SseCore) (a b : Bytes) :
    restoredFrom J st c (a ++ b) = (feed J st c a).2 ++ restoredFrom J st (feed J st c a).1 b := by
  rw [restoredFrom, feed_append, restoredFrom, append_assoc]

def SseRestorer.remaining (J : SseJson) (st : MaskRestore) (r : SseRestorer) : Bytes × StreamEnd :=
  match r.ended with
  | some e => (r.out, e)
  | none =>
    (r.out ++ restoredFrom J st r.core (upstreamBytes r.upstream).1, (upstreamBytes r.upstream).2)

/-- The buffer never holds a complete line, so the end of a stream without new bytes is `finish`. -/
def SseCore.Assembled (c : SseCore) : Prop := takeLines newline c.buf = ([], c.buf)

theorem feed_assembled (J : SseJson) (st : MaskRestore) (c : SseCore) (data : Bytes) :
    (feed J st c data).1.Assembled := by
  have hrest : ∀ s : Bytes, takeLines newline (takeLines newline s).2 =
      ([], (takeLines newline s).2) := by
    intro s
    induction s with
    | nil => rfl
    | cons b s ih =>
      by_cases hb : b = newline
      · simp only [takeLines, if_pos hb, ih]
      · cases hl : (takeLines newline s).1 with
        | nil | cons l ls => simp only [takeLines, if_neg hb, hl, ih]
  exact hrest _

theorem feed_nil {c : SseCore} (hc : c.Assembled) : feed J st c [] = (c, []) := by
  have hbuf : takeLines newline c.buf = ([], c.buf) := hc
  simp only [feed, append_nil, assembleFrames, hbuf, pushLines]

theorem pump_remaining (J : SseJson) (st : MaskRestore) :
    ∀ (upstream : List UpstreamRead) {c : SseCore}, c.Assembled →
      (pump J st c upstream).remaining J st =
          (restoredFrom J st c (upstreamBytes upstream).1, (upstreamBytes upstream).2) ∧
        ((pump J st c upstream).ended = none →
          (pump J st c upstream).out ≠ [] ∧ (pump J st c upstream).core.Assembled) := by
  intro upstream c hc
  fun_induction pump J st c upstream with
  | case1 c =>
    refine ⟨?_, nofun⟩
    simp only [remaining, upstreamBytes, restoredFrom, feed_nil hc, nil_append]
  | case2 c r upstream core out hfeed e hends =>
    have hfed : feed J st c r.data = (core, out) := hfeed
    refine ⟨?_, nofun⟩
    simp only [hfed, hends, remaining, upstreamBytes, restoredFrom]
  | case3 c r upstream core hends hfeed ih =>
    have hfed : feed J st c r.data = (core, []) := hfeed
    have hasm := feed_assembled J st c r.data
    rw [hfed] at hasm
    obtain ⟨hrem, hmore⟩ := ih hasm
    refine ⟨?_, hmore⟩
    simp only [hfed, hends, hrem, upstreamBytes, restoredFrom_append, nil_append]
  | case4 c r upstream core out hfeed hends hout =>
    have hfed : feed J st c r.data = (core, out) := hfeed
    have hasm := feed_assembled J st c r.data
    rw [hfed] at hasm
    refine ⟨?_, fun _ => ⟨hout, hasm⟩⟩
    simp only [hfed, hends, remaining, upstreamBytes, restoredFrom_append]

def SseRestorer.Ready (r : SseRestorer) : Prop := r.ended = none → r.core.Assembled

theorem remaining_take (r : SseRestorer) (n : Nat) :
    r.remaining J st =
      (r.out.take n ++ (({ r with out := r.out.drop n } : SseRestorer).remaining J st).1,
        (({ r with out := r.out.drop n } : SseRestorer).remaining J st).2) := by
  unfold remaining
  cases r.ended with
  | some e => simp only [take_append_drop]
  | none => simp only [← append_assoc, take_append_drop]

/-- **One read of the client.** It hands out the next bytes, and at least one of them, or the
end when there are none left. -/
theorem read_spec (J : SseJson) (st : MaskRestore) {r : SseRestorer} (hr : r.Ready) {n : Nat} (hn : 0 < n) :
    (∃ e r', r.read J st n = ([], some e, r') ∧ r.remaining J st = ([], e)) ∨
      ∃ data r', r.read J st n = (data, none, r') ∧ data ≠ [] ∧ r'.Ready ∧
        r.remaining J st = (data ++ (r'.remaining J st).1, (r'.remaining J st).2) := by
  have htake : ∀ out : Bytes, out ≠ [] → out.take n ≠ [] := by
    intro out hout hnil
    rcases take_eq_nil_iff.mp hnil with h | h
    · omega
    · exact hout h
  by_cases hout : r.out = []
  · cases hended : r.ended with
    | some e =>
      left
      refine ⟨e, r, ?_, ?_⟩
      · simp [SseRestorer.read, hout, hended]
      · simp [remaining, hout, hended]
    | none =>
      obtain ⟨hrem, hmore⟩ := pump_remaining J st r.upstream (hr hended)
      have hsame : r.remaining J st = (pump J st r.core r.upstream).remaining J st := by
        rw [hrem]
        simp [remaining, hout, hended]
      by_cases hpump : (pump J st r.core r.upstream).out = []
      · left
        cases hend : (pump J st r.core r.upstream).ended with
        | none => exact absurd hpump (hmore hend).1
        | some e =>
          refine ⟨e, pump J st r.core r.upstream, ?_, ?_⟩
          · simp [SseRestorer.read, hout, hended, hpump, hend]
          · rw [hsame]
            simp [remaining, hpump, hend]
      · right
        refine ⟨_, _, ?_, htake _ hpump, ?_, hsame.trans (remaining_take _ n)⟩
        · simp [SseRestorer.read, hout, hended, hpump]
        · exact fun h => (hmore h).2
  · right
    refine ⟨r.out.take n, { r with out := r.out.drop n }, ?_, htake _ hout, hr,
      remaining_take r n⟩
    simp [SseRestorer.read, hout]

theorem readAll_eq :
    ∀ {sizes : List Nat} {r : SseRestorer}, r.Ready → (∀ n ∈ sizes, 0 < n) →
      (r.remaining J st).1.length < sizes.length →
      r.readAll J st sizes = some (r.remaining J st) := by
  intro sizes
  induction sizes with
  | nil => intro r _ _ hlen; exact absurd hlen (Nat.not_lt_zero _)
  | cons n sizes ih =>
    intro r hr hpos hlen
    rcases read_spec J st hr (hpos n mem_cons_self) with
      ⟨e, r', hread, hrem⟩ | ⟨data, r', hread, hdata, hr', hrem⟩
    · simp only [SseRestorer.readAll, hread, hrem]
    · have hlt : (r'.remaining J st).1.length < sizes.length := by
        have hd := length_pos_iff.mpr hdata
        rw [hrem, length_append, length_cons] at hlen
        omega
      simp only [SseRestorer.readAll, hread,
        ih hr' (fun m hm => hpos m (mem_cons_of_mem _ hm)) hlt, Option.map_some, hrem]

def restoredBytes (J : SseJson) (st : MaskRestore) (data : Bytes) : Bytes :=
  if st.keys = [] then data else restoredFrom J st .initial data

/-- **Neither the pieces of the upstream stream nor the reads of the client matter.** -/
theorem readRestored_eq (upstream : List UpstreamRead) {sizes : List Nat}
    (hpos : ∀ n ∈ sizes, 0 < n)
    (hlen : (restoredBytes J st (upstreamBytes upstream).1).length < sizes.length) :
    readRestored J st upstream sizes =
      some (restoredBytes J st (upstreamBytes upstream).1, (upstreamBytes upstream).2) := by
  by_cases hkeys : st.keys = []
  · rw [readRestored, restoredBytes, if_pos hkeys, if_pos hkeys]
  · rw [restoredBytes, if_neg hkeys] at hlen ⊢
    rw [readRestored, if_neg hkeys]
    exact readAll_eq (fun _ => rfl) hpos hlen

end AikeyProxy.Proxy
