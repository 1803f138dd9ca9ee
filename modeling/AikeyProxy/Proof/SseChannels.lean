import AikeyProxy.Proof.SseRestore

/-!
# Channels of one stream

An event stream may interleave the text of several channels, and the restorer withholds one text for
all of them. As long as nothing is withheld when the channel changes, each channel gets what it
would get alone (`channelText_relay`); otherwise the withheld text is let out in a frame of another.
-/

namespace AikeyProxy.Proxy

open DeltaStream Withheld

def own (ch : Channel) (xs : List (Channel × Text)) : List (Channel × Text) :=
  xs.filter fun x => decide (x.1 = ch)

def channelText (ch : Channel) (xs : List (Channel × Text)) : Text := deltaText (own ch xs)

def InTurn (st : MaskRestore) : Withheld → List (Channel × Text) → Prop
  | _, [] => True
  | w, x :: xs => (w.carry = [] ∨ w.owner = some x.1) ∧ InTurn st (withhold st w x).1 xs

instance decidableInTurn (st : MaskRestore) :
    (w : Withheld) → (xs : List (Channel × Text)) → Decidable (InTurn st w xs)
  | _, [] => .isTrue trivial
  | w, x :: xs =>
    haveI := decidableInTurn st (withhold st w x).1 xs
    inferInstanceAs (Decidable ((w.carry = [] ∨ w.owner = some x.1) ∧ InTurn st _ xs))

section Channel

variable (st : MaskRestore) (ch : Channel)

def Withheld.seenBy (w : Withheld) : Withheld :=
  if w.owner = some ch then w else ⟨[], none⟩

theorem withhold_congr {w w' : Withheld} (h : w.carry = w'.carry) (x : Channel × Text) :
    withhold st w x = withhold st w' x := by
  simp only [withhold, h]

theorem relay_congr {w w' : Withheld} (h : w.carry = []) (h' : w'.carry = []) :
    ∀ xs, relay st w xs = relay st w' xs
  | [] => by rw [relay, relay, release_nil h, release_nil h']
  | x :: xs => by rw [relay, relay, withhold_congr st (h.trans h'.symm)]

theorem channelText_cons_self (t : Text) (xs : List (Channel × Text)) :
    channelText ch ((ch, t) :: xs) = t ++ channelText ch xs := by
  simp [channelText, own, deltaText]

theorem channelText_cons_ne {x : Channel × Text} (h : x.1 ≠ ch) (xs : List (Channel × Text)) :
    channelText ch (x :: xs) = channelText ch xs := by
  simp [channelText, own, h]

theorem channelText_release (w : Withheld) :
    channelText ch (release w) = deltaText (release (w.seenBy ch)) := by
  unfold seenBy
  by_cases hown : w.owner = some ch
  · rw [if_pos hown, release, hown]
    by_cases hcarry : w.carry = [] <;> simp [hcarry, channelText, own]
  · rw [if_neg hown]
    have hnone : deltaText (release ⟨[], none⟩) = [] := rfl
    rw [hnone, release]
    cases howner : w.owner with
    | none => rfl
    | some ch' =>
      have hne : ch' ≠ ch := fun heq => hown (heq ▸ howner)
      by_cases hcarry : w.carry = []
      · simp [hcarry, channelText, own, deltaText]
      · simp [hcarry, channelText, own, deltaText, hne]

/-- **A channel gets what it would get alone**, when the channels take turns with nothing
withheld in between. -/
theorem channelText_relay :
    ∀ {xs : List (Channel × Text)} {w : Withheld}, InTurn st w xs →
      channelText ch (relay st w xs) = deltaText (relay st (w.seenBy ch) (own ch xs)) := by
  intro xs
  induction xs with
  | nil => intro w _; exact channelText_release ch w
  | cons x xs ih =>
    rintro w ⟨hturn, hrest⟩
    have hrest' := ih hrest
    obtain ⟨ch', t⟩ := x
    by_cases hch : ch' = ch
    · subst hch
      -- the channel's own delta meets the text it would meet alone
      have hcarry : w.carry = (w.seenBy ch').carry := by
        unfold seenBy
        by_cases hown : w.owner = some ch'
        · rw [if_pos hown]
        · rw [if_neg hown]
          exact hturn.resolve_right hown
      have hsame := withhold_congr st hcarry (ch', t)
      have hseen : (withhold st w (ch', t)).1.seenBy ch' = (withhold st w (ch', t)).1 :=
        if_pos rfl
      have hown : own ch' ((ch', t) :: xs) = (ch', t) :: own ch' xs := by simp [own]
      rw [hseen] at hrest'
      have hout : (withhold st w (ch', t)).2 = (ch', (withhold st w (ch', t)).2.2) := rfl
      rw [relay, hout, channelText_cons_self, hrest', hown, relay, ← hsame, hout]
      rfl
    · -- another channel's delta leaves nothing for it, and took nothing of it
      have hseen : (withhold st w (ch', t)).1.seenBy ch = ⟨[], none⟩ :=
        if_neg fun heq => hch (Option.some.inj heq)
      have hempty : (w.seenBy ch).carry = [] := by
        unfold seenBy
        by_cases hown : w.owner = some ch
        · rw [if_pos hown]
          refine hturn.resolve_right fun heq => ?_
          rw [hown] at heq
          exact hch (Option.some.inj heq).symm
        · rw [if_neg hown]
      have hown : own ch ((ch', t) :: xs) = own ch xs := by simp [own, hch]
      have hnone : (⟨[], none⟩ : Withheld).carry = [] := rfl
      rw [hseen] at hrest'
      rw [relay, channelText_cons_ne ch hch, hrest', hown, relay_congr st hempty hnone]

end Channel

section Stream

variable {J : SseJson} {valid : Bytes → Prop}

def SameText (st : MaskRestore) (ch : Channel) (S S' : DeltaStream J valid) : Prop :=
  ∃ ys ys', S.Delivers st ys ∧ S'.Delivers st ys' ∧ channelText ch ys = channelText ch ys'

theorem channelText_relayed {S : DeltaStream J valid} {st : MaskRestore}
    (hturn : InTurn st ⟨[], none⟩ S.deltas) (ch : Channel) :
    channelText ch (S.relayed st) =
      if st.keys = [] then deltaText (own ch S.deltas)
      else deltaText (relay st ⟨[], none⟩ (own ch S.deltas)) := by
  unfold relayed
  by_cases hkeys : st.keys = []
  · rw [if_pos hkeys, if_pos hkeys]
    rfl
  · rw [if_neg hkeys, if_neg hkeys, channelText_relay st ch hturn]
    rfl

/-- **Channels that take turns do not interfere**: what the client gets on a channel is a
function of the deltas of that channel. -/
theorem channels_do_not_interfere (hJ : J.Lawful valid) (st : MaskRestore)
    (S S' : DeltaStream J valid) (hturn : InTurn st ⟨[], none⟩ S.deltas)
    (hturn' : InTurn st ⟨[], none⟩ S'.deltas) (ch : Channel)
    (hown : own ch S.deltas = own ch S'.deltas) : SameText st ch S S' := by
  refine ⟨_, _, S.delivers_relayed hJ st, S'.delivers_relayed hJ st, ?_⟩
  rw [channelText_relayed hturn, channelText_relayed hturn', hown]

end Stream

/-- A placeholder in two deltas of one choice, then text of another choice. -/
theorem second_choice_unseen :
    SameText addressTable (chatChannel 0)
      (chatStream [(0, "\x7b\x7bAD".toList), (0, "DR_1\x7d\x7d ok".toList), (1, "hello".toList)])
      (chatStream [(0, "\x7b\x7bAD".toList), (0, "DR_1\x7d\x7d ok".toList)]) := by
  refine channels_do_not_interfere documents_lawful _ _ _ ?_ ?_ _ ?_
  · rw [deltas_chatStream]
    decide +kernel
  · rw [deltas_chatStream]
    decide +kernel
  · rw [deltas_chatStream, deltas_chatStream]
    decide +kernel

/-- What is withheld of the first choice is let out in the second one's frame. -/
theorem channels_interfere :
    ¬ ∀ (J : SseJson) (valid : Bytes → Prop), J.Lawful valid →
      ∀ (st : MaskRestore) (S S' : DeltaStream J valid) (ch : Channel),
        own ch S.deltas = own ch S'.deltas → SameText st ch S S' := by
  intro h
  let S := chatStream [(0, "\x7b\x7bAD".toList), (1, "hello".toList)]
  let S' := chatStream [(1, "hello".toList)]
  have hdeltas : S.deltas =
      [(chatChannel 0, "\x7b\x7bAD".toList), (chatChannel 1, "hello".toList)] :=
    deltas_chatStream _
  have hdeltas' : S'.deltas = [(chatChannel 1, "hello".toList)] := deltas_chatStream _
  have hown : own (chatChannel 1) S.deltas = own (chatChannel 1) S'.deltas := by
    rw [hdeltas, hdeltas']
    decide
  obtain ⟨ys, ys', hys, hys', htext⟩ :=
    h documents IsDocument documents_lawful addressTable S S' (chatChannel 1) hown
  rw [hys.unique (S.delivers_relayed documents_lawful _),
    hys'.unique (S'.delivers_relayed documents_lawful _), relayed,
    relayed, hdeltas, hdeltas'] at htext
  exact absurd htext (by decide +kernel)

end AikeyProxy.Proxy
