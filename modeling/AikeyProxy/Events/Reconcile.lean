import AikeyProxy.Events.Reporter

/-!
# Reconciling gaps with the collector

A reconcile pass asks one collector which numbers of a stream it is missing, re-sends those the WAL
still holds, and confirms the others as lost. The collector's lists are per (organisation, source);
the tables they are checked against go by source and number.
-/

namespace AikeyProxy.Events

open Lib

/-! ## Configuration and environment -/

def terminalResendAttempts : Nat := 3

def maxReconcileWindows : Nat := 100

/-- What one call of `resendWALSeqs` meets: it groups by route source only. -/
structure ResendEnv where
  order : List (String × List ReportableEvent) → List (String × List ReportableEvent)
  order_perm : ∀ gs, (order gs).Perm gs
  answer : String → Answer

/-- One read of the WAL: the events its files hold, and how many of each file's the read returns. -/
structure WalRead where
  files : List (LogFile ReportableEvent)
  reach : String → Nat

def WalRead.entries (r : WalRead) : List WALEntry := (readAll r.reach r.files).map walEntryOf

/-- What one gap window meets. The WAL is read twice, for `walSeqSet` and for the re-send; a failed
request is `none` or `false`. -/
structure Window where
  gapsOk : Bool
  missingSeqs : List Int
  truncated : Bool
  wal : WalRead
  walAtResend : WalRead
  /-- `PendingFloor` of the organisation's lane, `0` when nothing is owed. -/
  owedFloor : Int
  resend : ResendEnv
  lostPromoted : Option Nat
  gaveUpPromoted : Option Nat

structure ReconcileResult where
  sources : Nat
  resent : Nat
  confirmedLost : Nat
  gaveUp : Nat
  stillMissing : Nat

/-- One post to confirm-lost, with what the WAL held and the floor its window saw, and the
deliveries made until then. -/
structure LostPost where
  orgID : String
  sourceID : String
  seqs : List Int
  wal : List ReportableEvent
  owedFloor : Int
  delivered : List ReportableEvent

/-- `counted`, `delivered` and `posts` record the deliveries the budget still counts, every delivery
of a re-send, and every post to confirm-lost. -/
structure Reconciler where
  rep : Reporter
  resendDelivered : String → Int → Nat
  counted : List ReportableEvent
  delivered : List ReportableEvent
  posts : List LostPost

def Reconciler.init : Reconciler := ⟨Reporter.init, fun _ _ => 0, [], [], []⟩

/-! ## One window -/

/-- `walSeqSet`: some entry that was read is of the source and has this number. -/
def walHasSeq (sourceID : String) (entries : List WALEntry) (n : Int) : Bool :=
  entries.any fun e =>
    decide (e.sourceID = sourceID) && decide (0 < e.sourceSeq) && decide (e.sourceSeq = n)

/-- Forget the budget of numbers that are no longer missing. -/
def Reconciler.pruneHealed (st : Reconciler) (sourceID : String) (missing : List Int) :
    Reconciler :=
  { st with
    resendDelivered := fun src n =>
      if src = sourceID ∧ n ∉ missing then 0 else st.resendDelivered src n
    counted := st.counted.filter fun ev => decide (ev.sourceID = sourceID → ev.seq ∈ missing) }

def heldBack (owedFloor n : Int) : Bool := decide (0 < owedFloor) && decide (n ≤ owedFloor)

def Window.notInWAL (w : Window) (sourceID : String) : List Int :=
  w.missingSeqs.filter fun n =>
    !heldBack w.owedFloor n && !walHasSeq sourceID w.wal.entries n

/-- In the WAL, and its budget of delivered re-sends is used up. -/
def Reconciler.gaveUp (st : Reconciler) (sourceID : String) (w : Window) : List Int :=
  w.missingSeqs.filter fun n =>
    !heldBack w.owedFloor n && walHasSeq sourceID w.wal.entries n
      && decide (terminalResendAttempts ≤ st.resendDelivered sourceID n)

def Reconciler.inWAL (st : Reconciler) (sourceID : String) (w : Window) : List Int :=
  w.missingSeqs.filter fun n =>
    !heldBack w.owedFloor n && walHasSeq sourceID w.wal.entries n
      && decide (st.resendDelivered sourceID n < terminalResendAttempts)

def WALEntry.resendEvent (e : WALEntry) : ReportableEvent :=
  { e.eventJSON with
    sourceID := if e.eventJSON.sourceID = "" then e.sourceID else e.eventJSON.sourceID
    sourceSeq :=
      match e.eventJSON.sourceSeq with
      | some n => some n
      | none => some e.sourceSeq }

/-- The first entry of each wanted number, if it has a destination. -/
def resendPick (cfg : ReporterConfig) (sourceID : String) :
    List Int → List WALEntry → List ReportableEvent
  | _, [] => []
  | want, e :: rest =>
    if e.sourceID = sourceID ∧ 0 < e.sourceSeq ∧ e.sourceSeq ∈ want then
      -- taken, whatever organisation it belongs to and whether or not it can be sent
      let want := want.filter fun n => decide (n ≠ e.sourceSeq)
      if cfg.urlForEvent e.resendEvent = "" then resendPick cfg sourceID want rest
      else e.resendEvent :: resendPick cfg sourceID want rest
    else resendPick cfg sourceID want rest

/-- Upload the groups of a re-send; the second component lists the delivered events. -/
def resendGroups (env : ResendEnv) (r : Reporter) :
    List (String × List ReportableEvent) → Reporter × List ReportableEvent
  | [] => (r, [])
  | (routeSource, group) :: rest =>
    match r.uploadGroupTo (env.answer routeSource) with
    | (r', .groupDone) =>
      let out := resendGroups env (r'.markProcessed group) rest
      (out.1, group ++ out.2)
    | (r', .groupRetryLater) => resendGroups env r' rest

def resendWALSeqs (cfg : ReporterConfig) (env : ResendEnv) (r : Reporter) (sourceID : String)
    (seqs : List Int) (entries : List WALEntry) : Reporter × List ReportableEvent :=
  resendGroups env r
    (env.order (groupBy ReportableEvent.routeSource (resendPick cfg sourceID seqs entries)))

def Reconciler.resend (cfg : ReporterConfig) (st : Reconciler) (sourceID : String) (w : Window)
    (seqs : List Int) : Reconciler × Nat :=
  let (r, sent) := resendWALSeqs cfg w.resend st.rep sourceID seqs w.walAtResend.entries
  ({ st with
      rep := r
      resendDelivered := fun src n =>
        if src = sourceID then
          st.resendDelivered src n + (sent.filter fun ev => decide (ev.seq = n)).length
        else st.resendDelivered src n
      counted := st.counted ++ sent
      delivered := st.delivered ++ sent }, sent.length)

def Reconciler.post (st : Reconciler) (orgID sourceID : String) (w : Window) (seqs : List Int) :
    Reconciler :=
  { st with
    posts := st.posts ++ [⟨orgID, sourceID, seqs, contents w.wal.files, w.owedFloor,
      st.delivered⟩] }

inductive WindowEnd where
  | failed
  | converged
  | last
  | more

structure WindowOut where
  st : Reconciler
  res : ReconcileResult
  ended : WindowEnd

/-- The posts of a window, after its re-send. A failed post ends the whole pass. -/
def postWindow (st : Reconciler) (res : ReconcileResult) (orgID sourceID : String) (w : Window)
    (notInWAL gaveUp : List Int) : WindowOut :=
  let afterLost : Reconciler × ReconcileResult × Bool :=
    if notInWAL = [] then (st, res, true)
    else
      match w.lostPromoted with
      | none => (st.post orgID sourceID w notInWAL, res, false)
      | some promoted => (st.post orgID sourceID w notInWAL,
          { res with confirmedLost := res.confirmedLost + promoted }, true)
  let (st, res, ok) := afterLost
  if !ok then ⟨st, res, .failed⟩
  else if gaveUp = [] then ⟨st, res, if w.truncated then .more else .last⟩
  else
    match w.gaveUpPromoted with
    | none => ⟨st.post orgID sourceID w gaveUp, res, .failed⟩
    | some promoted =>
      ⟨st.post orgID sourceID w gaveUp,
        { res with
          confirmedLost := res.confirmedLost + promoted
          gaveUp := res.gaveUp + gaveUp.length },
        if w.truncated then .more else .last⟩

/-- One gap window of one stream; `first` is the source's first window. -/
def reconcileWindow (cfg : ReporterConfig) (st : Reconciler) (res : ReconcileResult)
    (orgID sourceID : String) (first : Bool) (w : Window) : WindowOut :=
  if !w.gapsOk then ⟨st, res, .failed⟩
  else if w.missingSeqs = [] then ⟨st, res, .converged⟩
  else
    let res := if first then { res with sources := res.sources + 1 } else res
    let st := st.pruneHealed sourceID w.missingSeqs
    let out := st.resend cfg sourceID w (st.inWAL sourceID w)
    postWindow out.1 { res with resent := res.resent + out.2 } orgID sourceID w
      (w.notInWAL sourceID) (st.gaveUp sourceID w)

/-! ## Passes -/

/-- The streams still to look at, the one at work first, its windows so far, and the counts. -/
structure ReconcilePass where
  sources : List (String × String)
  iter : Nat
  res : ReconcileResult

/-- The reporter, the pass in progress, and what the earlier passes returned, with `false` for one
that a failed request ended. -/
structure ReconcileWorld where
  st : Reconciler
  pass : Option ReconcilePass
  returned : List (ReconcileResult × Bool)

def ReconcileWorld.init : ReconcileWorld := ⟨Reconciler.init, none, []⟩

/-- `reconcileAgainst`: the completeness request, one window after another, and the return. -/
inductive ReconcileAct where
  | discover (completenessOk : Bool) (sources : List (String × String))
  | window (w : Window)
  | finish

def ReconcileWorld.stream (wd : ReconcileWorld) : Option (String × String) :=
  wd.pass.bind fun p => p.sources.head?

/-- Where the two loops go after a window. A failed request ends the whole pass; a stream that has
had all its windows counts as still missing. -/
def ReconcilePass.next (p : ReconcilePass) (out : WindowOut)
    (returned : List (ReconcileResult × Bool)) : ReconcileWorld :=
  match out.ended with
  | .failed => ⟨out.st, none, returned ++ [(out.res, false)]⟩
  | .converged => ⟨out.st, some ⟨p.sources.tail, 0, out.res⟩, returned⟩
  | .last => ⟨out.st, some ⟨p.sources.tail, 0, out.res⟩, returned⟩
  | .more =>
    if p.iter = maxReconcileWindows - 1 then
      ⟨out.st, some ⟨p.sources.tail, 0,
        { out.res with stillMissing := out.res.stillMissing + 1 }⟩, returned⟩
    else ⟨out.st, some ⟨p.sources, p.iter + 1, out.res⟩, returned⟩

/-- `reconcileAgainst`, step by step. Of the collector's sources only our own id is looked
at. -/
def reconcileStep (cfg : ReporterConfig) (self : String) (wd : ReconcileWorld) :
    ReconcileAct → Option ReconcileWorld
  | .discover completenessOk sources =>
    match wd.pass with
    | some _ => none
    | none =>
      if !completenessOk then
        some { wd with returned := wd.returned ++ [(⟨0, 0, 0, 0, 0⟩, false)] }
      else
        some { wd with
          pass := some ⟨sources.filter fun s => decide (s.2 = self), 0, ⟨0, 0, 0, 0, 0⟩⟩ }
  | .window w =>
    match wd.pass, wd.stream with
    | some p, some (orgID, sourceID) =>
      some (p.next (reconcileWindow cfg wd.st p.res orgID sourceID (decide (p.iter = 0)) w)
        wd.returned)
    | _, _ => none
  | .finish =>
    match wd.pass, wd.stream with
    | some p, none => some ⟨wd.st, none, wd.returned ++ [(p.res, true)]⟩
    | _, _ => none

end AikeyProxy.Events
