import AikeyProxy.Lib.FileDir
import AikeyProxy.Lib.Json

/-!
# State files replaced by renaming

The error rings (`last_errors.go`, `auth_demotions.go`) and the login hint (`group_login_state.go`)
write their file the same way: `os.WriteFile` to a temporary file whose name all calls share, then
`os.Rename` over the state file. A step is one critical section, one atomic load or store or one
file operation; an operation that would fail is not a step.
-/

namespace AikeyProxy.Proxy

open Lib List

inductive StateName
  | tmp | state
deriving DecidableEq

abbrev RunDir := FileDir StateName Char

/-! ## The error rings -/

structure RingKind (E : Type) where
  max : Nat
  entryJson : E → Json
  valid : ∀ e, (entryJson e).Valid

def omitEmpty (key value : String) : Json.Members :=
  if value = "" then [] else [(key, .str value)]

theorem valid_omitEmpty (key value : String) :
    (∀ m ∈ omitEmpty key value, m.2.Valid) ↔ True := by
  unfold omitEmpty
  split <;> simp [Json.Valid]

structure LastErrorEntry where
  atMs : Int
  status : Int
  origin : String
  path : String
  code : String
  traceId : String
  requestPath : String
  upstreamReqId : String

def lastErrorsRing : RingKind LastErrorEntry where
  max := 20
  entryJson e := .obj ([("at_ms", .ofInt e.atMs), ("status", .ofInt e.status)] ++
    omitEmpty "origin" e.origin ++ omitEmpty "path" e.path ++ omitEmpty "code" e.code ++
    omitEmpty "trace_id" e.traceId ++ omitEmpty "request_path" e.requestPath ++
    omitEmpty "upstream_request_id" e.upstreamReqId)
  valid e := by
    simp only [Json.Valid, Json.validMembers_iff, forall_mem_append, List.forall_mem_cons,
      Json.valid_ofInt, valid_omitEmpty, not_mem_nil, false_imp_iff, implies_true, and_self]

structure AuthDemotionEntry where
  atMs : Int
  credentialId : String
  seatId : String
  upstreamStatus : Int
  upstreamErrorType : String
  fingerprintPrefix : String

def authDemotionsRing : RingKind AuthDemotionEntry where
  max := 20
  entryJson e := .obj ([("at_ms", .ofInt e.atMs), ("credential_id", .str e.credentialId),
      ("seat_id", .str e.seatId)] ++
    (if e.upstreamStatus = 0 then [] else [("upstream_status", .ofInt e.upstreamStatus)]) ++
    omitEmpty "upstream_error_type" e.upstreamErrorType ++
    omitEmpty "fingerprint_prefix" e.fingerprintPrefix)
  valid e := by
    simp only [Json.Valid, Json.validMembers_iff, forall_mem_append, List.forall_mem_cons,
      Json.valid_ofInt, valid_omitEmpty, not_mem_nil, false_imp_iff, implies_true, and_self,
      and_true]
    split <;> simp [Json.valid_ofInt]

variable {E : Type}

def RingKind.body (R : RingKind E) (entries : List E) (writtenAt : Int) : Json :=
  .obj [("entries", .arr (entries.map R.entryJson)), ("written_at", .ofInt writtenAt)]

/-- Where a call of `record` is. The number is that of its snapshot. -/
inductive RecordPc (E : Type)
  | idle
  | snapshot (n : Nat) (entries : List E)
  | opened (n : Nat) (data : List Char) (fd : Nat)
  | written (n : Nat)

structure RingState (E : Type) where
  entries : List E
  /-- How many calls have appended their entry; it numbers the snapshots. -/
  records : Nat
  dir : RunDir
  calls : Nat → RecordPc E

inductive RingAct (E : Type)
  | record (t : Nat) (e : E)
  | openTmp (t : Nat) (nowMs : Int)
  | write (t : Nat)
  | rename (t : Nat)

def RingState.setCall (s : RingState E) (t : Nat) (pc : RecordPc E) : RingState E :=
  { s with calls := Function.update s.calls t pc }

def ringStep (R : RingKind E) (s : RingState E) : RingAct E → Option (RingState E)
  | .record t e =>
    match s.calls t with
    | .idle =>
      let entries := (s.entries ++ [e]).drop ((s.entries ++ [e]).length - R.max)
      some { s.setCall t (.snapshot (s.records + 1) entries) with
        entries := entries, records := s.records + 1 }
    | _ => none
  | .openTmp t nowMs =>
    match s.calls t with
    | .snapshot n entries =>
      let (dir, fd) := s.dir.openTrunc .tmp
      some { s.setCall t (.opened n (R.body entries nowMs).print fd) with dir := dir }
    | _ => none
  | .write t =>
    match s.calls t with
    | .opened n data fd => some { s.setCall t (.written n) with dir := s.dir.overwrite fd data }
    | _ => none
  | .rename t =>
    match s.calls t with
    | .written _ => (s.dir.rename .tmp .state).map fun dir => { s.setCall t .idle with dir := dir }
    | _ => none

def RingState.init (dir : RunDir) : RingState E := ⟨[], 0, dir, fun _ => .idle⟩

/-! ## The login hint -/

structure GroupLoginStateBody where
  provider : String
  accountId : String
  loginUrl : String
  writtenAt : Int

def GroupLoginStateBody.json (b : GroupLoginStateBody) : Json :=
  .obj [("provider", .str b.provider), ("account_id", .str b.accountId),
    ("login_url", .str b.loginUrl), ("written_at", .ofInt b.writtenAt)]

/-- Where a call of `Write` (up to `renamed`) or of `Clear` is. -/
inductive LoginPc
  | idle
  | opened (data : List Char) (fd : Nat)
  | written
  | renamed
  | clearing
  | removed
deriving DecidableEq

structure GroupLoginStateStore where
  dirty : Bool
  dir : RunDir
  calls : Nat → LoginPc

inductive LoginAct
  | openTmp (t : Nat) (body : GroupLoginStateBody)
  | write (t : Nat)
  | rename (t : Nat)
  | storeDirty (t : Nat)
  | clear (t : Nat)
  | remove (t : Nat)
  | storeClean (t : Nat)

def GroupLoginStateStore.setCall (s : GroupLoginStateStore) (t : Nat) (pc : LoginPc) :
    GroupLoginStateStore :=
  { s with calls := Function.update s.calls t pc }

def loginStep (s : GroupLoginStateStore) : LoginAct → Option GroupLoginStateStore
  | .openTmp t body =>
    if s.calls t = .idle then
      let (dir, fd) := s.dir.openTrunc .tmp
      some { s.setCall t (.opened body.json.print fd) with dir := dir }
    else none
  | .write t =>
    match s.calls t with
    | .opened data fd => some { s.setCall t .written with dir := s.dir.overwrite fd data }
    | _ => none
  | .rename t =>
    if s.calls t = .written then
      (s.dir.rename .tmp .state).map fun dir => { s.setCall t .renamed with dir := dir }
    else none
  | .storeDirty t =>
    if s.calls t = .renamed then some { s.setCall t .idle with dirty := true } else none
  | .clear t =>
    if s.calls t = .idle then some (if s.dirty then s.setCall t .clearing else s) else none
  | .remove t =>
    -- a file that does not exist is as good as removed
    if s.calls t = .clearing then
      some { s.setCall t .removed with dir := s.dir.unlink .state }
    else none
  | .storeClean t =>
    if s.calls t = .removed then some { s.setCall t .idle with dirty := false } else none

/-- The flag starts set, for a file left behind by an earlier process. -/
def newGroupLoginStateStore (dir : RunDir) : GroupLoginStateStore := ⟨true, dir, fun _ => .idle⟩

end AikeyProxy.Proxy
