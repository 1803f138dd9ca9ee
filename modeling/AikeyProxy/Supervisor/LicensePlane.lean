/-!
# The license gate

A rail polls the control plane for one word, `allow` or `deny`, keeps the last one in memory for the
request path and writes it to a file that the next process starts from. Times are nanoseconds since
the Unix epoch; the file has milliseconds.
-/

namespace AikeyProxy.Supervisor

def licenseGateAllow : String := "allow"

def licenseGateDeny : String := "deny"

def millisecond : Int := 1000000

def licensePlaneStaleCeiling : Int := 7 * 24 * 60 * 60 * 1000 * millisecond

/-- The zero `time.Time`: the first of January of the year 1. -/
def zeroTime : Int := -62135596800 * 1000 * millisecond

structure LicensePlaneState where
  forwarding : String
  observedAt : Int
  hydrated : Bool

/-- The current observation; `none` for a cache that has never been synced. -/
abbrev LicensePlaneCache := Option LicensePlaneState

def LicensePlaneCache.observe (_ : LicensePlaneCache) (forwarding : String) (observedAt : Int) :
    LicensePlaneCache :=
  some ⟨forwarding, observedAt, false⟩

def LicensePlaneCache.hydrate (c : LicensePlaneCache) (forwarding : String) (observedAt : Int) :
    LicensePlaneCache :=
  if observedAt = zeroTime then c
  else
    match c with
    | some _ => c
    | none => some ⟨forwarding, observedAt, true⟩

def LicensePlaneCache.forwardingAllowed (c : LicensePlaneCache) (now : Int) : Bool :=
  match c with
  | none => true
  | some st =>
    if licensePlaneStaleCeiling < now - st.observedAt then false
    else st.forwarding == licenseGateAllow

/-- The state file, without the time at which it was written, which nothing reads. -/
structure LicensePlaneStateFile where
  forwarding : String
  observedAt : Int

structure LicenseWorld where
  now : Int
  cache : LicensePlaneCache
  file : Option LicensePlaneStateFile

def recognisedGate (forwarding : String) : Bool :=
  forwarding == licenseGateAllow || forwarding == licenseGateDeny

def persistLicensePlane (w : LicenseWorld) : LicenseWorld :=
  match w.cache with
  | none => w
  | some st => { w with file := some ⟨st.forwarding, st.observedAt / millisecond⟩ }

def hydrateLicensePlane (w : LicenseWorld) : LicenseWorld :=
  match w.file with
  | none => w
  | some st =>
    if st.observedAt ≤ 0 || !recognisedGate st.forwarding then w
    else { w with cache := w.cache.hydrate st.forwarding (st.observedAt * millisecond) }

/-- A worker without a control token, a failed request, a status other than 200, a body that does
not decode, or one with a forwarding value. -/
inductive LicenseAnswer where
  | noToken
  | failed
  | status (code : Nat)
  | undecodable
  | gate (forwarding : String)

inductive LicenseSyncError where
  | fetch
  | http (code : Nat)
  | decode
  | unrecognised (forwarding : String)

def syncLicensePlane (w : LicenseWorld) : LicenseAnswer → Option LicenseSyncError × LicenseWorld
  | .noToken => (none, w)
  | .failed => (some .fetch, w)
  | .status code => if code = 404 then (none, w) else (some (.http code), w)
  | .undecodable => (some .decode, w)
  | .gate forwarding =>
    if !recognisedGate forwarding then (some (.unrecognised forwarding), w)
    else
      (none, persistLicensePlane { w with cache := w.cache.observe forwarding w.now })

inductive LicenseAct where
  | poll (answer : LicenseAnswer)
  /-- a new process, which hydrates before it serves -/
  | restart
  | pass (duration : Nat)

def licenseStep (w : LicenseWorld) : LicenseAct → LicenseWorld
  | .poll answer => (syncLicensePlane w answer).2
  | .restart => hydrateLicensePlane { w with cache := none }
  | .pass duration => { w with now := w.now + duration }

end AikeyProxy.Supervisor
