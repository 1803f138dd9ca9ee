import AikeyProxy.Lib.Run
import Mathlib.Data.List.Sort

/-!
# Pulled policies: quota rules and the compliance mandate

The quota poller writes the rules it pulled to a cache in the vault, publishes their signature, and
reloads; a poll whose signature is the published one does nothing. The compliance poller publishes
three values and reloads if one changed. A reload builds a generation from the published values and,
as its last act, loads the quota cache into the snapshot that is enforced. It may fail as a whole,
and the load of the cache by itself.
-/

namespace AikeyProxy.Supervisor

open Lib

/-! ## Policies -/

/-- A subject of the quota policy; rules and baselines are kept as the JSON text. -/
structure PolicySubject where
  subjectID : String
  subjectKind : String
  members : List String
  rules : String
  baselines : String
  deriving DecidableEq

/-- `quotaSubjectsSig`: the subjects sorted by id; the signature is their JSON text, kept
as the sorted list itself. -/
def quotaSubjectsSig (subjects : List PolicySubject) : List PolicySubject :=
  subjects.insertionSort fun a b => a.subjectID ≤ b.subjectID

/-- The row `WriteSubjects` makes of a subject: the rules column is never empty. -/
def PolicySubject.row (s : PolicySubject) : PolicySubject :=
  { s with rules := if s.rules = "" then "[]" else s.rules }

def cacheRows (subjects : List PolicySubject) : List PolicySubject := subjects.map PolicySubject.row

def privacyTierMetadataOnly : Int := 1

def privacyTierRawSnippet : Int := 3

def clampPrivacyTier (tier : Int) : Int :=
  if tier < privacyTierMetadataOnly ∨ privacyTierRawSnippet < tier then privacyTierMetadataOnly
  else tier

structure ComplianceBody where
  enabled : Bool
  privacyTier : Int
  passwordTier : String

structure CompliancePolicy where
  enabled : Bool
  privacyTier : Int
  passwordAdvanced : Bool
  deriving DecidableEq

def ComplianceBody.policy (b : ComplianceBody) : CompliancePolicy :=
  ⟨b.enabled, clampPrivacyTier b.privacyTier, decide (b.passwordTier = "advanced")⟩

/-! ## State -/

/-- Where the compliance poller stands. The three values are swapped one after the other;
`changed` is whether one of them was new so far. -/
inductive CompliancePc where
  | idle
  | swapPassword (p : CompliancePolicy) (changed : Bool)
  | swapEnabled (p : CompliancePolicy) (changed : Bool)
  | reload
  deriving DecidableEq

structure PolicyConfig where
  quotaEnabled : Bool
  /-- An old vault has no table for the quota cache: writes to it are dropped in silence. -/
  hasTable : Bool

/-- `polledQuota` and `polledCompliance` are the answers of the last successful polls. -/
structure PolicyWorld where
  lastQuotaSig : Option (List PolicySubject)
  master : CompliancePolicy
  quotaCache : List PolicySubject
  quotaSnapshot : List PolicySubject
  active : CompliancePolicy
  quotaReload : Bool
  compliancePc : CompliancePc
  polledQuota : Option (List PolicySubject)
  polledCompliance : Option CompliancePolicy

/-- The first generation loads the cache of an earlier run, and `seedQuotaSig` reads it once more
for the signature. Either read may fail. -/
def PolicyWorld.init (cfg : PolicyConfig) (cached : List PolicySubject) (loaded seeded : Bool) :
    PolicyWorld :=
  let cache := if cfg.hasTable then cacheRows cached else []
  { lastQuotaSig := if cfg.quotaEnabled && seeded then some (quotaSubjectsSig cache) else none
    master := ⟨false, 0, false⟩
    quotaCache := cache
    quotaSnapshot := if cfg.quotaEnabled && loaded then cache else []
    active := ⟨false, 0, false⟩
    quotaReload := false
    compliancePc := .idle
    polledQuota := none
    polledCompliance := none }

/-! ## Steps -/

variable (cfg : PolicyConfig) (s : PolicyWorld)

/-- `syncQuotaPolicy` up to its reload; no answer stands for every failed poll. -/
def PolicyWorld.quotaPoll (answer : Option (List PolicySubject)) (writeOk : Bool) : PolicyWorld :=
  match answer with
  | none => s
  | some subjects =>
    if !cfg.quotaEnabled then s
    else
      let sig := quotaSubjectsSig subjects
      let s := { s with polledQuota := some subjects }
      if s.lastQuotaSig = some sig then s
      else if !writeOk then s
      else
        { s with
          quotaCache := if cfg.hasTable then cacheRows sig else s.quotaCache
          lastQuotaSig := some sig
          quotaReload := true }

/-- `syncComplianceMasterPolicy` up to its first swap. The copy for the local console is
left out: nothing reads it back. -/
def PolicyWorld.compliancePoll (s : PolicyWorld) (answer : Option ComplianceBody) : PolicyWorld :=
  match answer with
  | none => s
  | some body =>
    let p := body.policy
    { s with
      master := { s.master with privacyTier := p.privacyTier }
      compliancePc := .swapPassword p (decide (s.master.privacyTier ≠ p.privacyTier))
      polledCompliance := some p }

def PolicyWorld.complianceSwap (s : PolicyWorld) : Option PolicyWorld :=
  match s.compliancePc with
  | .swapPassword p changed =>
    some { s with
      master := { s.master with passwordAdvanced := p.passwordAdvanced }
      compliancePc :=
        .swapEnabled p (changed || decide (s.master.passwordAdvanced ≠ p.passwordAdvanced)) }
  | .swapEnabled p changed =>
    some { s with
      master := { s.master with enabled := p.enabled }
      compliancePc := if changed || decide (s.master.enabled ≠ p.enabled) then .reload else .idle }
  | _ => none

/-- `reloadQuotaSnapshot`: a failed load keeps the last snapshot. -/
def PolicyWorld.reloadQuotaSnapshot (loadOk : Bool) : PolicyWorld :=
  if cfg.quotaEnabled && loadOk then { s with quotaSnapshot := s.quotaCache } else s

/-- How a reload goes: whether the generation was built, and whether the cache was read. -/
structure ReloadOutcome where
  built : Bool
  quotaLoaded : Bool

/-- `Reload`: a generation built from the published values. -/
def PolicyWorld.reload (out : ReloadOutcome) : PolicyWorld :=
  if out.built then ({ s with active := s.master }).reloadQuotaSnapshot cfg out.quotaLoaded else s

inductive PolicyRail where
  | quota
  | compliance
  | other

inductive PolicyAct where
  | quotaPoll (answer : Option (List PolicySubject)) (writeOk : Bool)
  | compliancePoll (answer : Option ComplianceBody)
  | complianceSwap
  | reload (rail : PolicyRail) (out : ReloadOutcome)
  /-- The managed-key sync loads the quota cache on its own. -/
  | managedSync (loadOk : Bool)

def policyStep : PolicyAct → Option PolicyWorld
  | .quotaPoll answer writeOk =>
    if s.quotaReload then none else some (s.quotaPoll cfg answer writeOk)
  | .compliancePoll answer =>
    if s.compliancePc = .idle then some (s.compliancePoll answer) else none
  | .complianceSwap => s.complianceSwap
  | .reload .quota out =>
    if s.quotaReload then some { s.reload cfg out with quotaReload := false } else none
  | .reload .compliance out =>
    if s.compliancePc = .reload then some { s.reload cfg out with compliancePc := .idle } else none
  | .reload .other out => some (s.reload cfg out)
  | .managedSync loadOk => some (s.reloadQuotaSnapshot cfg loadOk)

end AikeyProxy.Supervisor
