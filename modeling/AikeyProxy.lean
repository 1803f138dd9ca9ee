import AikeyProxy.Proof.Prune
import AikeyProxy.Proof.Reconcile
import AikeyProxy.Proof.WalRace
import AikeyProxy.Proof.RoutingOverride
import AikeyProxy.Proof.GenerationDrain
import AikeyProxy.Proof.ContentDrain
import AikeyProxy.Proof.GroupRuntime
import AikeyProxy.Proof.PolicyPoll
import AikeyProxy.Proof.DeadLetter
import AikeyProxy.Proof.PipeSession
import AikeyProxy.Proof.FilterPool
import AikeyProxy.Proof.FilterCache
import AikeyProxy.Proof.Observers
import AikeyProxy.Proof.ConversationAudit
import AikeyProxy.Proof.Collector
import AikeyProxy.Proof.SignalTrend
import AikeyProxy.Proof.SessionKey
import AikeyProxy.Proof.RequestBody
import AikeyProxy.Proof.ErrorBody
import AikeyProxy.Proof.AuthJournal
import AikeyProxy.Proof.MaskRestore
import AikeyProxy.Proof.SseChannels
import AikeyProxy.Proof.RouteReads
import AikeyProxy.Proof.PathHealth
import AikeyProxy.Proof.GroupReplay
import AikeyProxy.Proof.CandidateChain
import AikeyProxy.Proof.ChainSticky
import AikeyProxy.Proof.GroupServe
import AikeyProxy.Proof.VerdictReplay
import AikeyProxy.Proof.ResponseRestore
import AikeyProxy.Proof.StreamSwitch
import AikeyProxy.Proof.WalFile
import AikeyProxy.Proof.CooldownPersist
import AikeyProxy.Proof.ToolNames
import AikeyProxy.Proof.SseParser
import AikeyProxy.Proof.SelfHeal
import AikeyProxy.Proof.RailHealth
import AikeyProxy.Proof.RevocationSource
import AikeyProxy.Proof.DeadReplay
import AikeyProxy.Proof.ContentCap
import AikeyProxy.Proof.LicensePlane
import AikeyProxy.Proof.HookGenerations
import AikeyProxy.Proof.Roundtrip
import AikeyProxy.Proof.Requests
import AikeyProxy.Proof.AuthDelivery
import AikeyProxy.Proof.StateFiles
import AikeyProxy.Proof.EgressCache
import AikeyProxy.Proof.LabelUnique
import AikeyProxy.Proof.RestoreOnce
import AikeyProxy.Proof.ChainAttempts
import AikeyProxy.Proof.BindingHealth
import AikeyProxy.Proof.ChainAmbiguity
import AikeyProxy.Proof.QuotaUsage
import AikeyProxy.Proof.ClientRegistry
