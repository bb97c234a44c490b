import Narwhal.Lib.Fold
import Narwhal.Lib.Run
import Narwhal.Lib.DepthFirst
import Narwhal.Ci.UpgradeWaves
import Narwhal.Ci.WaveGraph
import Narwhal.Ci.WaveOrder
import Narwhal.Ci.PolicyScan
import Narwhal.Ci.KindSearch
import Narwhal.Ci.PolicyLines
import Narwhal.Ci.PolicyEscape
import Narwhal.Ci.PolicyBodies
import Narwhal.Ci.PolicyDocuments
import Narwhal.Ci.PolicyInPlace
import Narwhal.Ci.PolicyScanned
import Narwhal.Evidence.SpendOnce
import Narwhal.Evidence.VerifyAgree
import Narwhal.Evidence.Tamper
import Narwhal.Evidence.Interleaving
import Narwhal.Evidence.CheckpointRuns
import Narwhal.Evidence.FailClosed
import Narwhal.Evidence.Findings
import Narwhal.Evidence.CanonicalLine
import Narwhal.Portal.ClaimOnce
import Narwhal.Portal.TuningApprovalOnce
import Narwhal.Portal.DigestBinding
import Narwhal.Portal.RegistryRuns
import Narwhal.Portal.RegistryRestarts
import Narwhal.Portal.StreamDelivery
import Narwhal.Portal.ReplayRuns
import Narwhal.Portal.IngestRuns
import Narwhal.Portal.InformerStops
import Narwhal.Portal.InformerStream
import Narwhal.Portal.HostJob
import Narwhal.Portal.CacheKeyClash
import Narwhal.Portal.InvalidationCoverage
import Narwhal.Portal.ValkeyRuns
import Narwhal.Portal.ScopeLabels
import Narwhal.Portal.GroupAttributes
import Narwhal.Portal.SilenceRuns
import Narwhal.Portal.InvocationAuthorized
import Narwhal.Portal.ArgoRuns
import Narwhal.Airgap.StrictGate
import Narwhal.Airgap.PromotionRuns
import Narwhal.Ci.BumpSound
import Narwhal.Airgap.BundleIdentity
import Narwhal.Airgap.InventoryGate
import Narwhal.Portal.TokenBucket
import Narwhal.Portal.IdempotencyBound
import Narwhal.Portal.WatchChunks
import Narwhal.Portal.ApprovalExpiry
import Narwhal.Portal.InvocationBounds
import Narwhal.Portal.PagedLists
import Narwhal.Portal.TuningVerify
import Narwhal.Portal.TuningEdits
import Narwhal.Lib.Yaml
import Narwhal.Lib.YamlText
import Narwhal.Lib.YamlWrite
import Narwhal.Lib.UrlPath
import Narwhal.Portal.TenantRequest
import Narwhal.Portal.TenantRetries
import Narwhal.Portal.TenantManifest
import Narwhal.Portal.TenantInjection
import Narwhal.Lib.JsRecord
import Narwhal.Portal.Storage
import Narwhal.Portal.QuotaHeadroom
import Narwhal.Lib.JsGroup
import Narwhal.Portal.CostAttribution
import Narwhal.Portal.FailoverEligibility
import Narwhal.Lib.Redaction
import Narwhal.Portal.Flow
import Narwhal.Portal.DataCatalog
import Narwhal.Portal.DataCatalogExport
import Narwhal.Lib.JsParse
import Narwhal.Portal.GroupDecoder
import Narwhal.Lib.Reach
import Narwhal.Lib.Regex
import Narwhal.Lib.RegexSearch
import Narwhal.Lib.Pattern
import Narwhal.Portal.SilenceScope
import Narwhal.Lib.PromQL
import Narwhal.Portal.ServiceGraph
import Narwhal.Portal.ServiceGraphPairs
import Narwhal.Portal.ServiceGraphFaithful
import Narwhal.Lib.ReadThrough
import Narwhal.Portal.PromQueries
import Narwhal.Portal.ServiceGraphCache
import Narwhal.Portal.MapWithConcurrency
import Narwhal.Portal.DoraBuckets
import Narwhal.Lib.Ranking
import Narwhal.Portal.CostViews
import Narwhal.Portal.CostTopPods
import Narwhal.Portal.OssVersions
import Narwhal.Portal.UpgradeTarget
import Narwhal.Portal.FetchPolicy
import Narwhal.Lib.PyValue
import Narwhal.Airgap.UpgradeDiff
import Narwhal.Airgap.Sbom
import Narwhal.Lib.DecodeLines
import Narwhal.Ci.RawDiff
import Narwhal.Ci.MarkdownLint
import Narwhal.Ci.DiffScan
import Narwhal.Ci.ChangedLines
import Narwhal.Ci.OrdinaryDiff
import Narwhal.Lib.JsonSchema
import Narwhal.Lib.JsonDict
import Narwhal.Lib.JsonSpaced
import Narwhal.Research.Evidence
import Narwhal.Research.Recorder
import Narwhal.Research.RunRecorded
import Narwhal.Research.RecordText
import Narwhal.Research.RecordChecks
import Narwhal.Research.RecordAccepted
import Narwhal.Lib.JsonBytes
import Narwhal.Research.EvidenceCheck
import Narwhal.Research.RecordedRuns
import Narwhal.Portal.DependencyHealth
import Narwhal.Portal.HealthRuns
import Narwhal.Portal.PlatformStatus
import Narwhal.Portal.Provisioning
import Narwhal.Lib.DoubleExact
import Narwhal.Portal.Slo
import Narwhal.Portal.Auth
