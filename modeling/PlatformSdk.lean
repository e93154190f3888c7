import PlatformSdk.Run
import PlatformSdk.Resilience
import PlatformSdk.ConfigIsolation
import PlatformSdk.ConfigDisclosure
import PlatformSdk.Security
import PlatformSdk.Forgery
import PlatformSdk.Rotation
import PlatformSdk.Access
import PlatformSdk.McpAuth
import PlatformSdk.McpMiddleware
import PlatformSdk.McpBridge
import PlatformSdk.CacheTransparency
import PlatformSdk.CacheIdentity
import PlatformSdk.McpRegistration
import PlatformSdk.McpLifespan
import PlatformSdk.RegistryLookup
import PlatformSdk.RegistryHistory
import PlatformSdk.RegistryBreaker
import PlatformSdk.RegistryVersions
import PlatformSdk.BreakerClients
import PlatformSdk.Substitution
import PlatformSdk.DeepMerge
import PlatformSdk.PolicyCalls
import PlatformSdk.BridgeLoop
import PlatformSdk.RegistryDown
import PlatformSdk.LoadErrors
import PlatformSdk.Blame
import PlatformSdk.EnvExample
import PlatformSdk.InternalHttp
import PlatformSdk.PromptManager
import PlatformSdk.GuardedCache
import PlatformSdk.CacheFreshness
import PlatformSdk.Reregistration
import PlatformSdk.AgentModifiers
import PlatformSdk.ToolResponse
import PlatformSdk.ToolLoading
import PlatformSdk.BridgeBackoff
import PlatformSdk.HeaderText
import PlatformSdk.DollarEscape
import PlatformSdk.RegistryRefresh
import PlatformSdk.ColumnMask
import PlatformSdk.PromptInvalidation
import PlatformSdk.SchemaSql
import PlatformSdk.SchemaPrompt
import PlatformSdk.Metrics
import PlatformSdk.RegistryPaths
import PlatformSdk.ScaffoldMcp
import PlatformSdk.ContextVars
import PlatformSdk.RequestIdentity
import PlatformSdk.ServiceCalls
import PlatformSdk.JwtIdentity
import PlatformSdk.Privileges
import PlatformSdk.ConfigRange
import PlatformSdk.Journal
import PlatformSdk.BridgeHealth
import PlatformSdk.CompactionWindow
import PlatformSdk.InMemoryCache
import PlatformSdk.AuthorizedCalls
import PlatformSdk.FakeRegistry
import PlatformSdk.RelationshipsYaml
import PlatformSdk.Cors
import PlatformSdk.PeerDiscovery
import PlatformSdk.BridgeIdentity
import PlatformSdk.PromptOrder
import PlatformSdk.ConfigVariables
import PlatformSdk.Potential
import PlatformSdk.PolicyEffort
import PlatformSdk.PromptRequests
