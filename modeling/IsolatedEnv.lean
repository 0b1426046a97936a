import IsolatedEnv.Backend.Core.Dependencies
import IsolatedEnv.Frontend.SessionIsolation
import IsolatedEnv.Backend.Core.Auth
import IsolatedEnv.Backend.Core.Authorization
import IsolatedEnv.Backend.Core.Database
import IsolatedEnv.Backend.Users.Authentik
import IsolatedEnv.Backend.Users.Service
import IsolatedEnv.Backend.Users.AdminRouter
import IsolatedEnv.Backend.Users.RoleChange
import IsolatedEnv.Backend.Users.RoleEffect
import IsolatedEnv.Backend.Users.ProviderLookup
import IsolatedEnv.Foundation.Base64
import IsolatedEnv.Foundation.JsonText
import IsolatedEnv.Foundation.JsonTree
import IsolatedEnv.Foundation.Keyset
import IsolatedEnv.Foundation.IsoFormat
import IsolatedEnv.Backend.Users.Listing
import IsolatedEnv.Backend.Users.Pagination
import IsolatedEnv.Backend.Users.CursorText
import IsolatedEnv.Backend.Users.CursorCodec
import IsolatedEnv.Foundation.Offset
import IsolatedEnv.Backend.OffsetPages
import IsolatedEnv.Backend.Search
import IsolatedEnv.Backend.Core.Cache
import IsolatedEnv.Backend.Core.CacheCalls
import IsolatedEnv.Backend.Core.CacheScript
import IsolatedEnv.Backend.FeatureExample.Items
import IsolatedEnv.Backend.FeatureExample.Schemas
import IsolatedEnv.Backend.FeatureExample.ItemListing
import IsolatedEnv.Backend.FeatureExample.Invalidation
import IsolatedEnv.Backend.FeatureExample.Coherence
import IsolatedEnv.Backend.App
import IsolatedEnv.Backend.FeatureExample.Ownership
import IsolatedEnv.Backend.FeatureExample.OwnerPart
import IsolatedEnv.Backend.FeatureExample.ItemCalls
import IsolatedEnv.Backend.FeatureExample.Tenants
import IsolatedEnv.Backend.Blocking
import IsolatedEnv.Backend.Unblocking
import IsolatedEnv.Backend.Users.Provisioning
import IsolatedEnv.Backend.Users.AccountIsolation
import IsolatedEnv.Backend.Users.RoleHistory
import IsolatedEnv.Backend.AdminSessions
import IsolatedEnv.Backend.Users.Deletion
import IsolatedEnv.Backend.Users.DeletionOrder
import IsolatedEnv.Backend.Users.AuditedMutation
import IsolatedEnv.Backend.Users.UserSync
import IsolatedEnv.Backend.Users.FirstLogin
import IsolatedEnv.Backend.Audit.Trail
import IsolatedEnv.Backend.Core.ClientAddress
import IsolatedEnv.Backend.Core.Middleware
import IsolatedEnv.Backend.Core.RequestId
import IsolatedEnv.Backend.Core.PathLabels
import IsolatedEnv.Backend.Core.CsrfGate
import IsolatedEnv.Backend.Core.CsrfCookie
import IsolatedEnv.Frontend.TokenAcceptance
import IsolatedEnv.Frontend.RefreshOnce
import IsolatedEnv.Frontend.ApiClient
import IsolatedEnv.Frontend.Actions
import IsolatedEnv.Frontend.AdminUsers
import IsolatedEnv.Frontend.Discovery
import IsolatedEnv.Frontend.SessionCookies
import IsolatedEnv.Backend.Users.ColumnLengths
import IsolatedEnv.Foundation.Calls
import IsolatedEnv.Foundation.Cookies
import IsolatedEnv.Proxy.InternalOnly
import IsolatedEnv.Scripts.Authentik
import IsolatedEnv.Scripts.Seed
import IsolatedEnv.Scripts.SeedRun
import IsolatedEnv.Scripts.Convergence
import IsolatedEnv.Foundation.Rollback
import IsolatedEnv.Backend.Effects
import IsolatedEnv.Backend.Footprint
import IsolatedEnv.Backend.Audit.Standing
import IsolatedEnv.Backend.Privilege
import IsolatedEnv.Foundation.FormUrlencoded
import IsolatedEnv.Frontend.QueryStrings
import IsolatedEnv.Frontend.Login
import IsolatedEnv.Frontend.Lineage
import IsolatedEnv.Frontend.Browsers
import IsolatedEnv.Frontend.SignedOut
import IsolatedEnv.Backend.Audit.LogPages
import IsolatedEnv.Foundation.Exceptions
import IsolatedEnv.Backend.Refusals
import IsolatedEnv.Frontend.SessionEnds
import IsolatedEnv.Backend.Core.Metrics
import IsolatedEnv.Backend.Core.Routing
import IsolatedEnv.Foundation.UrlPath
import IsolatedEnv.Frontend.RoleGuard
import IsolatedEnv.Frontend.PathParameters
import IsolatedEnv.Frontend.Redirects
import IsolatedEnv.Backend.Overlap
import IsolatedEnv.Backend.OverlappingBlocks
import IsolatedEnv.Foundation.Catalog
import IsolatedEnv.Backend.Core.Migrations
