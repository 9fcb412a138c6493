import Layerhouse.Auth.Authorization
import Layerhouse.Auth.Bearers
import Layerhouse.Auth.Cookies
import Layerhouse.Auth.Discovery
import Layerhouse.Auth.GroupSpellings
import Layerhouse.Auth.LoginAnswers
import Layerhouse.Auth.LoginBinding
import Layerhouse.Auth.LoginRuns
import Layerhouse.Auth.LoginSafety
import Layerhouse.Auth.LoginSessions
import Layerhouse.Auth.Logins
import Layerhouse.Auth.Middleware
import Layerhouse.Auth.Permissions
import Layerhouse.Auth.PersonalNamespaces
import Layerhouse.Auth.Policies
import Layerhouse.Auth.PolicyText
import Layerhouse.Auth.Principal
import Layerhouse.Auth.PrincipalIds
import Layerhouse.Auth.ResourceIds
import Layerhouse.Auth.ScopeSets
import Layerhouse.Auth.ScopedCredentials
import Layerhouse.Auth.Sessions
import Layerhouse.Auth.SigningKeys
import Layerhouse.Auth.Token
import Layerhouse.Auth.TokenChains
import Layerhouse.Ctl.Copies
import Layerhouse.Ctl.ImageRefs
import Layerhouse.Ctl.Transfers
import Layerhouse.Directory.ErrorMessages
import Layerhouse.Directory.HttpHost
import Layerhouse.Error
import Layerhouse.Gc.Accounting
import Layerhouse.Gc.Keys
import Layerhouse.Gc.Safety
import Layerhouse.Gc.Sweep
import Layerhouse.Library.BTreeMap
import Layerhouse.Library.Ballots
import Layerhouse.Library.Base64
import Layerhouse.Library.Cookies
import Layerhouse.Library.Cursors
import Layerhouse.Library.Descents
import Layerhouse.Library.Effects
import Layerhouse.Library.Erasures
import Layerhouse.Library.Escapes
import Layerhouse.Library.Globs
import Layerhouse.Library.Grammars
import Layerhouse.Library.Groups
import Layerhouse.Library.Headcounts
import Layerhouse.Library.Histories
import Layerhouse.Library.Pages
import Layerhouse.Library.Runs
import Layerhouse.Library.Schedules
import Layerhouse.Library.Slices
import Layerhouse.Library.Tallies
import Layerhouse.Library.Text
import Layerhouse.Library.Words
import Layerhouse.Mirror.Arithmetic
import Layerhouse.Mirror.Challenges
import Layerhouse.Mirror.Claims
import Layerhouse.Mirror.ConfigCaches
import Layerhouse.Mirror.Credentials
import Layerhouse.Mirror.EagerPulls
import Layerhouse.Mirror.Globs
import Layerhouse.Mirror.Inflight
import Layerhouse.Mirror.Intervals
import Layerhouse.Mirror.JobIds
import Layerhouse.Mirror.JobRuns
import Layerhouse.Mirror.Scheduler
import Layerhouse.Mirror.TagLists
import Layerhouse.Mirror.UpstreamPushes
import Layerhouse.Mirror.Upstreams
import Layerhouse.Mirror.Validations
import Layerhouse.Oci.Digest
import Layerhouse.Oci.Manifest
import Layerhouse.Raft.AbstractLog
import Layerhouse.Raft.Apply
import Layerhouse.Raft.Audit
import Layerhouse.Raft.BatchDeletes
import Layerhouse.Raft.BlobRefs
import Layerhouse.Raft.Bootstrap
import Layerhouse.Raft.Catalogs
import Layerhouse.Raft.Content
import Layerhouse.Raft.Determinism
import Layerhouse.Raft.Durability
import Layerhouse.Raft.Effects
import Layerhouse.Raft.Epochs
import Layerhouse.Raft.Grants
import Layerhouse.Raft.LogStore
import Layerhouse.Raft.Manifests
import Layerhouse.Raft.Membership
import Layerhouse.Raft.MembershipChanges
import Layerhouse.Raft.Namespaces
import Layerhouse.Raft.Panics
import Layerhouse.Raft.RecoverableLogs
import Layerhouse.Raft.References
import Layerhouse.Raft.Refinement
import Layerhouse.Raft.Refusals
import Layerhouse.Raft.Releases
import Layerhouse.Raft.Replication
import Layerhouse.Raft.Request
import Layerhouse.Raft.Restoration
import Layerhouse.Raft.Snapshots
import Layerhouse.Raft.StateMachine
import Layerhouse.Raft.Verification
import Layerhouse.Raft.VoteContinuity
import Layerhouse.Routes.Blobs
import Layerhouse.Routes.Calls
import Layerhouse.Routes.CommitLog
import Layerhouse.Routes.Dashboard
import Layerhouse.Routes.Decoding
import Layerhouse.Routes.GrantEdits
import Layerhouse.Routes.Grants
import Layerhouse.Routes.HandleGrammar
import Layerhouse.Routes.Listings
import Layerhouse.Routes.Manifests
import Layerhouse.Routes.Markers
import Layerhouse.Routes.Mediation
import Layerhouse.Routes.MirrorAdmin
import Layerhouse.Routes.Names
import Layerhouse.Routes.NamespaceClaims
import Layerhouse.Routes.NextLinks
import Layerhouse.Routes.Offsets
import Layerhouse.Routes.Paths
import Layerhouse.Routes.Pushes
import Layerhouse.Routes.Queries
import Layerhouse.Routes.Ranges
import Layerhouse.Routes.ReadBack
import Layerhouse.Routes.RepositoryEdits
import Layerhouse.Routes.RepositoryGrammar
import Layerhouse.Routes.ScopedNamespaces
import Layerhouse.Routes.Sizes
import Layerhouse.Routes.StoredScopes
import Layerhouse.Routes.Referrers
import Layerhouse.Routes.Summaries
import Layerhouse.Routes.TokenEpochs
import Layerhouse.Routes.Tokens
import Layerhouse.Store.Assembly
import Layerhouse.Store.Handle
import Layerhouse.Store.OpenUploads
import Layerhouse.Store.S3
import Layerhouse.Store.Types
