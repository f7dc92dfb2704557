import FaAuthM8.Lib.Table
import FaAuthM8.Lib.Interleaving
import FaAuthM8.Models
import FaAuthM8.Database
import FaAuthM8.Core.Config
import FaAuthM8.Core.Client
import FaAuthM8.Core.Deps
import FaAuthM8.Services.Generation
import FaAuthM8.Services.Users
import FaAuthM8.Services.ClientSessions
import FaAuthM8.Services.Outbox
import FaAuthM8.Services.RoleAdmin
import FaAuthM8.Services.SecurityPreflight
import FaAuthM8.Services.Auth
import FaAuthM8.System.World
import FaAuthM8.System.Requests
import FaAuthM8.System.Steps
import FaAuthM8.System.Transitions
import FaAuthM8.System.Effects
import FaAuthM8.System.Tables
import FaAuthM8.System.Events
import FaAuthM8.Proof.Locking
import FaAuthM8.Proof.Superuser
import FaAuthM8.Proof.Copies
import FaAuthM8.Proof.Issuing
import FaAuthM8.Proof.Generations
import FaAuthM8.Proof.Authority
import FaAuthM8.Proof.Delivery
import FaAuthM8.Proof.Logout
import FaAuthM8.Proof.Exchange
import FaAuthM8.Proof.Finality
import FaAuthM8.Proof.Serial
import FaAuthM8.Proof.Propagation
import FaAuthM8.Proof.Atomicity
import FaAuthM8.Proof.SelfUpdates
import FaAuthM8.Proof.Admission
import FaAuthM8.Core.Consumers
import FaAuthM8.Lib.Words
import FaAuthM8.Services.ServiceToken
import FaAuthM8.Proof.ServiceTokens
import FaAuthM8.Core.RateLimiter
import FaAuthM8.System.Limiter
import FaAuthM8.Proof.RateLimits
import FaAuthM8.Core.ApiKeys
import FaAuthM8.Routes.Introspection
import FaAuthM8.Proof.Introspection
import FaAuthM8.Events.Hub
import FaAuthM8.System.Stream
import FaAuthM8.Proof.Stream
import FaAuthM8.Proof.Deletions
import FaAuthM8.Proof.Status
import FaAuthM8.Proof.Repairs
import FaAuthM8.Proof.Resume
import FaAuthM8.Proof.Intents
import FaAuthM8.Proof.Lifetimes
import FaAuthM8.System.ApiKeys
import FaAuthM8.Proof.KeyCap
import FaAuthM8.Proof.Audiences
import FaAuthM8.System.Purges
import FaAuthM8.Proof.Purges
import FaAuthM8.Core.WindowLimiter
import FaAuthM8.Routes.OauthLogin
import FaAuthM8.System.OauthFlow
import FaAuthM8.Proof.OauthFlow
import FaAuthM8.Routes.Login
import FaAuthM8.System.Logins
import FaAuthM8.Proof.Guessing
import FaAuthM8.Proof.Resurrection
import FaAuthM8.Proof.Blacklist
import FaAuthM8.Proof.Kills
import FaAuthM8.System.Windows
import FaAuthM8.Proof.Windows
import FaAuthM8.Lib.Sweep
import FaAuthM8.Proof.KeyLimits
import FaAuthM8.Services.Sweeps
import FaAuthM8.Proof.Sweeps
import FaAuthM8.Proof.DeadKeys
import FaAuthM8.Services.Tombstones
import FaAuthM8.Proof.Tombstones
import FaAuthM8.Core.Emails
import FaAuthM8.System.Accounts
import FaAuthM8.Proof.Emails
import FaAuthM8.Core.Security
import FaAuthM8.Services.ProviderTokens
import FaAuthM8.Core.KeyIds
import FaAuthM8.Proof.ProviderTokens
import FaAuthM8.Routes.Jwks
import FaAuthM8.Proof.KeyIds
import FaAuthM8.Proof.ClientAddress
import FaAuthM8.Core.CircuitBreaker
import FaAuthM8.Proof.CircuitBreaker
import FaAuthM8.Proof.LastUsed
import FaAuthM8.Lib.DotSegments
import FaAuthM8.Lib.Urls
import FaAuthM8.Routes.RedirectTargets
import FaAuthM8.Proof.Redirects
import FaAuthM8.Events.Wire
import FaAuthM8.System.Wire
import FaAuthM8.Lib.Simulation
import FaAuthM8.Proof.Wire
import FaAuthM8.Proof.Leases
import FaAuthM8.Lib.Walk
import FaAuthM8.Scripts.SuperuserGuard
import FaAuthM8.Proof.SuperuserGuard
import FaAuthM8.Proof.Ledger
import FaAuthM8.Proof.Cutover
import FaAuthM8.Proof.OauthTargets
import FaAuthM8.Lib.Json
import FaAuthM8.System.KeySets
import FaAuthM8.Proof.KeySets
import FaAuthM8.Proof.Fairness
import FaAuthM8.Proof.Revocations
