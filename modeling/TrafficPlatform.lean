import TrafficPlatform.Auth.SingleUse
import TrafficPlatform.Auth.Reuse
import TrafficPlatform.Auth.Reset
import TrafficPlatform.Organizations.LastOwner
import TrafficPlatform.Organizations.Escalation
import TrafficPlatform.Quota
import TrafficPlatform.RateLimit.SlidingWindow
import TrafficPlatform.RateLimit.ExactLog
import TrafficPlatform.RateLimit.Reconfigured
import TrafficPlatform.RateLimit.Retry
import TrafficPlatform.RateLimit.Rejected
import TrafficPlatform.RateLimit.Remaining
import TrafficPlatform.Management.Effects
import TrafficPlatform.RateLimit.TokenBucket
import TrafficPlatform.Gateway.Accounting
import TrafficPlatform.Gateway.Admission
import TrafficPlatform.Gateway.Undo
import TrafficPlatform.Gateway.Logging
import TrafficPlatform.Gateway.Headers
import TrafficPlatform.DualWrite
import TrafficPlatform.Gateway.DailyUsage
import TrafficPlatform.Analytics.Rollup
import TrafficPlatform.Analytics.Tenants
import TrafficPlatform.Analytics.Totals
import TrafficPlatform.Management.Isolation
import TrafficPlatform.Management.KeyAuthority
import TrafficPlatform.Management.Memberships
import TrafficPlatform.Management.Columns
import TrafficPlatform.Management.Rotation
import TrafficPlatform.Ownership
import TrafficPlatform.Auth.Families
import TrafficPlatform.Analytics.Search
import TrafficPlatform.Analytics.Dashboard
import TrafficPlatform.Seed
import TrafficPlatform.Auth.Throttle
import TrafficPlatform.Auth.ClientIp
import TrafficPlatform.Management.Trail
import TrafficPlatform.Auth.ResetTokens
import TrafficPlatform.Telemetry.Publisher
import TrafficPlatform.Telemetry.Delivery
import TrafficPlatform.Gateway.Relay
import TrafficPlatform.Gateway.Confinement
import TrafficPlatform.Progress
import TrafficPlatform.AuditTrail
import TrafficPlatform.Auth.Passwords
import TrafficPlatform.KeyUse
import TrafficPlatform.Gateway.KeyIsolation
import TrafficPlatform.Notifications.Inbox
