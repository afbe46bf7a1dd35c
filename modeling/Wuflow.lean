import Wuflow.Invariants.References
import Wuflow.Invariants.SysAdmin
import Wuflow.Sessions.Redemption
import Wuflow.Sessions.Refresh
import Wuflow.Invariants.Isolation
import Wuflow.Invariants.Archive
import Wuflow.Invariants.UserRole
import Wuflow.Invariants.ClosedReleases
import Wuflow.Invariants.Comments
import Wuflow.Invariants.ContentHash
import Wuflow.Invariants.EditFields
import Wuflow.Invariants.ReleaseTrigger
import Wuflow.Invariants.Positions
import Wuflow.Invariants.WellFormed
import Wuflow.Requests.Copies
import Wuflow.Invariants.Overwrites
import Wuflow.Invariants.UserDelete
import Wuflow.Invariants.PositionBatches
import Wuflow.Frontend.Activity
import Wuflow.Frontend.Refresh
import Wuflow.Frontend.IssueLists
import Wuflow.Frontend.Api
import Wuflow.Frontend.Revalidation
import Wuflow.Frontend.Reorder
import Wuflow.Frontend.Modal
import Wuflow.Invariants.UserUpdates
import Wuflow.Invariants.UserNames
import Wuflow.Invariants.StatusHistory
import Wuflow.Limits.SlidingWindow
import Wuflow.Invariants.Authorship
import Wuflow.Backend.TrustedProxies
import Wuflow.Frontend.Passwords
import Wuflow.Frontend.Planning
import Wuflow.Frontend.Saves
import Wuflow.Requests.Throttle
import Wuflow.Requests.Gate
import Wuflow.Sessions.Grants
import Wuflow.Frontend.Calls
import Wuflow.Frontend.Resilience
import Wuflow.Frontend.Display
import Wuflow.Sessions.Browser
import Wuflow.Requests.Enumeration
