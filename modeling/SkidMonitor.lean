import SkidMonitor.Agent.Allocation
import SkidMonitor.Agent.Delivery
import SkidMonitor.Agent.DevicePayload
import SkidMonitor.Agent.LogLines
import SkidMonitor.Agent.Mounts
import SkidMonitor.Agent.Pipeline
import SkidMonitor.Agent.Tailing
import SkidMonitor.Client.AlertHistory
import SkidMonitor.Client.Avatar
import SkidMonitor.Client.AvatarProfile
import SkidMonitor.Client.Constraints
import SkidMonitor.Client.Counts
import SkidMonitor.Client.Generations
import SkidMonitor.Client.Glb
import SkidMonitor.Client.HumanoidScene
import SkidMonitor.Client.Isolation
import SkidMonitor.Client.Mirror
import SkidMonitor.Client.Namespaces
import SkidMonitor.Client.OptionalBones
import SkidMonitor.Client.Overview
import SkidMonitor.Client.Removal
import SkidMonitor.Client.Resume
import SkidMonitor.Client.Series
import SkidMonitor.Client.Severity
import SkidMonitor.Client.StoredEdges
import SkidMonitor.Client.Toggle
import SkidMonitor.Client.Triangles
import SkidMonitor.Client.Worker
import SkidMonitor.Core.Frame
import SkidMonitor.Core.Totals
import SkidMonitor.Server.Capacity
import SkidMonitor.Server.ClaimPointers
import SkidMonitor.Server.Enrollment
import SkidMonitor.Server.History
import SkidMonitor.Server.Migrations
import SkidMonitor.Server.Noninterference
import SkidMonitor.Server.PageBody
import SkidMonitor.Server.Paging
import SkidMonitor.Server.Principal
import SkidMonitor.Server.Retry
import SkidMonitor.Server.RoundTrip
import SkidMonitor.Server.Startup
import SkidMonitor.Server.Stream
import SkidMonitor.Server.Tickets
