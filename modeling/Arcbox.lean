import Arcbox.Bridge.Inline
import Arcbox.Bridge.Shim
import Arcbox.Bridge.UploadIntegrity
import Arcbox.Bridge.Download
import Arcbox.Inject.Queue
import Arcbox.Virtio.Notification
import Arcbox.Conntrack.Translation
import Arcbox.Reassembly.RoundTrip
import Arcbox.Reassembly.Bounded
import Arcbox.Datapath.Conserved
import Arcbox.Vsock.Stream
import Arcbox.Computer.Loop
import Arcbox.Computer.Warm
import Arcbox.Dhcp.Accounts
import Arcbox.Engine.Lifecycle.Budget
import Arcbox.Engine.Lifecycle.Generation
import Arcbox.Engine.Lifecycle.Truthful
import Arcbox.TapNet.Exclusive
import Arcbox.Blk.Punch
import Arcbox.Storage.Authority
import Arcbox.Storage.Completion
import Arcbox.Domains.Ledger
import Arcbox.Domains.Mirror
import Arcbox.Runner.OneRunner
import Arcbox.Runner.Graceful
import Arcbox.Runner.Closing
import Arcbox.Runner.Enrollment
import Arcbox.Resolver.Ownership
import Arcbox.HostNetwork.Publication
import Arcbox.Storage.Hold
