import Rish.Protocol.Negotiation
import Rish.Content.Collection
import Rish.Archive.Timestamp
import Rish.SoftVm.Serial
import Rish.SoftVm.Rtc
import Rish.SoftVm.PageWalk
import Rish.SoftVm.Ops.Division
import Rish.SoftVm.Ops.Conditions
import Rish.SoftVm.Ops.Shift
import Rish.SoftVm.Ops.BitString
import Rish.SoftVm.Ops.FpuContext
import Rish.SoftVm.Escalation
import Rish.SoftVm.DecodeCoherence
import Rish.Layer.Preflight
import Rish.Protocol.Attribution
import Rish.Agent.Completeness
import Rish.SoftVm.Virtio.Chain
import Rish.SoftVm.Virtio.Driver
import Rish.SoftVm.RegisterFile
import Rish.SoftVm.Ops.SsePacked
import Rish.SoftVm.Virtio.Fault
import Rish.SoftVm.Virtio.Disk
import Rish.SoftVm.Boot.Layout
import Rish.SoftVm.Net.Dns
import Rish.SoftVm.Virtio.Frames
import Rish.SoftVm.Net.Handshake
import Rish.Applets.Cksum
