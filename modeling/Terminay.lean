import Terminay.Activity.ActivityRuns
import Terminay.Activity.SignalRuns
import Terminay.Approvals.ApprovalRuns
import Terminay.Automation.RunLogRuns
import Terminay.Bots.RfbRuns
import Terminay.Bots.SourceRuns
import Terminay.Bots.TurnQueueRuns
import Terminay.Client.AcknowledgementRuns
import Terminay.Client.AdmissionRuns
import Terminay.Client.AttachmentRuns
import Terminay.Client.ConnectionRuns
import Terminay.Client.RecoveryRuns
import Terminay.Client.SubscriptionRuns
import Terminay.Cron.Feasibility
import Terminay.Cron.Outage
import Terminay.Files.DurableRuns
import Terminay.Files.ReleaseRuns
import Terminay.Files.SessionRuns
import Terminay.Files.WatchRuns
import Terminay.Folders.ReconcilerRuns
import Terminay.Holder.FlowRuns
import Terminay.Holder.FrameRuns
import Terminay.Holder.WireRuns
import Terminay.Language.SessionRuns
import Terminay.Migration.RunnerRuns
import Terminay.Protocol.Confinement
import Terminay.Protocol.DispatchRuns
import Terminay.Protocol.EnvelopeTransfers
import Terminay.Protocol.FrameUnique
import Terminay.Protocol.InboundRuns
import Terminay.Protocol.OutboundAccounts
import Terminay.Protocol.SideEffects
import Terminay.Protocol.SubscriptionFilter
import Terminay.Protocol.SubscriptionResync
import Terminay.Remote.AuthenticationRuns
import Terminay.Remote.PairingRuns
import Terminay.Remote.TransportRuns
import Terminay.Settings.RepositoryRuns
import Terminay.Settings.VaultRuns
import Terminay.Terminal.AttachmentOrder
import Terminay.Terminal.CheckpointPinRuns
import Terminay.Terminal.CheckpointRuns
import Terminay.Terminal.ChunkQueueRuns
import Terminay.Terminal.InputRuns
import Terminay.Terminal.LeaseRuns
import Terminay.Terminal.PullRuns
import Terminay.Terminal.RecoveryCodec
import Terminay.Terminal.RegistryRuns
import Terminay.Terminal.ResizeRuns
import Terminay.Workspace.RepositoryRuns
import Terminay.Workspace.SpaceRuns
