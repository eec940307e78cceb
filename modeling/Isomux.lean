import Isomux.AgentRunner.StdinOrder
import Isomux.AgentRunner.StdinWindow
import Isomux.AppHosts.ReturnTarget
import Isomux.AppSockets.CloseReasons
import Isomux.AppSockets.FrameMemory
import Isomux.AppSockets.HandshakeRequest
import Isomux.AppSockets.RelayOrder
import Isomux.AppSockets.RelayPermit
import Isomux.AppSockets.UpstreamReentry
import Isomux.Apps.MessageBudget
import Isomux.Apps.RegistrySafety
import Isomux.Asks.StoreSafety
import Isomux.Auth.Restart
import Isomux.Auth.SessionCookies
import Isomux.ControlPlane.ContractPartition
import Isomux.ControlPlane.CreateLatchSafety
import Isomux.ControlPlane.DunningEpisodes
import Isomux.ControlPlane.LateResults
import Isomux.ControlPlane.ReinstatementSafety
import Isomux.ControlPlane.RepowerSafety
import Isomux.ControlPlane.RetentionPromise
import Isomux.ControlPlane.WebhookSafety
import Isomux.Cronjobs.NextFire
import Isomux.Cronjobs.RunForks
import Isomux.Elevator.PanelIdempotent
import Isomux.Identity.RelayFit
import Isomux.Logs.EditTarget
import Isomux.Logs.LoadLog
import Isomux.Logs.RedactingStream
import Isomux.Logs.SearchHits
import Isomux.Members.ChatOrder
import Isomux.Members.ChatWalk
import Isomux.Messages.BoundaryDelivery
import Isomux.Messages.DedupeWindow
import Isomux.Messages.DefusedLabels
import Isomux.Messages.ScheduledOrder
import Isomux.Messages.ScheduledSafety
import Isomux.Messages.SendDedupeSafety
import Isomux.Notifications.PushPayload
import Isomux.Office.AgentMirror
import Isomux.Office.OutboxOrder
import Isomux.Office.TaskDeltas
import Isomux.SecretProxy.BasicCredentials
import Isomux.SecretProxy.HeadRoundTrip
import Isomux.SecretProxy.ScrubBase64
import Isomux.SecretProxy.ScrubStreamLeaks
import Isomux.Storage.AttachmentRefs
import Isomux.Transport.IdempotencySafety
import Isomux.Usage.Lifetime
import Isomux.Webhooks.BlockSafety
import Isomux.Webhooks.DeliveryDedup
import Isomux.Webhooks.Ingress
