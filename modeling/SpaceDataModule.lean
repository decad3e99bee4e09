import SpaceDataModule.FlowInterpreter.FrameAccounting
import SpaceDataModule.FlowRuntime.Bookkeeping
import SpaceDataModule.FlowRuntime.ExternalFrames
import SpaceDataModule.FlowRuntime.DispatchAgreement
import SpaceDataModule.FlowRuntime.QueueBounds
import SpaceDataModule.FlowRuntime.Bypass
import SpaceDataModule.FlowRuntime.Atomicity
import SpaceDataModule.Flow.ElementaryCycles
import SpaceDataModule.SabHostcall.Matching
import SpaceDataModule.SabIoRing.Protocol
import SpaceDataModule.SabIoMirror.Refinement
import SpaceDataModule.FlatsqlLink.Protocol
import SpaceDataModule.FlatsqlIo.Routing
import SpaceDataModule.FlatsqlIo.MemoryBackend
import SpaceDataModule.FlatsqlIoServer.Removal
import SpaceDataModule.FlatsqlIoServer.Revocation
import SpaceDataModule.NodeSyncFs.Confinement
import SpaceDataModule.NodeSyncFs.Revocation
import SpaceDataModule.NodeSyncFs.Unlinking
import SpaceDataModule.ThreadPool.Delivery
import SpaceDataModule.ThreadPool.Release
import SpaceDataModule.Hostcall.SandboxedRows
import SpaceDataModule.ProviderAccess
import SpaceDataModule.Manifest.HostCapabilities
import SpaceDataModule.Invoke.Streams
import SpaceDataModule.Transport.KeyWraps
import SpaceDataModule.Transport.Strippers
import SpaceDataModule.Artifact.CanonicalForm
import SpaceDataModule.Transport.HexTexts
import SpaceDataModule.EcdsaDer
