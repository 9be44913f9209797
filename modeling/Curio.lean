import Curio.CachedReader.ReaderSafety
import Curio.CuNative.DecodeParallel
import Curio.CuNative.SnapRoundTrip
import Curio.Cuzk.Batching
import Curio.Cuzk.BudgetBalance
import Curio.Cuzk.PartitionedJobs
import Curio.Deal.DealOffset
import Curio.ExpMgr.MessageTracking
import Curio.Gc.PieceCleanup
import Curio.Harmony.EngineCapacity
import Curio.Harmony.Singleton
import Curio.Harmony.TaskOwnership
import Curio.Ipni.ChunkServe
import Curio.Message.SendNonces
import Curio.Mk20.FetchCoverage
import Curio.Paths.DeclareSectors
import Curio.Paths.LocalLock
import Curio.Paths.LockExclusion
import Curio.Paths.PieceRead
import Curio.Paths.Release
import Curio.Paths.ReserveLimit
import Curio.Pce.Equivalence
import Curio.Pdp.DeletionProgress
import Curio.Pdp.ProvePiece
import Curio.Pdp.ReorgCoverage
import Curio.Proof.Commit1RoundTrip
import Curio.Proof.MemtreeTotal
import Curio.Proof.PoStSound
import Curio.Proof.TreeDBuilt
import Curio.ProofShare.VoucherRedemption
import Curio.ProofSvc.NonceCache
import Curio.RobustHttp.PublicDials
import Curio.Seal.CommitMessage
import Curio.Seal.FailedSectors
import Curio.Seal.SectorNumbers
import Curio.Window.Accounting
import Curio.ProofShare.TaskSubmit
import Curio.Window.HeadChange
import Curio.Pdp.Capabilities
import Curio.ProofShare.SenderTasks
import Curio.FilecoinPayment.Settle
import Curio.Ipni.PdpAdvert
import Curio.Pdp.PullPiece
import Curio.StorageIngest.OpenSummary
