import SwStack.Http.ReverseRouting
import SwStack.EmbeddedDb.WalTorn
import SwStack.EmbeddedDb.Retention
import SwStack.EmbeddedDb.Sync
import SwStack.Quic.Accounting
import SwStack.Quic.FlowHistory
import SwStack.Quic.Network
import SwStack.Quic.Arrivals
import SwStack.Quic.FrameDecoding
import SwStack.SwVtp.Delivery
import SwStack.Ipc.RingQueueRuns
import SwStack.Rtp.Loss
import SwStack.Ts.RoundTrip
import SwStack.EmbeddedDb.TableRoundTrip
import SwStack.Mail.DkimIntegrity
import SwStack.Mail.MailRuns
import SwStack.EmbeddedDb.KnownKeys
import SwStack.EmbeddedDb.MemoryIndexes
import SwStack.Quic.ConnectionIdRuns
import SwStack.Quic.LossRuns
import SwStack.Quic.PacketNumber
import SwStack.Quic.PathBudget
import SwStack.Quic.PersistentCongestion
import SwStack.Quic.ReassemblyRuns
import SwStack.Quic.UnsentPackets
import SwStack.Quic.SendHistory
import SwStack.Http3.FrameCodec
import SwStack.Http3.QpackInteger
import SwStack.Quic.Dplpmtud
import SwStack.Quic.TransportParameterCodec
import SwStack.TableDb.ExactTable
import SwStack.RealtimeDb.JournalHistory
import SwStack.PieceTable.MappedFile
import SwStack.Remote.Download
import SwStack.TableDb.FaithfulMigration
import SwStack.Mail.RelaxedBody
import SwStack.Rtp.NalDetection
import SwStack.WebSocket.Closing
import SwStack.EmbeddedDb.KeyComparison
import SwStack.Http3.StreamFrames
import SwStack.SwVtp.ClockSync
