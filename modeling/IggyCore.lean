import IggyCore.Library.Run
import IggyCore.Library.SlotArray
import IggyCore.Consensus.Header
import IggyCore.Consensus.Pipeline
import IggyCore.Consensus.ViewChangeQuorum
import IggyCore.Consensus.Timeout
import IggyCore.Consensus.Replica
import IggyCore.Consensus.ViewChange
import IggyCore.Consensus.PrepareOk
import IggyCore.Consensus.CommitFrontier
import IggyCore.Consensus.VoteCounting
import IggyCore.Journal.PrepareJournal
import IggyCore.Server.Bootstrap
import IggyCore.Consensus.ViewInvariants
import IggyCore.Consensus.ClientTable
import IggyCore.Library.LittleEndian
import IggyCore.Wire.Codec
import IggyCore.Wire.Identifier
import IggyCore.Wire.Requests
import IggyCore.Metadata.Prepare
import IggyCore.Partitions.Batch
import IggyCore.Partitions.Partition
import IggyCore.Library.Slab
import IggyCore.Metadata.Streams
import IggyCore.Metadata.Plane
import IggyCore.Metadata.Cluster
import IggyCore.Library.KeyIndex
import IggyCore.Wire.UserRequests
import IggyCore.Metadata.ConsumerGroups
import IggyCore.Metadata.Users
import IggyCore.Wire.Namespace
import IggyCore.Metadata.StreamsInvariant
import IggyCore.Consensus.HeaderBytes
import IggyCore.Library.Layout
import IggyCore.Journal.Wal
import IggyCore.Journal.WalIndex
import IggyCore.Consensus.PipelineInvariant
import IggyCore.Metadata.Permissioner
import IggyCore.Wire.SendMessages
import IggyCore.Library.OrdMap
import IggyCore.Partitions.Legacy
import IggyCore.Partitions.Journal
import IggyCore.Metadata.Recovery
import IggyCore.Wire.UserHeaders
import IggyCore.Library.FlagChain
import IggyCore.Wire.Permissions
import IggyCore.Server.Sessions
