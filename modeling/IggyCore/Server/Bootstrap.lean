import Mathlib
import IggyCore.Consensus.Replica
import IggyCore.Journal.PrepareJournal

/-!
# Restoring the metadata consensus at boot

`restore_metadata_consensus` (`core/server-ng/src/bootstrap.rs`) builds the replica's
`VsrConsensus` from the recovered journal: the view of the last journaled prepare, `init()`,
and `commit_min = commit_max = restored_op`.
-/

namespace IggyCore.Server

open IggyCore.Consensus IggyCore.Journal

def clusterId : Nat := 1

/-- `METADATA_CONSENSUS_NAMESPACE = 1 << 63`. -/
def metadataConsensusNamespace : Nat := 2 ^ 63

/-- The header of the highest journaled op, if its slot still holds it. -/
def lastJournalHeader (journal : PrepareJournal) : Option PrepareHeader :=
  journal.lastOp.bind journal.header

def restoreMetadataConsensus (journal : PrepareJournal) (restoredOp selfReplicaId replicaCount : Nat) :
    Except Panic VsrConsensus := do
  let consensus ← VsrConsensus.new clusterId selfReplicaId replicaCount metadataConsensusNamespace
  let consensus := match lastJournalHeader journal with
    | some header => consensus.setView header.view
    | none => consensus
  let consensus := { consensus.init with sequencer := restoredOp }
  let consensus ← consensus.restoreCommitState restoredOp restoredOp
  return match lastJournalHeader journal with
    | some header => { consensus with lastPrepareChecksum := header.checksum }
    | none => consensus

end IggyCore.Server
