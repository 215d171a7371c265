import SegmentClient.Connection.Interleaving
import SegmentClient.Main
import SegmentClient.Proofs.Connection.Ending
import SegmentClient.Proofs.Connection.Session
import SegmentClient.Proofs.Connection.Teardown
import SegmentClient.Proofs.Frame.Canonical
import SegmentClient.Proofs.Frame.OneShot
import SegmentClient.Proofs.Frame.ReadBack
import SegmentClient.Proofs.Listener.Journal
import SegmentClient.Proofs.Outbox.Content
import SegmentClient.Proofs.Frame.Alignment
import SegmentClient.Proofs.Frame.Unambiguous
import SegmentClient.Proofs.Outbox.Pending
import SegmentClient.Proofs.Connection.Waiting
import SegmentClient.Proofs.Frame.Partial
import SegmentClient.Proofs.Frame.Written
import SegmentClient.Proofs.Connection.Batch
import SegmentClient.Proofs.Pacing.Separation
import SegmentClient.Proofs.Source.Slices
import SegmentClient.Proofs.Outbox.Coalescing
import SegmentClient.Proofs.NodeAddress.Spelling
import SegmentClient.Proofs.Outbox.Idle
import SegmentClient.Proofs.Outbox.Uncounted
