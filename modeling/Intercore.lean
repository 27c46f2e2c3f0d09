import Intercore.Main
import Intercore.Boot.Machine
import Intercore.Mailbox.Controller
import Intercore.Mailbox.Outbox
import Intercore.Register.Memory
import Intercore.Register.Script
import Intercore.Reset.Controller
import Intercore.Resource.Validate
import Intercore.Ring
import Intercore.Semaphore.Block
import Intercore.Semaphore.Lock
import Intercore.Proofs.Contract
import Intercore.Proofs.Interleaving
import Intercore.Proofs.Semaphore.Contention
import Intercore.Proofs.Semaphore.Exclusion
import Intercore.Proofs.Mailbox.Lane
import Intercore.Proofs.Mailbox.Delivery
import Intercore.Proofs.Mailbox.Operation
import Intercore.Proofs.Mailbox.Queue
import Intercore.Proofs.Mailbox.Place
import Intercore.Proofs.Extent
import Intercore.Proofs.Resource.Size
import Intercore.Proofs.Checked
import Intercore.Proofs.Resource.Overflow
import Intercore.Proofs.Resource.Soundness
import Intercore.Proofs.Resource.Codec
import Intercore.Proofs.Resource.Reading
import Intercore.Proofs.Resource.RoundTrip
import Intercore.Proofs.Resource.Grammar
import Intercore.Proofs.Board.Agreement
import Intercore.Proofs.Reset.Window
import Intercore.Proofs.Reset.Nesting
import Intercore.Proofs.Boot.Destination
import Intercore.Proofs.Boot.Release
import Intercore.Proofs.Boot.ResetLine
import Intercore.Proofs.Boot.Announcement
import Intercore.Proofs.Boot.Upkeep
import Intercore.Proofs.Mailbox.Wakeup
import Intercore.Proofs.Mailbox.Acknowledgement
import Intercore.Proofs.Semaphore.Notification
import Intercore.Proofs.Ring.Runs
import Intercore.Proofs.Ring.Tail
import Intercore.Proofs.Ring.Recent
import Intercore.Proofs.Semaphore.Holder
import Intercore.Proofs.Board.Overflow
import Intercore.Proofs.Board.Soundness
import Intercore.Proofs.Board.Overlap
import Intercore.Proofs.Board.TraceName
import Intercore.Proofs.Signal
import Intercore.Proofs.Mailbox.Preemption
import Intercore.Proofs.Log
import Intercore.Proofs.Reset.Call
import Intercore.Proofs.Reset.Discipline
import Intercore.Proofs.Enables
import Intercore.Proofs.Source.Token
import Intercore.Proofs.Source.Reader
import Intercore.Proofs.Board.Build
import Intercore.Proofs.Board.Constants
import Intercore.Proofs.Semaphore.Discipline
import Intercore.Proofs.Boot.Loading
import Intercore.Proofs.Mailbox.Drain
import Intercore.Proofs.Ring.Sharing
import Intercore.Proofs.Lines
import Intercore.Proofs.Board.RingSize
import Intercore.Proofs.Ring.Contents
import Intercore.Proofs.Reset.Sequence
