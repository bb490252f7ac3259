import Vex.Expirator.Store
import Vex.Expirator.Heap.Basic
import Vex.Expirator.Heap.Sift
import Vex.Expirator.Heap.Refinement
import Vex.Expirator.Heap.Timer
import Vex.Expirator.Heap.Invariant
import Vex.Expirator.Wheel
import Vex.Expirator.Wheel.Index
import Vex.Expirator.Lockfree.Basic
import Vex.Expirator.Lockfree.Timer
import Vex.Expirator.Lockfree.Interleaving
import Vex.Expirator.Lockfree.Clear
import Vex.Expirator.Lockfree.Invariant
import Vex.Networking.Io.Expirator
import Vex.Networking.Io.Refinement
import Vex.Networking.Io.Timer
import Vex.Networking.Io.Handler
import Vex.Networking.Io.Armed
import Vex.Networking.Facade
import Vex.Networking.Codec
import Vex.Networking.Codec.OctetStr
import Vex.Networking.PeerTable
import Vex.Networking.Net.FlatBuffer
import Vex.Networking.Net.FlatArray
import Vex.Networking.Net.Session
import Vex.Networking.Net.HeaderCodec
import Vex.Networking.Net.Builder
import Vex.Networking.Net.Chunking
import Vex.Networking.Net.Send
import Vex.Networking.Net.SendBuffers
import Vex.Networking.Net.Replies
import Vex.Networking.Net.SessionManager
import Vex.Networking.Net.Machine
import Vex.Networking.Net.Machine.Lifecycle
import Vex.Networking.Net.Machine.Receive
import Vex.Networking.Net.Machine.Backpressure
import Vex.Networking.Driver.Basic
import Vex.Networking.Driver.Client
import Vex.Networking.Driver.Handover
import Vex.Networking.Driver.Server
import Vex.Networking.Driver.ClientList
import Vex.SegmentedLogging.Queue
import Vex.SegmentedLogging.Queue.Threads
import Vex.SegmentedLogging.FileName
import Vex.SegmentedLogging.Logger
import Vex.SegmentedLogging.Accounting
import Vex.SegmentedLogging.Files
import Vex.SegmentedLogging.Framing
import Vex.ObjectPooling.Basic
import Vex.ObjectPooling.Ownership
import Vex.ObjectPooling.Runs
