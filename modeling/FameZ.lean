import FameZ.Lib.Transition
import FameZ.Lib.OrderedDict
import FameZ.Lib.Scanf
import FameZ.Lib.Kstrto
import FameZ.Lib.PyText
import FameZ.Lib.Utf8
import FameZ.Lib.WaitGraph
import FameZ.Lib.SpinLock
import FameZ.Lib.Tally
import FameZ.Lib.Custody
import FameZ.Lib.ByteMemory
import FameZ.Lib.Mmap
import FameZ.Lib.CBuffer
import FameZ.Lib.Jiffies
import FameZ.Lib.Loop
import FameZ.Lib.Semaphore
import FameZ.Lib.Simulation
import FameZ.Lib.Postbox
import FameZ.Lib.Lifecycle
import FameZ.Lib.Names
import FameZ.Server.Session
import FameZ.Server.Identity
import FameZ.Server.Broadcast
import FameZ.Server.Tables
import FameZ.Server.PeerView
import FameZ.Server.Recycling
import FameZ.Server.EarlyExit
import FameZ.Server.NewClient
import FameZ.Server.HandOver
import FameZ.Mailbox.Handshake
import FameZ.Mailbox.Delivery
import FameZ.Mailbox.CircularWait
import FameZ.Kernel.Link
import FameZ.Kernel.Receiver
import FameZ.Kernel.Orphans
import FameZ.Kernel.Release
import FameZ.Kernel.Outgoing
import FameZ.Kernel.Ownership
import FameZ.Kernel.Bridge
import FameZ.Kernel.BridgeRead
import FameZ.Kernel.BridgeWrite
import FameZ.Kernel.BusyWait
import FameZ.Kernel.IncomingLock
import FameZ.Kernel.ExclusiveOpen
import FameZ.Kernel.LastFlush
import FameZ.Kernel.Isr
import FameZ.Kernel.SharedGlobals
import FameZ.Kernel.ReadsInOrder
import FameZ.Mailbox.Layout
import FameZ.Mailbox.SlotIdentity
import FameZ.Mailbox.Initialize
import FameZ.Mailbox.Table
import FameZ.Mailbox.Crossing
import FameZ.Link.Requests
import FameZ.Link.Messages
import FameZ.Link.Drivers
import FameZ.Link.Network
import FameZ.Link.Exchange
import FameZ.Link.Flight
import FameZ.Link.Invariant
import FameZ.Link.Completion
import FameZ.Link.Agreement
import FameZ.Link.Tags
import FameZ.Link.Recognition
import FameZ.Link.PeerAttributes
import FameZ.Link.Callbacks
import FameZ.Client.DataReceived
import FameZ.Client.Stream
import FameZ.Client.Segments
import FameZ.Console.Commands
import FameZ.Console.Reading
import FameZ.Console.Addresses
import FameZ.Console.Words
import FameZ.Kernel.Probe
import FameZ.Kernel.GenzDevice
import FameZ.Kernel.GenzBus
import FameZ.Kernel.Lifecycle
import FameZ.Kernel.Register
import FameZ.Monolithic.Sendmail
import FameZ.Monolithic.Writers
import FameZ.Monolithic.WriterLock
import FameZ.Monolithic.Readers
import FameZ.Monolithic.LegibleSlot
import FameZ.Monolithic.LostMessages
import FameZ.Monolithic.ReadsInOrder
import FameZ.Monolithic.Probe
import FameZ.Monolithic.Lifecycle
import FameZ.Reference.Server
import FameZ.Reference.Connections
import FameZ.Reference.Descriptors
import FameZ.Reference.Client
import FameZ.Reference.Views
import FameZ.Reference.Doorbell
import FameZ.Reference.Strays
import FameZ.Reference.ClientDescriptors
import FameZ.Reference.Interop
import FameZ.Reference.Launch
import FameZ.Reference.Sockets
import FameZ.Reference.Memory
