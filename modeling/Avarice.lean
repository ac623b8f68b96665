import Avarice.Mk2.Breakpoint.Operations
import Avarice.Library.Transition
import Avarice.Mk2.Breakpoint.Placement
import Avarice.Mk2.Breakpoint.Room
import Avarice.Mk2.Breakpoint.LayoutSpec
import Avarice.Mk2.Breakpoint.Update
import Avarice.Mk2.Breakpoint.Consistency
import Avarice.Mk2.Breakpoint.Requests
import Avarice.Mk2.Breakpoint.UpdateSpec
import Avarice.Mk2.Breakpoint.Agreement
import Avarice.Mk2.Breakpoint.Ranges
import Avarice.AddressSpace
import Avarice.Mk1.Breakpoint
import Avarice.Mk1.Agreement
import Avarice.Mk1.Memory
import Avarice.Mk1.RoundTrip
import Avarice.Crc16
import Avarice.Mk2.Frame
import Avarice.Mk2.FrameGrammar
import Avarice.Mk2.FrameReceiver
import Avarice.Mk2.FrameRoundTrip
import Avarice.Library.StopAndWait
import Avarice.Mk2.Exchange
import Avarice.Library.Retry
import Avarice.Mk2.Attempts
import Avarice.Mk2.Protocol
import Avarice.Mk2.Events
import Avarice.Mk2.EventDelivery
import Avarice.Library.Fields
import Avarice.Library.Runs
import Avarice.Mk2.EventList
import Avarice.Library.PagedMemory
import Avarice.Devices
import Avarice.Mk2.Memory
import Avarice.Library.Throwing
import Avarice.Mk2.Access
import Avarice.Mk2.SpaceDecoding
import Avarice.Mk2.CacheBounds
import Avarice.Mk2.ProgrammingMode
import Avarice.Mk2.PageCache
import Avarice.Gdb.Hex
import Avarice.Gdb.ProgramWrite
import Avarice.Gdb.IoRegisters
import Avarice.Gdb.IoRegisterReply
import Avarice.Image.Create
import Avarice.Image.Programming
import Avarice.Image.Bounds
import Avarice.Image.Passes
import Avarice.Gdb.PacketWriter
import Avarice.Gdb.PacketReader
import Avarice.Gdb.PacketGrammar
import Avarice.CrcBurst
import Avarice.Mk2.PagedRead
import Avarice.Mk2.Breakpoint.DataTurn
import Avarice.Mk2.Breakpoint.PairLayout
import Avarice.Mk2.Breakpoint.Assignment
import Avarice.Mk2.Breakpoint.Recovery
import Avarice.Mk2.Breakpoint.RangeLayout
import Avarice.Mk2.Breakpoint.Outcome
import Avarice.Mk2.Breakpoint.Reached
import Avarice.Mk2.Breakpoint.FailedAdd
import Avarice.Mk2.Breakpoint.RangeSlots
import Avarice.Mk2.Breakpoint.RangeEntry
import Avarice.Mk2.Breakpoint.RangePairs
import Avarice.Mk2.Breakpoint.AddAnswer
import Avarice.Mk2.Breakpoint.Withdrawal
import Avarice.Mk2.Breakpoint.DeleteUndoes
import Avarice.FlashReads
import Avarice.Library.Blocks
import Avarice.Usb.Daemon
import Avarice.Library.Lines
import Avarice.Tcp.Client
import Avarice.Library.CString
import Avarice.Usb.Selection
import Avarice.Library.Handles
import Avarice.Dwarf.Release
import Avarice.Script.Lines
import Avarice.Script.Nodes
import Avarice.Gdb.ReplyBuffer
import Avarice.Library.Checked
import Avarice.Mk2.Breakpoint.Checked
import Avarice.Mk2.Breakpoint.Bounds
import Avarice.Gdb.Interrupt
import Avarice.Mk2.Breakpoint.SingleBytes
import Avarice.Gdb.TemporaryBreakpoints
import Avarice.Gdb.Registers
import Avarice.Mk1.Registers
import Avarice.Mk2.Registers
import Avarice.Gdb.RegisterViews
import Avarice.CrcBitwise
import Avarice.Library.TreeSearch
import Avarice.Script.Offsets
import Avarice.TimeoutRead
import Avarice.Mk1.Commands
import Avarice.Library.Repetition
import Avarice.Mk1.LossyLine
import Avarice.Library.Serving
import Avarice.Library.Storage
import Avarice.Gdb.DataMemory
import Avarice.Mk1.LossyMemory
import Avarice.Gdb.Connection
import Avarice.Gdb.Handler
import Avarice.Gdb.StoredReplies
import Avarice.Gdb.DataPackets
import Avarice.Mk2.CommandEffects
import Avarice.Library.Exclusion
import Avarice.Threads.Lock
import Avarice.Threads.Queue
import Avarice.Script.Mirror
import Avarice.Library.Bag
import Avarice.Gdb.Sessions
import Avarice.Mk1.BreakpointBag
import Avarice.Gdb.BreakpointPackets
import Avarice.Mk2.LossyLine
import Avarice.Mk2.LossyMemory
import Avarice.Script.Repl
import Avarice.Programming.Chip
import Avarice.Programming.Fuses
import Avarice.Programming.Download
import Avarice.Programming.Reliable
import Avarice.Programming.Session
import Avarice.Mk1.Programming
import Avarice.Mk1.LossyProgramming
import Avarice.Mk1.OnChipDebugging
import Avarice.Mk2.Programming
import Avarice.Mk2.LossyProgramming
import Avarice.Mk2.MemoryAgreement
