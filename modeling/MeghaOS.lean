import MeghaOS.Boot
import MeghaOS.Proof.Handle
import MeghaOS.Proof.Rights
import MeghaOS.Proof.PmmInit
import MeghaOS.Proof.Vmm
import MeghaOS.Proof.Boot
import MeghaOS.Proof.VmmRun
import MeghaOS.Proof.Booted
import MeghaOS.Proof.Records
import MeghaOS.Proof.GBooted
import MeghaOS.Proof.Windows
import MeghaOS.Main
import MeghaOS.Proof.Grid
import MeghaOS.Proof.WindowHandles
import MeghaOS.Proof.Processes
import MeghaOS.Proof.Kill
import MeghaOS.Proof.Exit
import MeghaOS.Proof.FreeMemory
import MeghaOS.CmMalloc
import MeghaOS.Proof.Malloc
import MeghaOS.Printk
import MeghaOS.Proof.Printk
import MeghaOS.Proof.Vsnprintf
import MeghaOS.Messages
import MeghaOS.Proof.Messages
import MeghaOS.Vgatext
import MeghaOS.Proof.Vgatext
import MeghaOS.Proof.Slots
import MeghaOS.Proof.Reentry
import MeghaOS.Proof.PartialMap
import MeghaOS.Proof.Schedule
import MeghaOS.Proof.Create
import MeghaOS.Proof.Link
import MeghaOS.Proof.Live
import MeghaOS.Proof.Dispatch
import MeghaOS.Lib.RoundRobin
import MeghaOS.Proof.LiveStep
import MeghaOS.Proof.Hierarchy
import MeghaOS.Proof.Pids
import MeghaOS.Proof.YieldLoop
import MeghaOS.Proof.Memmap
import MeghaOS.Proof.FindFree
import MeghaOS.Events
import MeghaOS.Proof.Events
import MeghaOS.Proof.WindowFailure
import MeghaOS.Proof.FreePages
import MeghaOS.Proof.FreeAddress
import MeghaOS.Proof.CommitPage
import MeghaOS.Lib.Watch
import MeghaOS.Proof.Watched
import MeghaOS.Proof.PmmExact
import MeghaOS.Lib.Copy
import MeghaOS.Memory
import MeghaOS.Proof.Memory
import MeghaOS.Lib.Terminal
import MeghaOS.Proof.Terminal
import MeghaOS.PageWalk
import MeghaOS.Proof.PageWalk
import MeghaOS.PhyMem
import MeghaOS.Proof.PhyMem
import MeghaOS.Proof.Sections
import MeghaOS.Proof.Rounds
import MeghaOS.Lib.Loop
import MeghaOS.Proof.MapRange
import MeghaOS.Gdt
import MeghaOS.Proof.Gdt
import MeghaOS.Delay
import MeghaOS.Proof.Delay
import MeghaOS.Lib.Written
import MeghaOS.BootFile
import MeghaOS.Proof.BootFile
import MeghaOS.Lib.Blocks
import MeghaOS.Blit
import MeghaOS.Proof.Blit
import MeghaOS.Decorations
import MeghaOS.Proof.Decorations
import MeghaOS.Proof.Share
import MeghaOS.Lib.Fat12
import MeghaOS.LoadFile
import MeghaOS.Proof.LoadFile
import MeghaOS.Proof.CommitRange
import MeghaOS.Proof.Stack
import MeghaOS.Lib.Numeral
import MeghaOS.Itoa
import MeghaOS.Proof.Itoa
import MeghaOS.Lib.Rings
import MeghaOS.IntrusiveQueue
import MeghaOS.Proof.IntrusiveQueue
import MeghaOS.Salloc
import MeghaOS.Proof.Salloc
import MeghaOS.Lib.X86
import MeghaOS.Stubs
import MeghaOS.Proof.Stubs
import MeghaOS.Proof.Syscalls
import MeghaOS.Proof.Resume
import MeghaOS.Proof.Delivery
import MeghaOS.Lib.Port
import MeghaOS.Lib.Pic8259
import MeghaOS.Pic
import MeghaOS.Ps2
import MeghaOS.Proof.Pic
import MeghaOS.Proof.Mouse
import MeghaOS.Proof.Ps2
import MeghaOS.Proof.Gates
