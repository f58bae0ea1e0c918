import LinuxLikeOS.Transition
import LinuxLikeOS.StackForest
import LinuxLikeOS.BitField
import LinuxLikeOS.CLib
import LinuxLikeOS.FileSys
import LinuxLikeOS.Page
import LinuxLikeOS.Kernel
import LinuxLikeOS.Console
import LinuxLikeOS.Syscalls
import LinuxLikeOS.Scheduler
import LinuxLikeOS.Machine
import LinuxLikeOS.Frames
import LinuxLikeOS.Drawing
import LinuxLikeOS.Effects
import LinuxLikeOS.Start
import LinuxLikeOS.Processes
import LinuxLikeOS.PageSafety
import LinuxLikeOS.Agreement
import LinuxLikeOS.VideoMap
import LinuxLikeOS.Calls
import LinuxLikeOS.Descriptors
import LinuxLikeOS.Arguments
import LinuxLikeOS.Nesting
import LinuxLikeOS.Directory
import LinuxLikeOS.Replay
import LinuxLikeOS.Lines
import LinuxLikeOS.Keys
import LinuxLikeOS.Independence
import LinuxLikeOS.BlockCursor
import LinuxLikeOS.FileData
import LinuxLikeOS.Lookup
import LinuxLikeOS.Commands
import LinuxLikeOS.Programs
import LinuxLikeOS.Slots
import LinuxLikeOS.FileOps
import LinuxLikeOS.Tables
import LinuxLikeOS.Countdown
import LinuxLikeOS.Clock
import LinuxLikeOS.Reads
import LinuxLikeOS.Dispatch
import LinuxLikeOS.LineEdit
import LinuxLikeOS.LineInput
import LinuxLikeOS.Cursor
import LinuxLikeOS.GetArgs
import LinuxLikeOS.FileReads
import LinuxLikeOS.Loader
import LinuxLikeOS.Reversal
import LinuxLikeOS.Numbers
import LinuxLikeOS.Keyboard
import LinuxLikeOS.LineRead
import LinuxLikeOS.Printf
import LinuxLikeOS.Echo
import LinuxLikeOS.Ia32
import LinuxLikeOS.MemOps
import LinuxLikeOS.Copies
import LinuxLikeOS.TextLayout
import LinuxLikeOS.Sheets
import LinuxLikeOS.Typewriters
import LinuxLikeOS.Consoles
import LinuxLikeOS.Streams
import LinuxLikeOS.Preemption
import LinuxLikeOS.CallStack
import LinuxLikeOS.Linkage
import LinuxLikeOS.UserMemory
import LinuxLikeOS.ScanLines
import LinuxLikeOS.Gates
import LinuxLikeOS.Pic8259
import LinuxLikeOS.Interrupts
import LinuxLikeOS.TextLines
import LinuxLikeOS.Support
import LinuxLikeOS.Grep
import LinuxLikeOS.Utilities
import LinuxLikeOS.Shell
import LinuxLikeOS.Faults
import LinuxLikeOS.Moments
import LinuxLikeOS.Interleavings
import LinuxLikeOS.Returns
import LinuxLikeOS.Progress
import LinuxLikeOS.Records
import LinuxLikeOS.Image
import LinuxLikeOS.Interactive
import LinuxLikeOS.ErrorTests
import LinuxLikeOS.Fish
