import Brunix.Basis.Loop
import Brunix.Basis.Thread
import Brunix.Basis.Memory
import Brunix.Basis.Numeral
import Brunix.Basis.Bits
import Brunix.Basis.Records
import Brunix.Basis.SplitRead
import Brunix.Basis.Rows
import Brunix.Basis.Program
import Brunix.Console.Vga
import Brunix.Console.Screen
import Brunix.Console.Races
import Brunix.Console.LineRaces
import Brunix.Console.Statements
import Brunix.Console.Preemption
import Brunix.Console.BranchVerdicts
import Brunix.Console.ScrollVerdicts
import Brunix.Console.Serialisation
import Brunix.Console.Terminal
import Brunix.Console.Refinement
import Brunix.Console.Invariant
import Brunix.Stdio.Strings
import Brunix.Stdio.Itoa
import Brunix.Stdio.Printk
import Brunix.Stdio.Numbers
import Brunix.Stdio.Formats
import Brunix.Stdio.Readable
import Brunix.Stdio.Screenful
import Brunix.Paging.Bitmap
import Brunix.Paging.Tables
import Brunix.Paging.Access
import Brunix.Paging.Enable
import Brunix.Segment.Gdt
import Brunix.Interrupt.Cpu
import Brunix.Interrupt.Stubs
import Brunix.Interrupt.Pic
import Brunix.Interrupt.Dispatch
import Brunix.Interrupt.Service
import Brunix.Timer.Clock
import Brunix.Timer.Pit
import Brunix.Kernel.Output
import Brunix.Kernel.PageFault
import Brunix.Kernel.Keyboard
import Brunix.Kernel.Machine
import Brunix.Kernel.Refinement
import Brunix.Kernel.Main
import Brunix.Kernel.Boot
import Brunix.Kernel.Typing
import Brunix.Kernel.Fault
