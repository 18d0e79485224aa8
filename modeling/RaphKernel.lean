import RaphKernel.Task.RunLoop
import RaphKernel.Task.CalloutRace
import RaphKernel.Ptr.SptrRun
import RaphKernel.Mem.PhysmemReserve
import RaphKernel.Mem.KernelStack
import RaphKernel.Mem.Sbrk
import RaphKernel.Loader.ElfLoad
import RaphKernel.Mem.PhysmemNodes
import RaphKernel.Mem.PagingLinear
import RaphKernel.Mem.PagingRefine
import RaphKernel.Cpu.CpuCtrl
import RaphKernel.Sync.Interrupts
import RaphKernel.Task.Wakeup
import RaphKernel.Task.Countable
import RaphKernel.Task.Functional
import RaphKernel.Task.Polling
import RaphKernel.Task.RegisterRun
import RaphKernel.Ptr.AssignGraph
import RaphKernel.Dev.Ramdisk
import RaphKernel.Fs.InodeCtrl
import RaphKernel.Loader.Ring0
import RaphKernel.Fs.MkfsAbsent
import RaphKernel.Task.CalloutWrap
import RaphKernel.Net.ArpTable
import RaphKernel.Net.ZeroChecksum
import RaphKernel.Net.SendBounds
import RaphKernel.Net.ReceiveSafety
import RaphKernel.Dev.PciInterruptRun
import RaphKernel.Cpu.ApicSetup
import RaphKernel.Dev.Hpet
import RaphKernel.Net.ParseIpaddr
import RaphKernel.Libc.Strtoul
import RaphKernel.Shell.Exec
import RaphKernel.Shell.LoadScript
import RaphKernel.Tty.Format
import RaphKernel.Tty.Strings
import RaphKernel.Dev.Usb
import RaphKernel.Dev.UhciTransfer
import RaphKernel.Dev.UsbSchedule
import RaphKernel.Libc.Strncmp
import RaphKernel.Font
import RaphKernel.Net.Ipv4
import RaphKernel.Dev.Keyboard
import RaphKernel.Net.ProtocolStack
import RaphKernel.Mem.AllocatorChain
import RaphKernel.Cpu.AcpiOs
import RaphKernel.Net.ArpRecords
import RaphKernel.Dev.Ehci
import RaphKernel.Net.UdpSocket
