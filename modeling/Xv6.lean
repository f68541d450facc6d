import Xv6.Lib.Table
import Xv6.Lib.CInt
import Xv6.Lib.Reach
import Xv6.Lib.Crash
import Xv6.Process.Basic
import Xv6.Process.Ops
import Xv6.Process.Step
import Xv6.Process.Sleep
import Xv6.Process.Sched
import Xv6.Process.Lemmas.Frame
import Xv6.Process.Lemmas.Tree
import Xv6.Process.Lemmas.Boot
import Xv6.Process.Lemmas.NsInv
import Xv6.Process.Lemmas.Safety
import Xv6.Process.Lemmas.Exit
import Xv6.Process.Lemmas.Pids
import Xv6.Process.Lemmas.Cycle
import Xv6.Process.Lemmas.Names
import Xv6.Process.Lemmas.Reclaim
import Xv6.Process.Lemmas.Wakeup
import Xv6.Process.Lemmas.Sched
import Xv6.Process.Theorems
import Xv6.Log.Basic
import Xv6.Log.Crash
import Xv6.Lib.DList
import Xv6.Bio.Basic
import Xv6.Bio.Cache
import Xv6.Lib.Bits
import Xv6.Lib.Owner
import Xv6.Fs.Basic
import Xv6.Fs.Bitmap
import Xv6.Fs.Blocks
import Xv6.Fs.Ownership
import Xv6.Lib.Memory
import Xv6.Lib.FreeList
import Xv6.Kalloc.Basic
import Xv6.Kalloc.Pages
import Xv6.Dir.Basic
import Xv6.Dir.Syscall
import Xv6.Dir.Lemmas
import Xv6.Dir.Spec
import Xv6.Dir.Wrap
import Xv6.Dir.Path
import Xv6.Lib.Ring
import Xv6.Virtio.Basic
import Xv6.Virtio.Lemmas
import Xv6.Virtio.Inv
import Xv6.Virtio.Theorems
import Xv6.Lib.Count
import Xv6.Ftable.Basic
import Xv6.Ftable.Lemmas
import Xv6.Ftable.Acct
import Xv6.Ftable.Inv
import Xv6.Ftable.Steps
import Xv6.Ftable.Theorems
import Xv6.Lib.Pattern
import Xv6.Str.Strchr
import Xv6.Grep.Basic
import Xv6.Grep.Spec
import Xv6.Grep.Loop
import Xv6.Sh.Lex
import Xv6.Sh.Parse
import Xv6.Sh.Grammar
import Xv6.Sh.Theorems
import Xv6.Itable.Basic
import Xv6.Itable.Inv
import Xv6.Itable.Theorems
import Xv6.Pipes.Basic
import Xv6.Pipes.Theorems
import Xv6.Console.Basic
import Xv6.Console.Theorems
import Xv6.Process.Lemmas.PsList
import Xv6.Times.Basic
import Xv6.Times.Theorems
import Xv6.Vm.Basic
import Xv6.Vm.Copy
import Xv6.Umalloc.Basic
import Xv6.Umalloc.Theorems
import Xv6.Lib.Radix
import Xv6.Vm.Table
import Xv6.Vm.Map
import Xv6.Vm.Refine
import Xv6.Fs.Content
import Xv6.Fs.ReadWrite
import Xv6.Fs.Mapped
import Xv6.Lib.Copy
import Xv6.Str.Memmove
import Xv6.Ftable.Io
import Xv6.Spinlock.Basic
import Xv6.Spinlock.Theorems
import Xv6.Lib.Frame
import Xv6.Vm.Uvm
import Xv6.Vm.Own
import Xv6.Vm.Unmap
import Xv6.Vm.Grow
import Xv6.Vm.Free
import Xv6.Vm.Proc
import Xv6.Vm.Fork
