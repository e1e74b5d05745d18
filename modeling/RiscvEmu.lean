import RiscvEmu.Cached.Rvc
import RiscvEmu.Cached.Word
import RiscvEmu.Machine.Delivery
import RiscvEmu.Machine.Timer
import RiscvEmu.Machine.Told
import RiscvEmu.Machine.Isolation
import RiscvEmu.Machine.Privilege
import RiscvEmu.Cached.Count
import RiscvEmu.Cached.Current
import RiscvEmu.Board.Line
import RiscvEmu.Board.Inject
import RiscvEmu.Linux.Undelivered
import RiscvEmu.Linux.Monotone
import RiscvEmu.Cpu.Physical
import RiscvEmu.Elf.Aot
import RiscvEmu.Elf.Image
import RiscvEmu.Jit.RegAlloc
import RiscvEmu.Linux.Mmap
import RiscvEmu.Linux.PipeFifo
import RiscvEmu.Linux.Uniform
import RiscvEmu.Linux.Random
import RiscvEmu.Board.Clint
import RiscvEmu.Jit.DecoderCache
