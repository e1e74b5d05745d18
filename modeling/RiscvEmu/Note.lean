/-
Notes (`note.go`): how an error of the interpreter is told to the host.

A note chain is a list of handlers, the most recently pushed one first; a handler is a function of the hart and the
note. A chain that nobody answers is fatal.
-/
import RiscvEmu.Cpu.StepRvc

namespace RiscvEmu

def causeInsnAddrMisalign : BitVec 64 := 0
def causeInsnFault : BitVec 64 := 1
def causeLoadMisalign : BitVec 64 := 4
def causeLoadFault : BitVec 64 := 5
def causeMisalignStore : BitVec 64 := 6
def causeStoreFault : BitVec 64 := 7
def causeInsnPageFault : BitVec 64 := 12
def causeLoadPageFault : BitVec 64 := 13
def causeStorePageFault : BitVec 64 := 15

/-- a guest exception as the handlers see it -/
structure Note where
  text : String
  cause : BitVec 64
  tval : BitVec 64
  pc : BitVec 64
  insnLen : BitVec 8
deriving DecidableEq, Repr

/-- `fault: <what> addr=0x%016X width=%d` -/
def faultText (what : String) (f : MemFault) : String :=
  "fault: " ++ what ++ " addr=0x" ++ f.addr.toHex.toUpper ++ " width=" ++ toString f.width.toNat

/-- the cause and the text of a memory fault; misalignment and sandbox escapes are told as
misaligned loads -/
def faultCauseAndText (f : MemFault) : BitVec 64 × String :=
  match f.kind with
  | .load => (causeLoadFault, faultText "load" f)
  | .store => (causeStoreFault, faultText "store" f)
  | .fetch => (causeInsnFault, faultText "fetch" f)
  | .pageLoad => (causeLoadPageFault, faultText "page-load" f)
  | .pageStore => (causeStorePageFault, faultText "page-store" f)
  | .pageFetch => (causeInsnPageFault, faultText "page-fetch" f)
  | .misalign | .sandboxEscape => (causeLoadMisalign, faultText "misalign" f)

/-- the note of a step error, with the cause and length that the trap has noted -/
def noteFromStepErrWithTrap (err : StepError) (pc trapCause : BitVec 64) (trapInsnLen : BitVec 8) : Note :=
  let insnLen := if trapInsnLen = 0 then 4 else trapInsnLen
  match err with
  | .memFault f =>
    { text := (faultCauseAndText f).2, cause := (faultCauseAndText f).1, tval := f.addr, pc := pc, insnLen := 0 }
  | .ebreak => { text := "breakpoint", cause := causeBreakpoint, tval := 0, pc := pc, insnLen := insnLen }
  | .ecall =>
    let cause := if trapCause ≠ causeEcallU ∧ trapCause ≠ causeEcallS ∧ trapCause ≠ causeEcallM then causeEcallU
      else trapCause
    { text := "ecall", cause := cause, tval := 0, pc := pc, insnLen := insnLen }
  | .illegalInstruction =>
    { text := "illegal instruction", cause := causeIllegalInsn, tval := 0, pc := pc, insnLen := 0 }

def noteFromCPUError (c : Cpu) (err : StepError) : Note :=
  noteFromStepErrWithTrap err c.pc c.lastTrapCause c.lastTrapInsnLen

inductive NoteDisposition
  | handled | forward | fatal | exit
deriving DecidableEq, Repr

/-- a handler may change the hart -/
abbrev NoteHandler := Cpu → Note → NoteDisposition × Cpu

/-- the handlers, innermost first -/
abbrev NoteChain := List NoteHandler

/-- ask the handlers one after the other until one does not forward the note -/
def NoteChain.deliver : NoteChain → Cpu → Note → NoteDisposition × Cpu
  | [], c, _ => (.fatal, c)
  | h :: rest, c, n =>
    match h c n with
    | (.forward, c') => NoteChain.deliver rest c' n
    | r => r

inductive RunError
  | step (err : StepError)
  /-- `ExitError` with its code -/
  | exited (code : BitVec 64)
deriving DecidableEq, Repr

/-- what a budgeted run loop reports -/
inductive RunBudgetResult
  | continue_ | expired | exit
deriving DecidableEq, Repr

end RiscvEmu
