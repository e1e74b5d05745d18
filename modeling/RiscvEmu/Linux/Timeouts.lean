/-
Relative timeouts.

Four calls make a deadline out of the clock and a timeout that the guest gives: futex waits, `pselect6`, `nanosleep`
and `epoll_pwait`. Each first finds out whether it waits and until when (`TimedCall.prepare`) and then waits
(`TimedCall.run_eq`). The deadline should be the sum, or the last moment of the clock if that is earlier.

• `deadline_exact_iff`: it is, just if the sum is a time that the clock can show (or happens to wrap to the last one).
-/
import Mathlib.Data.BitVec
import RiscvEmu.Linux.Clock
import RiscvEmu.GuestMemoryFacts

namespace RiscvEmu.Linux

variable {now timeout : Int} {addr timeoutAddr : BitVec 64} {s s' : Sys}

open Jea9Linux Exec Call

/-! ## Machine integers -/

/-- the last moment of the clock -/
def lastNS : Int := 2 ^ 63 - 1

/-- the deadline of a timeout -/
def saturatedDeadline (now timeout : Int) : Int := min (now + timeout) lastNS

theorem int64_add_int64 (a b : Int) : int64 (a + int64 b) = int64 (a + b) := Int.add_bmod_bmod

theorem int64_int64_add (a b : Int) : int64 (int64 a + b) = int64 (a + b) := Int.bmod_add_bmod

theorem int64_cases (x : Int) :
    (x % 2 ^ 64 < 2 ^ 63 ∧ int64 x = x % 2 ^ 64) ∨ (2 ^ 63 ≤ x % 2 ^ 64 ∧ int64 x = x % 2 ^ 64 - 2 ^ 64) := by
  unfold int64
  rw [Int.bmod_def]
  split_ifs with h
  · exact .inl ⟨by omega, by omega⟩
  · exact .inr ⟨by omega, by omega⟩

/-- the sum is a time that the clock can show, or wraps to the last one -/
def Representable (now timeout : Int) : Prop := now + timeout < 2 ^ 63 ∨ (now + timeout) % 2 ^ 64 = 2 ^ 63 - 1

theorem int64_eq_saturated_iff (hnow : 0 ≤ now) (hpos : 0 < timeout) :
    int64 (now + timeout) = saturatedDeadline now timeout ↔ Representable now timeout := by
  unfold saturatedDeadline lastNS Representable
  have hcases := int64_cases (now + timeout)
  omega

theorem lt_saturatedDeadline (hnow : now ≤ 2 ^ 62) (hpos : 0 < timeout) : now < saturatedDeadline now timeout := by
  unfold saturatedDeadline lastNS
  omega

theorem Representable.int64_pos (h : Representable now timeout) (hnow : 0 ≤ now) (hle : now ≤ 2 ^ 62)
    (hpos : 0 < timeout) : 0 < int64 timeout := by
  unfold Representable at h
  have hcases := int64_cases timeout
  omega

/-! ## The calls -/

/-- a call with a relative timeout -/
inductive TimedCall where
  | futexWait (bitset : Bool) (addr val timeoutAddr : BitVec 64)
  | pselect6 (timeoutAddr : BitVec 64)
  | nanosleep (reqAddr : BitVec 64)
  | epollPwait (epfd eventsAddr maxEvents timeoutRaw : BitVec 64)
deriving DecidableEq, Repr

namespace TimedCall

variable (env : Env)

def run : TimedCall → Sys → NoteDisposition × Sys
  | .futexWait bitset addr val timeoutAddr => sysFutex env addr (if bitset then 9 else 0) val timeoutAddr
  | .pselect6 timeoutAddr => sysPselect6 env timeoutAddr
  | .nanosleep reqAddr => sysNanosleep env reqAddr
  | .epollPwait epfd eventsAddr maxEvents timeoutRaw => sysEpollPwait env epfd eventsAddr maxEvents timeoutRaw

/-- the first part of a call: the deadline, if there is one, or the value that is returned at once -/
def prepare : TimedCall → Call (Option Int)
  | .futexWait _ addr val timeoutAddr => fun s => futexPrepare env addr (val.setWidth 32) timeoutAddr s.ensureScheduler
  | .pselect6 timeoutAddr =>
    if timeoutAddr = 0 then Exec.fail 0
    else do
      let deadline ← timespecDeadline env timeoutAddr
      let now ← gets fun s => s.jos.monotonicNS
      failIf (deadline ≤ now) 0
      pure (some deadline)
  | .nanosleep reqAddr => do
    let advance ← sleepTime env reqAddr
    failIf (advance ≤ 0) 0
    let now ← gets fun s => s.jos.monotonicNS
    pure (some (int64 (now + advance)))
  | .epollPwait epfd eventsAddr maxEvents timeoutRaw => fun s =>
    match epollCollectReady env epfd eventsAddr maxEvents (s.drainExternalEvents env).ensureScheduler with
    | (.error errno, s) => (.error errno, s)
    | (.ok n, s) =>
      if n > 0 ∨ timeoutRaw = 0 then (.error (BitVec.ofNat 64 n), s)
      else (.ok (s.jos.epollDeadline env timeoutRaw).1, { s with jos := (s.jos.epollDeadline env timeoutRaw).2 })

/-- the call returns without waiting -/
def returns (v : BitVec 64) (s : Sys) : TimedCall → NoteDisposition × Sys
  | .futexWait .. | .epollPwait .. => s.returnSaved v
  | .pselect6 .. | .nanosleep .. => s.return v

/-- the clock goes towards the deadline; if it does not get there, the thread waits -/
def reachOrWait (w : Wait) (v : BitVec 64) (s : Sys) : NoteDisposition × Sys :=
  let r := s.jos.advanceToDeadline env w.deadline
  let s : Sys := { s with jos := r.2 }
  if r.1 then s.returnSaved v else (s.beginWait w).scheduleAfterCurrentBlocked env

/-- the second part of a call, with the deadline that was found -/
def waits (deadline : Option Int) (s : Sys) : TimedCall → NoteDisposition × Sys
  | .futexWait _ addr _ _ => reachOrWait env { kind := .futex, addr := addr, deadline := deadline } errETIMEDOUT s
  | .pselect6 _ => reachOrWait env { kind := .nanosleep, deadline := deadline } 0 s.ensureScheduler
  | .nanosleep _ =>
      (s.ensureScheduler.beginWait { kind := .nanosleep, deadline := deadline }).scheduleAfterCurrentBlocked env
  | .epollPwait epfd eventsAddr maxEvents _ =>
    reachOrWait env
      { kind := .epoll, deadline := deadline, fd := epfd, eventAddr := eventsAddr, maxEvents := maxEvents } 0 s

end TimedCall

theorem ensureScheduler_monotonicNS (s : Sys) : s.ensureScheduler.jos.monotonicNS = s.jos.monotonicNS := by
  unfold Sys.ensureScheduler Sys.mapJos ensureScheduler attachActiveEcallTrap
  dsimp only
  cases s.jos.contexts s.jos.currentTID with
  | none => split_ifs <;> rfl
  | some _ => split_ifs <;> rfl

theorem failIf_run (p : Prop) [Decidable p] (v : BitVec 64) (s : Sys) :
    failIf p v s = if p then (.error v, s) else (.ok (), s) := by
  unfold failIf when
  split_ifs <;> rfl

namespace TimedCall

variable (env : Env)

/-- **The two parts of a call.** -/
theorem run_eq (c : TimedCall) (s : Sys) : c.run env s =
    match c.prepare env s with
    | (.error v, s) => c.returns v s
    | (.ok deadline, s) => c.waits env deadline s := by
  cases c with
  | futexWait bitset addr val timeoutAddr =>
    have hop : (if bitset then (9 : BitVec 64) else 0) &&& 0xf = 0 ∨
        (if bitset then (9 : BitVec 64) else 0) &&& 0xf = 9 := by
      cases bitset <;> decide
    exact sysFutex_wait env hop s
  | pselect6 timeoutAddr =>
    show sysPselect6 env timeoutAddr s = _
    rw [sysPselect6, prepare]
    by_cases hnone : timeoutAddr = 0
    · rw [if_pos hnone, if_pos hnone]
      rfl
    · rw [if_neg hnone, if_neg hnone]
      rcases hdeadline : timespecDeadline env timeoutAddr s with ⟨errno | deadline, s'⟩
      · rw [bind_of_error hdeadline]
        rfl
      · rw [bind_of_ok hdeadline, gets_bind_run, bind_run, failIf_run]
        dsimp only
        by_cases hpast : deadline ≤ s'.jos.monotonicNS
        · rw [if_pos hpast, if_pos hpast]
          rfl
        · rw [if_neg hpast, if_neg hpast]
          rfl
  | nanosleep reqAddr =>
    show sysNanosleep env reqAddr s = _
    rw [sysNanosleep, prepare]
    rcases hadvance : sleepTime env reqAddr s with ⟨errno | advance, s'⟩
    · rw [bind_of_error hadvance]
      rfl
    · rw [bind_of_ok hadvance, bind_run, failIf_run]
      dsimp only
      rw [ensureScheduler_monotonicNS]
      split_ifs <;> rfl
  | epollPwait epfd eventsAddr maxEvents timeoutRaw =>
    show sysEpollPwait env epfd eventsAddr maxEvents timeoutRaw s = _
    rw [sysEpollPwait, prepare]
    dsimp only
    rcases epollCollectReady env epfd eventsAddr maxEvents
      (s.drainExternalEvents env).ensureScheduler with ⟨errno | n, s'⟩
    · rfl
    · dsimp only
      by_cases hready : n > 0 ∨ timeoutRaw = 0
      · rw [if_pos hready, if_pos hready]
        rfl
      · rw [if_neg hready, if_neg hready]
        rfl

end TimedCall

/-! ## The deadline -/

section Deadline

variable (env : Env)

/-- a timespec of `timeout` nanoseconds can be read at `addr`, in the state `s'` -/
def ReadsTimespec (addr : BitVec 64) (timeout : Int) (s s' : Sys) : Prop :=
  ∃ (sec nsec : BitVec 64) (s₁ : Sys),
    mem errEFAULT (GuestMemory.load64 addr) (s.mapJos fun jos => jos.syncRealClock env) = (.ok sec, s₁) ∧
      mem errEFAULT (GuestMemory.load64 (addr + 8)) s₁ = (.ok nsec, s') ∧
      0 ≤ sec.toInt ∧ 0 ≤ nsec.toInt ∧ nsec.toInt < 1000000000 ∧ timeout = sec.toInt * 1000000000 + nsec.toInt

variable {env}

theorem ReadsTimespec.deadline (h : ReadsTimespec env addr timeout s s') :
    timespecDeadline env addr s = (.ok (int64 (s'.jos.monotonicNS + timeout)), s') := by
  obtain ⟨sec, nsec, s₁, hsec, hnsec, hsec0, hnsec0, hnsec1, rfl⟩ := h
  have hok : ¬ (sec.toInt < 0 ∨ nsec.toInt < 0 ∨ nsec.toInt ≥ 1000000000) := by omega
  unfold timespecDeadline
  rw [modify_bind_run, bind_of_ok hsec, bind_of_ok hnsec, bind_run, failIf_run, if_neg hok]
  dsimp only
  rw [gets_bind_run, int64_add_int64, int64_int64_add, Int.add_assoc]
  rfl

theorem ReadsTimespec.sleep (h : ReadsTimespec env addr timeout s s')
    (hmode : s'.jos.nanosleepMode = .requested) : sleepTime env addr s = (.ok (int64 timeout), s') := by
  obtain ⟨sec, nsec, s₁, hsec, hnsec, hsec0, hnsec0, hnsec1, rfl⟩ := h
  have hok : ¬ (sec.toInt < 0 ∨ nsec.toInt < 0 ∨ nsec.toInt ≥ 1000000000) := by omega
  unfold sleepTime
  rw [modify_bind_run, bind_of_ok hsec, bind_of_ok hnsec, bind_run, failIf_run, if_neg hok]
  dsimp only
  rw [gets_bind_run, hmode, int64_int64_add]
  rfl

namespace TimedCall

variable (env)

/-- the call has a positive timeout of `timeout` nanoseconds and gets to it; `s'` is the state in which it reads the
clock -/
def Timeout (timeout : Int) (s s' : Sys) : TimedCall → Prop
  | .futexWait _ addr val timeoutAddr =>
    addr % 4 = 0 ∧ timeoutAddr ≠ 0 ∧ ∃ s₁,
      mem errEFAULT (GuestMemory.load32 addr) s.ensureScheduler = (.ok (val.setWidth 32), s₁) ∧
      ReadsTimespec env timeoutAddr timeout s₁ s' ∧ 0 < timeout
  | .pselect6 timeoutAddr => timeoutAddr ≠ 0 ∧ ReadsTimespec env timeoutAddr timeout s s' ∧ 0 < timeout
  | .nanosleep reqAddr => ReadsTimespec env reqAddr timeout s s' ∧ s'.jos.nanosleepMode = .requested ∧ 0 < timeout
  | .epollPwait epfd eventsAddr maxEvents timeoutRaw =>
    ∃ s₁, epollCollectReady env epfd eventsAddr maxEvents (s.drainExternalEvents env).ensureScheduler = (.ok 0, s₁) ∧
      s' = s₁.mapJos (fun jos => jos.syncRealClock env) ∧ 0 < timeoutRaw.toInt ∧ timeout = timeoutRaw.toInt * 1000000

/-- the call goes on with the deadline that the timeout asks for -/
def KeepsTimeout (timeout : Int) (s s' : Sys) (c : TimedCall) : Prop :=
  c.prepare env s = (.ok (some (saturatedDeadline s'.jos.monotonicNS timeout)), s')

variable {env}

/-- whether a deadline is the one that was asked for, if it is dropped when it is not ahead -/
theorem ahead_iff (hnow : 0 ≤ now) (hle : now ≤ 2 ^ 62) (hpos : 0 < timeout) :
    (¬ int64 (now + timeout) ≤ now ∧ int64 (now + timeout) = saturatedDeadline now timeout) ↔
      Representable now timeout := by
  rw [int64_eq_saturated_iff hnow hpos]
  refine ⟨fun h => h.2, fun h => ⟨?_, h⟩⟩
  rw [(int64_eq_saturated_iff hnow hpos).mpr h, Int.not_le]
  exact lt_saturatedDeadline hle hpos

theorem futexWait_prepare {bitset : Bool} {val : BitVec 64}
    (h : (TimedCall.futexWait bitset addr val timeoutAddr).Timeout env timeout s s') :
    prepare env (.futexWait bitset addr val timeoutAddr) s =
      if int64 (s'.jos.monotonicNS + timeout) ≤ s'.jos.monotonicNS then (.error errETIMEDOUT, s')
      else (.ok (some (int64 (s'.jos.monotonicNS + timeout))), s') := by
  obtain ⟨haligned, hsome, s₁, hword, hread, -⟩ := h
  have hdeadline : futexDeadline env timeoutAddr s₁ = (.ok (some (int64 (s'.jos.monotonicNS + timeout))), s') := by
    unfold futexDeadline
    rw [if_neg hsome]
    show (timespecDeadline env timeoutAddr >>= fun d => pure (some d)) s₁ = _
    rw [bind_of_ok hread.deadline]
    rfl
  show futexPrepare env addr (val.setWidth 32) timeoutAddr s.ensureScheduler = _
  unfold futexPrepare
  rw [bind_run, failIf_run, if_neg (not_not_intro haligned)]
  dsimp only
  rw [bind_of_ok hword, bind_run, failIf_run, if_neg (not_not_intro rfl)]
  dsimp only
  rw [bind_of_ok hdeadline, gets_bind_run, bind_run, failIf_run]
  simp only [Option.isSome_some, Option.getD_some, true_and]
  split_ifs <;> rfl

theorem pselect6_prepare
    (h : (TimedCall.pselect6 timeoutAddr).Timeout env timeout s s') :
    prepare env (.pselect6 timeoutAddr) s =
      if int64 (s'.jos.monotonicNS + timeout) ≤ s'.jos.monotonicNS then (.error 0, s')
      else (.ok (some (int64 (s'.jos.monotonicNS + timeout))), s') := by
  obtain ⟨hsome, hread, -⟩ := h
  rw [prepare, if_neg hsome, bind_of_ok hread.deadline, gets_bind_run, bind_run, failIf_run]
  split_ifs <;> rfl

theorem nanosleep_prepare {reqAddr : BitVec 64}
    (h : (TimedCall.nanosleep reqAddr).Timeout env timeout s s') :
    prepare env (.nanosleep reqAddr) s =
      if int64 timeout ≤ 0 then (.error 0, s') else (.ok (some (int64 (s'.jos.monotonicNS + timeout))), s') := by
  obtain ⟨hread, hmode, -⟩ := h
  rw [prepare, bind_of_ok (hread.sleep hmode), bind_run, failIf_run]
  split_ifs
  · rfl
  · dsimp only
    rw [gets_bind_run, int64_add_int64]
    rfl

theorem epollPwait_prepare {epfd eventsAddr maxEvents timeoutRaw : BitVec 64}
    (h : (TimedCall.epollPwait epfd eventsAddr maxEvents timeoutRaw).Timeout env timeout s s') :
    prepare env (.epollPwait epfd eventsAddr maxEvents timeoutRaw) s =
      (.ok (some (int64 (s'.jos.monotonicNS + timeout))), s') := by
  obtain ⟨s₁, hready, rfl, hpos, rfl⟩ := h
  have hraw : ¬ (0 > 0 ∨ timeoutRaw = 0) := by
    rintro (h | rfl)
    · exact absurd h (Nat.lt_irrefl 0)
    · exact absurd hpos (by decide)
  rw [prepare]
  dsimp only
  rw [hready]
  dsimp only
  rw [if_neg hraw]
  unfold epollDeadline
  dsimp only
  rw [if_neg (by omega), int64_add_int64]
  rfl

end TimedCall

end Deadline

/-- **Timeouts never shrink, just if the sum is representable.** For every call with a positive timeout and every clock
from 0 to 2^62. -/
theorem deadline_exact_iff (env : Env) (c : TimedCall) {timeout : Int} {s s' : Sys} (h : c.Timeout env timeout s s')
    (hnow : 0 ≤ s'.jos.monotonicNS) (hle : s'.jos.monotonicNS ≤ 2 ^ 62) :
    c.KeepsTimeout env timeout s s' ↔ Representable s'.jos.monotonicNS timeout := by
  unfold TimedCall.KeepsTimeout
  cases c with
  | futexWait bitset addr val timeoutAddr =>
    obtain ⟨-, -, -, -, -, hpos⟩ := id h
    rw [TimedCall.futexWait_prepare h, ← TimedCall.ahead_iff hnow hle hpos]
    split_ifs with hpast
    · simp [hpast]
    · simp [hpast]
  | pselect6 timeoutAddr =>
    obtain ⟨-, -, hpos⟩ := id h
    rw [TimedCall.pselect6_prepare h, ← TimedCall.ahead_iff hnow hle hpos]
    split_ifs with hpast
    · simp [hpast]
    · simp [hpast]
  | nanosleep reqAddr =>
    obtain ⟨-, -, hpos⟩ := id h
    rw [TimedCall.nanosleep_prepare h, ← int64_eq_saturated_iff hnow hpos]
    split_ifs with hneg
    · refine iff_of_false (by simp) fun heq => ?_
      exact absurd (((int64_eq_saturated_iff hnow hpos).mp heq).int64_pos hnow hle hpos) (Int.not_lt.mpr hneg)
    · simp
  | epollPwait epfd eventsAddr maxEvents timeoutRaw =>
    obtain ⟨-, -, -, hraw, htimeout⟩ := id h
    rw [TimedCall.epollPwait_prepare h, ← int64_eq_saturated_iff hnow (by omega)]
    simp

/-- a guest in virtual time that has the timespec at 0x2000 -/
def napping (sec nsec : BitVec 64) : Sys := (runActs [.store 0x2000 sec, .store 0x2008 nsec] smallBoot).2

theorem load64_of_readLe {m : GuestMemory} {v : BitVec 64} (hmmio : m.mmio = none)
    (hfault : m.accessFault addr 8 .load = none)
    (hread : m.bytes.readLe (m.hostPtr addr) 8 = v) : GuestMemory.load64 addr m = (.ok v, m) := by
  unfold GuestMemory.load64
  rw [GuestMemory.load_noMmio hmmio, hfault, ← hread]
  rfl

theorem ReadsTimespec.of_load64 {env : Env} (sec nsec : BitVec 64) (hhermit : s.jos.timeMode = .hermitTime)
    (hsec : GuestMemory.load64 addr s.cpu.mem = (.ok sec, s.cpu.mem))
    (hnsec : GuestMemory.load64 (addr + 8) s.cpu.mem = (.ok nsec, s.cpu.mem))
    (hok : 0 ≤ sec.toInt ∧ 0 ≤ nsec.toInt ∧ nsec.toInt < 1000000000) :
    ReadsTimespec env addr (sec.toInt * 1000000000 + nsec.toInt) s s := by
  have hsync : s.jos.syncRealClock env = s.jos := by
    unfold syncRealClock
    rw [hhermit]
  refine ⟨sec, nsec, s, ?_, ?_, hok.1, hok.2.1, hok.2.2, rfl⟩
  · unfold Sys.mapJos
    dsimp only
    rw [hsync, mem, hsec]
  · rw [mem, hnsec]

/-- a nap of 100 ns ends 100 ns from now -/
theorem nap_100 : (TimedCall.nanosleep 0x2000).KeepsTimeout quietEnv 100 (napping 0 100) (napping 0 100) := by
  have hread : ReadsTimespec quietEnv 0x2000 100 (napping 0 100) (napping 0 100) :=
    .of_load64 0 100 (by decide +kernel) (load64_of_readLe rfl (by decide +kernel) (by decide +kernel))
      (load64_of_readLe rfl (by decide +kernel) (by decide +kernel)) (by decide)
  have hclock : (napping 0 100).jos.monotonicNS = 0 := by decide +kernel
  have htimeout : (TimedCall.nanosleep 0x2000).Timeout quietEnv 100 (napping 0 100) (napping 0 100) :=
    ⟨hread, by decide +kernel, by decide⟩
  refine (deadline_exact_iff quietEnv _ htimeout ?_ ?_).mpr (.inl ?_)
  · rw [hclock]
  · rw [hclock]
    decide
  · rw [hclock]
    decide

/-- a nap of 2^34 seconds ends at once -/
theorem long_nap_returns :
    (TimedCall.nanosleep 0x2000).Timeout quietEnv (2 ^ 34 * 1000000000) (napping (2 ^ 34) 0) (napping (2 ^ 34) 0) ∧
    (napping (2 ^ 34) 0).jos.monotonicNS = 0 ∧
    ((TimedCall.nanosleep 0x2000).prepare quietEnv (napping (2 ^ 34) 0)).1 = .error 0 ∧
    ¬ (TimedCall.nanosleep 0x2000).KeepsTimeout quietEnv (2 ^ 34 * 1000000000) (napping (2 ^ 34) 0)
    (napping (2 ^ 34) 0) := by
  have hread : ReadsTimespec quietEnv 0x2000 (2 ^ 34 * 1000000000) (napping (2 ^ 34) 0) (napping (2 ^ 34) 0) :=
    .of_load64 (2 ^ 34) 0 (by decide +kernel) (load64_of_readLe rfl (by decide +kernel) (by decide +kernel))
      (load64_of_readLe rfl (by decide +kernel) (by decide +kernel)) (by decide)
  have hmode : (napping (2 ^ 34) 0).jos.nanosleepMode = .requested := by decide +kernel
  have hreturns :
      (TimedCall.nanosleep 0x2000).prepare quietEnv (napping (2 ^ 34) 0) = (.error 0, napping (2 ^ 34) 0) := by
    rw [TimedCall.nanosleep_prepare ⟨hread, hmode, by decide⟩, if_pos (by decide)]
  refine ⟨⟨hread, hmode, by decide⟩, by decide +kernel, by rw [hreturns], fun hkeeps => ?_⟩
  rw [TimedCall.KeepsTimeout, hreturns] at hkeeps
  cases hkeeps

end RiscvEmu.Linux
