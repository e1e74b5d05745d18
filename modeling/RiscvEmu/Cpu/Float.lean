/-
Floating point (`float.go`): bit patterns, NaN boxing, classification and the conversions to integers.

The arithmetic itself is the host's. `HostFP` collects what the source takes from the host and from Go's own float
types, on bit patterns and with the rounding mode in force; the exception flags it reports have the five bits of
`fflags`.
-/
import RiscvEmu.Cpu.State

namespace RiscvEmu

def rmRNE : BitVec 3 := 0
def rmRTZ : BitVec 3 := 1
def rmRDN : BitVec 3 := 2
def rmRUP : BitVec 3 := 3
def rmRMM : BitVec 3 := 4
def rmDYN : BitVec 3 := 7

def fflagNV : BitVec 32 := 1#32 <<< 4
def fflagNX : BitVec 32 := 1

/-- the host operations of one format, under a rounding mode -/
structure FloatOps (w : Nat) where
  add : BitVec 3 → BitVec w → BitVec w → BitVec w × BitVec 5
  sub : BitVec 3 → BitVec w → BitVec w → BitVec w × BitVec 5
  mul : BitVec 3 → BitVec w → BitVec w → BitVec w × BitVec 5
  div : BitVec 3 → BitVec w → BitVec w → BitVec w × BitVec 5
  sqrt : BitVec 3 → BitVec w → BitVec w × BitVec 5
  mAdd : BitVec 3 → BitVec w → BitVec w → BitVec w → BitVec w × BitVec 5
  mSub : BitVec 3 → BitVec w → BitVec w → BitVec w → BitVec w × BitVec 5
  nmSub : BitVec 3 → BitVec w → BitVec w → BitVec w → BitVec w × BitVec 5
  nmAdd : BitVec 3 → BitVec w → BitVec w → BitVec w → BitVec w × BitVec 5
  eq : BitVec w → BitVec w → Bool
  lt : BitVec w → BitVec w → Bool
  le : BitVec w → BitVec w → Bool
  ofInt32 : BitVec 3 → BitVec 32 → BitVec w × BitVec 5
  ofUint32 : BitVec 3 → BitVec 32 → BitVec w × BitVec 5
  ofInt64 : BitVec 3 → BitVec 64 → BitVec w × BitVec 5
  ofUint64 : BitVec 3 → BitVec 64 → BitVec w × BitVec 5
deriving Inhabited

/-- the host's floating point, and Go's `math` and conversions on `float64` -/
structure HostFP where
  f32 : FloatOps 32
  f64 : FloatOps 64
  narrow : BitVec 3 → BitVec 64 → BitVec 32 × BitVec 5
  widen : BitVec 3 → BitVec 32 → BitVec 64 × BitVec 5
  trunc : BitVec 64 → BitVec 64
  floor : BitVec 64 → BitVec 64
  ceil : BitVec 64 → BitVec 64
  roundToEven : BitVec 64 → BitVec 64
  toInt32 : BitVec 64 → BitVec 32
  toUint32 : BitVec 64 → BitVec 32
  toInt64 : BitVec 64 → BitVec 64
  toUint64 : BitVec 64 → BitVec 64
deriving Inhabited

/-! ## Bit patterns -/

def f32CanonNaN : BitVec 32 := 0x7FC00000
def f32NegZero : BitVec 32 := 0x80000000
def f32PosZero : BitVec 32 := 0
def f32SignBit : BitVec 32 := 0x80000000
def f32ExpMask : BitVec 32 := 0x7F800000
def f32ManMask : BitVec 32 := 0x007FFFFF

def f64CanonNaN : BitVec 64 := 0x7FF8000000000000
def f64NegZero : BitVec 64 := 0x8000000000000000
def f64PosZero : BitVec 64 := 0
def f64SignBit : BitVec 64 := 0x8000000000000000
def f64ExpMask : BitVec 64 := 0x7FF0000000000000
def f64ManMask : BitVec 64 := 0x000FFFFFFFFFFFFF

def isNaNF32 (bits : BitVec 32) : Bool := bits &&& f32ExpMask = f32ExpMask ∧ bits &&& f32ManMask ≠ 0
def isSNaNF32 (bits : BitVec 32) : Bool := isNaNF32 bits ∧ bits &&& 0x00400000 = 0
def isNaNF64 (bits : BitVec 64) : Bool := bits &&& f64ExpMask = f64ExpMask ∧ bits &&& f64ManMask ≠ 0
def isSNaNF64 (bits : BitVec 64) : Bool := isNaNF64 bits ∧ bits &&& 0x0008000000000000 = 0

def canonNaN32 (bits : BitVec 32) : BitVec 32 := if isNaNF32 bits then f32CanonNaN else bits
def canonNaN64 (bits : BitVec 64) : BitVec 64 := if isNaNF64 bits then f64CanonNaN else bits

def boxF32 (bits : BitVec 32) : BitVec 64 := 0xFFFFFFFF00000000 ||| bits.setWidth 64
def unboxF32 (freg : BitVec 64) : BitVec 32 := if freg >>> 32 ≠ 0xFFFFFFFF then f32CanonNaN else freg.setWidth 32

def sext32 (v : BitVec 32) : BitVec 64 := v.signExtend 64

def fsgnjF32 (a b : BitVec 32) : BitVec 32 := andNot a f32SignBit ||| (b &&& f32SignBit)
def fsgnjnF32 (a b : BitVec 32) : BitVec 32 := andNot a f32SignBit ||| (~~~b &&& f32SignBit)
def fsgnjxF32 (a b : BitVec 32) : BitVec 32 := a ^^^ (b &&& f32SignBit)
def fsgnjF64 (a b : BitVec 64) : BitVec 64 := andNot a f64SignBit ||| (b &&& f64SignBit)
def fsgnjnF64 (a b : BitVec 64) : BitVec 64 := andNot a f64SignBit ||| (~~~b &&& f64SignBit)
def fsgnjxF64 (a b : BitVec 64) : BitVec 64 := a ^^^ (b &&& f64SignBit)

/-- the `FCLASS` result of a sign, a maximal exponent, a zero exponent, a mantissa and its quiet bit -/
def fclass (sign expMax expZero manNonzero quiet : Bool) : BitVec 64 :=
  if expMax ∧ manNonzero then (if quiet then 1#64 <<< 9 else 1#64 <<< 8)
  else if expMax then (if sign then 1#64 <<< 0 else 1#64 <<< 7)
  else if expZero ∧ manNonzero then (if sign then 1#64 <<< 2 else 1#64 <<< 5)
  else if expZero then (if sign then 1#64 <<< 3 else 1#64 <<< 4)
  else (if sign then 1#64 <<< 1 else 1#64 <<< 6)

def fclassF32 (bits : BitVec 32) : BitVec 64 :=
  let exp := (bits &&& f32ExpMask) >>> 23
  let man := bits &&& f32ManMask
  fclass (bits >>> 31 ≠ 0) (exp = 0xFF) (exp = 0) (man ≠ 0) (man &&& 0x00400000 ≠ 0)

def fclassF64 (bits : BitVec 64) : BitVec 64 :=
  let exp := (bits &&& f64ExpMask) >>> 52
  let man := bits &&& f64ManMask
  fclass (bits >>> 63 ≠ 0) (exp = 0x7FF) (exp = 0) (man ≠ 0) (man &&& 0x0008000000000000 ≠ 0)

section Host

variable (fp : HostFP)

/-- the rule shared by the four minimum and maximum functions: NaNs, signed zeros, comparison -/
def fminmax {w : Nat} (isNaN : BitVec w → Bool) (canon first second : BitVec w)
    (better : BitVec w → BitVec w → Bool) (a b : BitVec w) : BitVec w :=
  if isNaN a ∧ isNaN b then canon
  else if isNaN a then b
  else if isNaN b then a
  else if a = first ∧ b = second then a
  else if b = first ∧ a = second then b
  else if better a b then a
  else b

def fminF32 : BitVec 32 → BitVec 32 → BitVec 32 :=
  fminmax isNaNF32 f32CanonNaN f32NegZero f32PosZero fp.f32.lt
def fmaxF32 : BitVec 32 → BitVec 32 → BitVec 32 :=
  fminmax isNaNF32 f32CanonNaN f32PosZero f32NegZero fun a b => fp.f32.lt b a
def fminF64 : BitVec 64 → BitVec 64 → BitVec 64 :=
  fminmax isNaNF64 f64CanonNaN f64NegZero f64PosZero fp.f64.lt
def fmaxF64 : BitVec 64 → BitVec 64 → BitVec 64 :=
  fminmax isNaNF64 f64CanonNaN f64PosZero f64NegZero fun a b => fp.f64.lt b a

/-- the bit pattern of 0.5 -/
def f64Half : BitVec 64 := 0x3FE0000000000000

def roundFloatForInt (f : BitVec 64) (rm : BitVec 3) : BitVec 64 × Bool :=
  let r :=
    if rm = rmRTZ then fp.trunc f
    else if rm = rmRDN then fp.floor f
    else if rm = rmRUP then fp.ceil f
    else if rm = rmRMM then
      if fp.f64.lt f f64PosZero then fp.ceil (fp.f64.sub rmRNE f f64Half).1
      else fp.floor (fp.f64.add rmRNE f f64Half).1
    else fp.roundToEven f
  (r, !fp.f64.eq r f)

/-- the rule of the conversions to integers: NaN and overflow saturate with `NV`, a rounded value sets `NX`. `limit` and
`floor` are bit patterns of the bounds. -/
def fcvt (isNaN : Bool) (nanValue : BitVec 64) (limit : BitVec 64) (high : BitVec 64) (floor : BitVec 64)
    (low : BitVec 64) (convert : BitVec 64 → BitVec 64) (f : BitVec 64) (rm : BitVec 3) : BitVec 64 × BitVec 32 :=
  if isNaN then (nanValue, fflagNV)
  else
    let r := roundFloatForInt fp f rm
    if fp.f64.le limit r.1 then (high, fflagNV)
    else if fp.f64.lt r.1 floor then (low, fflagNV)
    else (convert r.1, if r.2 then fflagNX else 0)

def fcvtW (isNaN : Bool) : BitVec 64 → BitVec 3 → BitVec 64 × BitVec 32 :=
  fcvt fp isNaN 0x000000007FFFFFFF 0x41E0000000000000 0x000000007FFFFFFF 0xC1E0000000000000
    0xFFFFFFFF80000000 fun r => sext32 (fp.toInt32 r)

def fcvtWU (isNaN : Bool) : BitVec 64 → BitVec 3 → BitVec 64 × BitVec 32 :=
  fcvt fp isNaN 0xFFFFFFFFFFFFFFFF 0x41F0000000000000 0xFFFFFFFFFFFFFFFF f64PosZero 0
    fun r => sext32 (fp.toUint32 r)

def fcvtL (isNaN : Bool) : BitVec 64 → BitVec 3 → BitVec 64 × BitVec 32 :=
  fcvt fp isNaN 0x7FFFFFFFFFFFFFFF 0x43E0000000000000 0x7FFFFFFFFFFFFFFF 0xC3E0000000000000
    0x8000000000000000 fp.toInt64

def fcvtLU (isNaN : Bool) : BitVec 64 → BitVec 3 → BitVec 64 × BitVec 32 :=
  fcvt fp isNaN 0xFFFFFFFFFFFFFFFF 0x43F0000000000000 0xFFFFFFFFFFFFFFFF f64PosZero 0 fp.toUint64

/-- the `.S` conversions go through `float64(f)` -/
def fcvtWS (f : BitVec 32) : BitVec 3 → BitVec 64 × BitVec 32 := fcvtW fp (isNaNF32 f) (fp.widen rmRNE f).1
def fcvtWUS (f : BitVec 32) : BitVec 3 → BitVec 64 × BitVec 32 := fcvtWU fp (isNaNF32 f) (fp.widen rmRNE f).1
def fcvtLS (f : BitVec 32) : BitVec 3 → BitVec 64 × BitVec 32 := fcvtL fp (isNaNF32 f) (fp.widen rmRNE f).1
def fcvtLUS (f : BitVec 32) : BitVec 3 → BitVec 64 × BitVec 32 := fcvtLU fp (isNaNF32 f) (fp.widen rmRNE f).1

def fcvtWD (f : BitVec 64) : BitVec 3 → BitVec 64 × BitVec 32 := fcvtW fp (isNaNF64 f) f
def fcvtWUD (f : BitVec 64) : BitVec 3 → BitVec 64 × BitVec 32 := fcvtWU fp (isNaNF64 f) f
def fcvtLD (f : BitVec 64) : BitVec 3 → BitVec 64 × BitVec 32 := fcvtL fp (isNaNF64 f) f
def fcvtLUD (f : BitVec 64) : BitVec 3 → BitVec 64 × BitVec 32 := fcvtLU fp (isNaNF64 f) f

end Host

end RiscvEmu
