/-
A Go slice as a queue: elements are appended at its end and taken from its start, `copy(s, s[n:]); s = s[:len(s)-n]`.

The elements behave as a list, and the array under the slice stays the same as long as nothing is appended that does
not fit: neither the copying nor the shorter view costs any capacity (`shift_cap`, `extend_cap`).
-/
import RiscvEmu.Lib.Slice

namespace Slice

open List

variable {α : Type}

/-- `cap(s)` -/
def cap (s : Slice α) : Nat := s.array.length

/-- `make([]T, 0, n)` -/
def empty (zero : α) (n : Nat) : Slice α := { array := replicate n zero, len := 0, fits := Nat.zero_le _ }

/-- `copy(s, s[n:]); s = s[:len(s)-n]` -/
def shift (s : Slice α) (n : Nat) : Slice α where
  array := (s.array.take s.len).drop n ++ s.array.drop (s.len - n)
  len := s.len - n
  fits := by
    have := s.fits
    simp only [length_append, length_drop, length_take]
    omega

/-- `append(s, xs...)`; an array of its own, with `room` more elements, if the elements do not fit -/
def extend (s : Slice α) (zero : α) (room : Nat) (xs : List α) : Slice α :=
  if h : s.len + xs.length ≤ s.cap then
    { array := s.array.take s.len ++ xs ++ s.array.drop (s.len + xs.length), len := s.len + xs.length
      fits := by
        unfold cap at h
        simp only [length_append, length_take, length_drop]
        omega }
  else
    { array := s.array.take s.len ++ xs ++ replicate room zero, len := s.len + xs.length
      fits := by
        have := s.fits
        simp only [length_append, length_take, length_replicate]
        omega }

variable (s : Slice α) (zero : α) (n : Nat)

@[simp] theorem empty_elems : (empty zero n).elems = [] := take_zero

@[simp] theorem empty_cap : (empty zero n).cap = n := length_replicate

theorem shift_elems : (s.shift n).elems = s.elems.drop n := by
  have hfits := s.fits
  have hlen : ((s.array.take s.len).drop n).length = s.len - n := by
    rw [length_drop, length_take]
    omega
  show ((s.array.take s.len).drop n ++ s.array.drop (s.len - n)).take (s.len - n) = (s.array.take s.len).drop n
  rw [take_append_of_le_length (by omega), take_of_length_le (by omega)]

theorem shift_cap : (s.shift n).cap = s.cap := by
  have hfits := s.fits
  show ((s.array.take s.len).drop n ++ s.array.drop (s.len - n)).length = s.array.length
  simp only [length_append, length_drop, length_take]
  omega

theorem extend_elems (room : Nat) (xs : List α) : (s.extend zero room xs).elems = s.elems ++ xs := by
  have hfits := s.fits
  have hlen : (s.array.take s.len ++ xs).length = s.len + xs.length := by
    rw [length_append, length_take]
    omega
  unfold extend
  split
  · show (s.array.take s.len ++ xs ++ s.array.drop (s.len + xs.length)).take
      (s.len + xs.length) = s.array.take s.len ++ xs
    rw [take_append_of_le_length (by omega), take_of_length_le (by omega)]
  · show (s.array.take s.len ++ xs ++ replicate room zero).take (s.len + xs.length) = s.array.take s.len ++ xs
    rw [take_append_of_le_length (by omega), take_of_length_le (by omega)]

theorem extend_cap (room : Nat) {xs : List α} (h : s.len + xs.length ≤ s.cap) :
    (s.extend zero room xs).cap = s.cap := by
  have hfits := s.fits
  unfold extend
  rw [dif_pos h]
  unfold cap at h ⊢
  simp only [length_append, length_take, length_drop]
  omega

end Slice
