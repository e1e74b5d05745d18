/-
Loops that filter a slice in place, `out := s[:0]; for _, x := range s { out = append(out, …) }`.

The loop reads the array of the slice from its start while `append` writes into the same array, until it needs more
room than the array has and moves `out` to an array of its own.

• `Slice.rewrite` is such a loop; `step acc x` says what is appended for `x` and how an accumulator goes on.
• `emit` is the same loop without the shared array.
• `rewrite_elems`: the two agree as long as the loop never writes past the position it has read (`KeepsUp`), whatever
  the capacity and however `append` grows an array.
• `rewrite_overrun`: once it is one position ahead of its reading and meets an element that it keeps, it reads that
  element to the end, and what followed is lost.
-/
import Mathlib.Data.List.Basic
import Mathlib.Tactic

/-- a view of the first `len` elements of an array that may be longer -/
structure Slice (α : Type) where
  array : List α
  len : Nat
  fits : len ≤ array.length

/-- the array that the loop reads, and `out`, which is the start of that array up to a position or an array of its own
-/
structure Writing (α : Type) where
  array : List α
  out : Nat ⊕ List α

namespace Writing

variable {i : Nat} {acc : σ} {w : Writing α} {x : α}

variable {α : Type}

def append (w : Writing α) (x : α) : Writing α :=
  match w.out with
  | .inl n =>
    if n < w.array.length then { array := w.array.set n x, out := .inl (n + 1) }
    else { w with out := .inr (w.array.take n ++ [x]) }
  | .inr l => { w with out := .inr (l ++ [x]) }

def appendAll (w : Writing α) (xs : List α) : Writing α := xs.foldl append w

def elems (w : Writing α) : List α :=
  match w.out with
  | .inl n => w.array.take n
  | .inr l => l

/-- `out` lies inside the array -/
def Inside (w : Writing α) : Prop := ∀ n, w.out = .inl n → n ≤ w.array.length

theorem append_elems {w : Writing α} (h : w.Inside) (x : α) :
    (w.append x).elems = w.elems ++ [x] ∧ (w.append x).Inside ∧ (w.append x).array.length = w.array.length := by
  unfold append Inside elems at *
  rcases hout : w.out with n | l
  · have hn : n ≤ w.array.length := h n hout
    dsimp only
    by_cases hroom : n < w.array.length
    · rw [if_pos hroom]
      refine ⟨?_, ?_, by simp⟩
      · show (w.array.set n x).take (n + 1) = w.array.take n ++ [x]
        rw [List.take_add_one, List.take_set_of_le (Nat.le_refl n), List.getElem?_set_self hroom]
        rfl
      · intro m hm
        have : n + 1 = m := Sum.inl.inj hm
        simp only [List.length_set]
        omega
    · rw [if_neg hroom]
      refine ⟨rfl, fun m hm => ?_, rfl⟩
      cases hm
  · refine ⟨rfl, fun m hm => ?_, rfl⟩
    cases hm

theorem appendAll_elems {w : Writing α} (h : w.Inside) (xs : List α) :
    (w.appendAll xs).elems = w.elems ++ xs ∧ (w.appendAll xs).Inside ∧
      (w.appendAll xs).array.length = w.array.length := by
  induction xs generalizing w with
  | nil => exact ⟨(List.append_nil _).symm, h, rfl⟩
  | cons x rest ih =>
    obtain ⟨helems, hinside, hlength⟩ := append_elems h x
    obtain ⟨helems', hinside', hlength'⟩ := ih hinside
    exact ⟨by rw [appendAll, List.foldl_cons, ← appendAll, helems', helems, List.append_assoc]; rfl, hinside',
      hlength'.trans hlength⟩

/-- as long as there is room `out` stays where it is, and what lies behind it is left alone -/
theorem appendAll_inl (array : List α) (n : Nat) (xs : List α) (h : n + xs.length ≤ i) (hi : i ≤ array.length) :
    ∃ array', ({ array := array, out := .inl n } : Writing α).appendAll xs =
      { array := array', out := .inl (n + xs.length) } ∧
      array'.drop i = array.drop i := by
  induction xs generalizing array n with
  | nil => exact ⟨array, rfl, rfl⟩
  | cons x rest ih =>
    rw [List.length_cons] at h
    have hfirst :
        ({ array := array, out := .inl n } : Writing α).append x = { array := array.set n x, out := .inl (n + 1) } :=
      if_pos (show n < array.length by omega)
    obtain ⟨array', happend, hdrop⟩ := ih (array.set n x) (n + 1) (by omega) (by simpa using hi)
    refine ⟨array', ?_, ?_⟩
    · rw [appendAll, List.foldl_cons, hfirst, ← appendAll, happend, List.length_cons]
      congr 2
      omega
    · rw [hdrop, List.drop_set_of_lt (by omega)]

end Writing

section Loop

variable {α σ : Type} (step : σ → α → σ × List α)

/-- the rest of the loop: `n` elements from position `i` on are left to be read -/
def rewriteFrom : Nat → Nat → σ → Writing α → σ × Writing α
  | 0, _, acc, w => (acc, w)
  | n + 1, i, acc, w =>
    match w.array[i]? with
    | none => (acc, w)
    | some x => rewriteFrom n (i + 1) (step acc x).1 (w.appendAll (step acc x).2)

/-- the loop on a list that nobody writes to -/
def emit : σ → List α → σ × List α
  | acc, [] => (acc, [])
  | acc, x :: rest => ((emit (step acc x).1 rest).1, (step acc x).2 ++ (emit (step acc x).1 rest).2)

/-- the loop does not write past what it has read, except for its last element; `spare` positions are read and not
written to -/
def KeepsUp : σ → Nat → List α → Prop
  | _, _, [] => True
  | acc, spare, x :: rest =>
    rest = [] ∨ ((step acc x).2.length ≤ spare + 1 ∧ KeepsUp (step acc x).1 (spare + 1 - (step acc x).2.length) rest)

end Loop

section Rewriting

variable {α σ : Type} {step : σ → α → σ × List α}

theorem getElem?_of_drop {array rest : List α} {i : Nat} {x : α} (h : array.drop i = x :: rest) :
    array[i]? = some x ∧ array.drop (i + 1) = rest ∧ i < array.length := by
  have hread : (array.drop i)[0]? = some x := by rw [h]; rfl
  have htail : (array.drop i).drop 1 = rest := by rw [h]; rfl
  rw [List.getElem?_drop, Nat.add_zero] at hread
  rw [List.drop_drop] at htail
  exact ⟨hread, htail, (List.getElem?_eq_some_iff.mp hread).1⟩

theorem rewriteFrom_succ {n : Nat} (h : w.array[i]? = some x) :
    rewriteFrom step (n + 1) i acc w = rewriteFrom step n (i + 1) (step acc x).1 (w.appendAll (step acc x).2) := by
  rw [rewriteFrom, h]

theorem rewriteFrom_inside (n i : Nat) (acc : σ) (h : w.Inside) : (rewriteFrom step n i acc w).2.Inside := by
  induction n generalizing i acc w with
  | zero => exact h
  | succ n ih =>
    unfold rewriteFrom
    split
    · exact h
    · exact ih _ _ (Writing.appendAll_elems h _).2.1

theorem keepsUp_of_le_one {l : List α} (spare : Nat) (h : ∀ x ∈ l.dropLast, ∀ acc, (step acc x).2.length ≤ 1) :
    KeepsUp step acc spare l := by
  induction l generalizing acc spare with
  | nil => trivial
  | cons x rest ih =>
    by_cases hrest : rest = []
    · exact .inl hrest
    · rw [List.dropLast_cons_of_ne_nil hrest] at h
      have hone := h x List.mem_cons_self acc
      exact .inr ⟨by omega, ih _ fun y hy => h y (List.mem_cons_of_mem x hy)⟩

/-- **The loop in place.** As long as it does not write past what it has read, it works as if nobody wrote to the slice.
-/
theorem rewriteFrom_elems (rest : List α) {beyond : List α} {i n : Nat} {acc : σ} {array : List α} (hn : n ≤ i)
    (hrest : array.drop i = rest ++ beyond) (hi : i ≤ array.length) (hkeeps : KeepsUp step acc (i - n) rest) :
    (rewriteFrom step rest.length i acc { array := array, out := .inl n }).1 = (emit step acc rest).1 ∧
    (rewriteFrom step rest.length i acc { array := array, out := .inl n }).2.elems
      = array.take n ++ (emit step acc rest).2 := by
  induction rest generalizing i n acc array with
  | nil => exact ⟨rfl, (List.append_nil _).symm⟩
  | cons x rest ih =>
    obtain ⟨hread, htail, hlt⟩ := getElem?_of_drop hrest
    have hinside : ({ array := array, out := .inl n } : Writing α).Inside := by
      intro m hm
      have : n = m := Sum.inl.inj hm
      show m ≤ array.length
      omega
    obtain ⟨helems, -, hlength⟩ := Writing.appendAll_elems hinside (step acc x).2
    rw [List.length_cons, rewriteFrom_succ hread]
    obtain rfl | ⟨hroom, hkeeps⟩ := hkeeps
    · -- nothing is read any more, so it does not matter where the last elements go
      refine ⟨rfl, helems.trans ?_⟩
      show array.take n ++ (step acc x).2 = array.take n ++ ((step acc x).2 ++ [])
      rw [List.append_nil]
    · obtain ⟨array', happend, hdrop⟩ := Writing.appendAll_inl array n (step acc x).2 (i := i + 1) (by omega) hlt
      rw [happend] at helems hlength ⊢
      have hspare : i - n + 1 - (step acc x).2.length = i + 1 - (n + (step acc x).2.length) := by omega
      rw [hspare] at hkeeps
      obtain ⟨hacc, hwritten⟩ := ih (by omega) (hdrop.trans htail) (hlength ▸ hlt) hkeeps
      refine ⟨hacc, hwritten.trans ?_⟩
      have htake : array'.take (n + (step acc x).2.length) = array.take n ++ (step acc x).2 := helems
      rw [htake, List.append_assoc]
      rfl

theorem rewriteFrom_kept (kept : List α) (m : Nat) {beyond : List α} {i : Nat} {acc : σ} {array : List α}
    (hkept : ∀ x ∈ kept, step acc x = (acc, [x])) (hdrop : array.drop i = kept ++ beyond) :
    rewriteFrom step (kept.length + m) i acc { array := array, out := .inl i }
      = rewriteFrom step m (i + kept.length) acc { array := array, out := .inl (i + kept.length) } := by
  induction kept generalizing i with
  | nil => rw [List.length_nil, Nat.zero_add, Nat.add_zero]
  | cons x rest ih =>
    obtain ⟨hread, htail, hlt⟩ := getElem?_of_drop hdrop
    have hsame : array.set i x = array := by
      obtain ⟨_, hx⟩ := List.getElem?_eq_some_iff.mp hread
      rw [← hx, List.set_getElem_self]
    have happend : Writing.append { array := array, out := .inl i } x = { array := array, out := .inl (i + 1) } := by
      refine (if_pos hlt).trans ?_
      rw [hsame]
    have hcount : (x :: rest).length + m = rest.length + m + 1 := by rw [List.length_cons]; omega
    rw [hcount, rewriteFrom_succ hread, hkept x List.mem_cons_self]
    show rewriteFrom step (rest.length + m) (i + 1) acc (Writing.append { array := array, out := .inl i } x) = _
    have hnext : i + (x :: rest).length = i + 1 + rest.length := by rw [List.length_cons]; omega
    rw [happend, ih (fun y hy => hkept y (List.mem_cons_of_mem x hy)) htail, hnext]

/-- **The loop ahead of itself.** If it has written one position more than it has read and keeps the element that is
there, it reads that element to the end. -/
theorem rewriteFrom_overrun (hkept : ∀ acc, step acc x = (acc, [x])) (m : Nat) {array : List α}
    (hread : array[i]? = some x) (hm : i + m ≤ array.length) :
    (rewriteFrom step m i acc { array := array, out := .inl (i + 1) }).2.elems
      = array.take (i + 1) ++ List.replicate m x := by
  induction m generalizing i array with
  | zero => exact (List.append_nil _).symm
  | succ m ih =>
    rw [rewriteFrom_succ hread, hkept]
    show (rewriteFrom step m (i + 1) acc (Writing.append { array := array, out := .inl (i + 1) } x)).2.elems = _
    by_cases hroom : i + 1 < array.length
    · have happend : Writing.append { array := array, out := .inl (i + 1) } x
          = { array := array.set (i + 1) x, out := .inl (i + 1 + 1) } := if_pos hroom
      have htake : (array.set (i + 1) x).take (i + 1 + 1) = array.take (i + 1) ++ [x] := by
        rw [List.take_add_one, List.take_set_of_le (Nat.le_refl _), List.getElem?_set_self hroom]
        rfl
      rw [happend, ih (List.getElem?_set_self hroom) (by rw [List.length_set]; omega), htake, List.append_assoc]
      rfl
    · have hlast : m = 0 := by omega
      have happend : Writing.append { array := array, out := .inl (i + 1) } x
          = { array := array, out := .inr (array.take (i + 1) ++ [x]) } := if_neg hroom
      rw [happend, hlast]
      rfl

end Rewriting

namespace Slice

variable {α σ : Type}

def elems (s : Slice α) : List α := s.array.take s.len

/-- the slice that `out` has become; `slack` is the capacity that `append` adds to an array it has moved, filled with
`zero` -/
def ofWriting (zero : α) (slack : Nat → Nat) (w : Writing α) : Slice α :=
  match w.out with
  | .inl n => { array := w.array, len := min n w.array.length, fits := Nat.min_le_right _ _ }
  | .inr l => { array := l ++ List.replicate (slack l.length) zero, len := l.length, fits := by simp }

def rewrite (step : σ → α → σ × List α) (acc : σ) (s : Slice α) : σ × Writing α :=
  rewriteFrom step s.len 0 acc { array := s.array, out := .inl 0 }

@[simp] theorem elems_ofWriting (zero : α) (slack : Nat → Nat) (w : Writing α) :
    (ofWriting zero slack w).elems = w.elems := by
  unfold ofWriting elems Writing.elems
  rcases w.out with n | l
  · simp [List.take_eq_take_iff]
  · simp

theorem length_elems (s : Slice α) : s.elems.length = s.len := by
  simp [elems, s.fits]

theorem rewrite_inside (step : σ → α → σ × List α) (acc : σ) (s : Slice α) : (s.rewrite step acc).2.Inside :=
  rewriteFrom_inside _ _ _ fun _ hn => (Sum.inl.inj hn) ▸ Nat.zero_le _

theorem rewrite_elems {step : σ → α → σ × List α} {acc : σ} {s : Slice α} (h : KeepsUp step acc 0 s.elems) :
    (s.rewrite step acc).1 = (emit step acc s.elems).1 ∧ (s.rewrite step acc).2.elems = (emit step acc s.elems).2 := by
  have hdrop : s.array.drop 0 = s.elems ++ s.array.drop s.len := (List.take_append_drop s.len s.array).symm
  have hrun := rewriteFrom_elems s.elems (Nat.le_refl 0) hdrop (Nat.zero_le _) h
  rw [length_elems] at hrun
  exact hrun

/-- an element that is replaced by two, with others behind it: the second of the two is read in their place -/
theorem rewrite_overrun {step : σ → α → σ × List α} {acc : σ} {s : Slice α} {kept rest : List α} {x a b : α}
    (hs : s.elems = kept ++ x :: rest) (hrest : rest ≠ []) (hkept : ∀ y ∈ kept, step acc y = (acc, [y]))
    (hx : step acc x = (acc, [a, b])) (hb : ∀ acc, step acc b = (acc, [b])) :
    (s.rewrite step acc).2.elems = kept ++ a :: b :: List.replicate rest.length b := by
  have hdrop : s.array.drop 0 = kept ++ x :: (rest ++ s.array.drop s.len) := by
    rw [← List.cons_append, ← List.append_assoc, ← hs]
    exact (List.take_append_drop s.len s.array).symm
  have hlen : s.len = kept.length + (rest.length + 1) := by
    rw [← length_elems, hs, List.length_append, List.length_cons]
  have hfits := s.fits
  have hpos : 0 < rest.length := List.length_pos_iff.mpr hrest
  have hread : s.array[kept.length]? = some x := by
    have := congrArg (fun l : List α => l[kept.length]?) hdrop
    simpa using this
  have htake : s.array.take kept.length = kept := by
    have := congrArg (List.take kept.length) hdrop
    simpa using this
  unfold rewrite
  rw [hlen, rewriteFrom_kept kept (rest.length + 1) hkept hdrop, Nat.zero_add, rewriteFrom_succ hread, hx]
  have happend : ({ array := s.array, out := .inl kept.length } : Writing α).appendAll [a, b]
      = { array := (s.array.set kept.length a).set (kept.length + 1) b, out := .inl (kept.length + 1 + 1) } := by
    have hfirst : ({ array := s.array, out := .inl kept.length } : Writing α).append a
        = { array := s.array.set kept.length a, out := .inl (kept.length + 1) } :=
      if_pos (show kept.length < s.array.length by omega)
    have hsecond : ({ array := s.array.set kept.length a, out := .inl (kept.length + 1) } : Writing α).append b
        = { array := (s.array.set kept.length a).set (kept.length + 1) b, out := .inl (kept.length + 1 + 1) } :=
      if_pos (show kept.length + 1 < (s.array.set kept.length a).length by rw [List.length_set]; omega)
    show (Writing.append _ a).append b = _
    rw [hfirst, hsecond]
  have hroom : kept.length + 1 < (s.array.set kept.length a).length := by rw [List.length_set]; omega
  rw [happend, rewriteFrom_overrun hb rest.length (List.getElem?_set_self hroom)
    (by simp only [List.length_set]; omega)]
  have hwritten :
      ((s.array.set kept.length a).set (kept.length + 1) b).take (kept.length + 1 + 1) = kept ++ [a, b] := by
    rw [List.take_add_one, List.take_set_of_le (Nat.le_refl _), List.getElem?_set_self hroom, List.take_add_one,
      List.take_set_of_le (Nat.le_refl _), List.getElem?_set_self (by omega), htake]
    simp
  rw [hwritten, List.append_assoc]
  rfl

end Slice
