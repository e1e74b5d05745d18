/-
Address translation as the RISC-V privileged specification states it for Sv39 and Sv48.

An entry is a record of its fields and the tables are a function from physical addresses to words. `search` is the
specification's loop from the root table to a leaf. It stops at an entry that has a reserved bit set; in an entry that
points to a further table, U, A and D are such bits. Which pointers are refused is a parameter, so that a walk that
does not look at those bits is a search too, and `search_eq_some_iff` says what each finds: the leaf the tables lead
to, if it serves the access and no pointer on the way is refused.
-/
import Mathlib.Tactic

namespace RiscvEmu.Translation

variable {i a levels root : Nat} {l : Leaf}

inductive Access
  | load | store | fetch
deriving DecidableEq, Repr

/-- the effective privilege mode; the U bit of an entry says nothing about machine mode -/
inductive Mode
  | user | supervisor | machine
deriving DecidableEq, Repr

structure Pte where
  v : Bool
  r : Bool
  w : Bool
  x : Bool
  u : Bool
  a : Bool
  d : Bool
  ppn : Nat
  high : BitVec 10
deriving DecidableEq, Repr

def Pte.ofWord (word : BitVec 64) : Pte :=
  { v := word.getLsbD 0, r := word.getLsbD 1, w := word.getLsbD 2, x := word.getLsbD 3, u := word.getLsbD 4
    a := word.getLsbD 6, d := word.getLsbD 7, ppn := word.toNat / 2 ^ 10 % 2 ^ 44, high := word.extractLsb' 54 10 }

namespace Pte

variable (pte : Pte)

def isLeaf : Bool := pte.r || pte.x

/-- a bit is set that is reserved in every entry, or V and the permissions say the entry is not valid -/
def invalid : Bool := !pte.v || (!pte.r && pte.w) || pte.high != 0

/-- U, A or D is set; these are reserved in an entry that is not a leaf -/
def marked : Bool := pte.u || pte.a || pte.d

end Pte

/-- what decides about an access besides the entry -/
structure Context where
  mode : Mode
  sum : Bool
  mxr : Bool
deriving DecidableEq, Repr

def Context.reaches (ctx : Context) (acc : Access) (pte : Pte) : Bool :=
  match ctx.mode with
  | .user => pte.u
  | .supervisor => !pte.u || (decide (acc ≠ .fetch) && ctx.sum)
  | .machine => true

/-- the R, W and X bits of a leaf grant the access -/
def Context.grants (ctx : Context) (acc : Access) (pte : Pte) : Bool :=
  match acc with
  | .load => pte.r || (ctx.mxr && pte.x)
  | .store => pte.w
  | .fetch => pte.x

/-- the permissions of a leaf allow the access -/
def Context.allows (ctx : Context) (acc : Access) (pte : Pte) : Bool := ctx.reaches acc pte && ctx.grants acc pte

def vpn (va : BitVec 64) (i : Nat) : Nat := va.toNat / 2 ^ (12 + 9 * i) % 2 ^ 9

/-- the bits above the translated ones repeat the highest translated bit -/
def Canonical (levels : Nat) (va : BitVec 64) : Prop :=
  -(2 ^ (11 + 9 * levels) : Int) ≤ va.toInt ∧ va.toInt < 2 ^ (11 + 9 * levels)

instance (levels : Nat) (va : BitVec 64) : Decidable (Canonical levels va) := by
  unfold Canonical
  infer_instance

/-- a leaf: where its entry is, what the entry is, and the level it was found at -/
structure Leaf where
  addr : Nat
  entry : BitVec 64
  level : Nat
deriving DecidableEq, Repr

namespace Leaf

def pte (l : Leaf) : Pte := Pte.ofWord l.entry

/-- the page of a leaf above the lowest level starts at a multiple of its size -/
def Aligned (l : Leaf) : Prop := l.pte.ppn % 2 ^ (9 * l.level) = 0

instance (l : Leaf) : Decidable l.Aligned := by
  unfold Aligned
  infer_instance

/-- the physical address: the page number of the entry above the page's own bits, those of `va` below -/
def pa (l : Leaf) (va : BitVec 64) : Nat :=
  l.pte.ppn / 2 ^ (9 * l.level) * 2 ^ (12 + 9 * l.level) + va.toNat % 2 ^ (12 + 9 * l.level)

/-- the entry with A set, and D for a store -/
def touched (l : Leaf) (acc : Access) : BitVec 64 :=
  if acc = .store then l.entry ||| 1#64 <<< 6 ||| 1#64 <<< 7 else l.entry ||| 1#64 <<< 6

/-- the leaf can serve an access that `allowed` decides about -/
def Serves (allowed : Pte → Bool) (l : Leaf) : Prop := allowed l.pte = true ∧ l.Aligned

end Leaf

section Search

variable (word : Nat → BitVec 64) (refused allowed : Pte → Bool) (va : BitVec 64)

/-- where the entry for `va` in the table at `a` is -/
def entryAddr (va : BitVec 64) (i a : Nat) : Nat := a + vpn va i * 8

/-- from the table at `a` down, with `i` levels to go -/
def search : Nat → Nat → Option Leaf
  | 0, _ => none
  | i + 1, a =>
    let leaf : Leaf := { addr := entryAddr va i a, entry := word (entryAddr va i a), level := i }
    if leaf.pte.invalid then none
    else if leaf.pte.isLeaf then
      if allowed leaf.pte = true ∧ leaf.Aligned then some leaf else none
    else if refused leaf.pte then none
    else search i (leaf.pte.ppn * 2 ^ 12)

/-- the translation of `va` with the root table at `root` -/
def translate (levels root : Nat) : Option Leaf :=
  if Canonical levels va then search word refused allowed va levels root else none

/-- the tables lead `va` over the pointers `ps` to a leaf -/
inductive Leads : Nat → Nat → List Pte → Leaf → Prop
  | leaf {i a : Nat} {l : Leaf} (hl : l = ⟨entryAddr va i a, word (entryAddr va i a), i⟩)
      (hv : l.pte.invalid = false) (hx : l.pte.isLeaf = true) : Leads (i + 1) a [] l
  | next {i a : Nat} {pte : Pte} {ps : List Pte} {l : Leaf} (hp : pte = Pte.ofWord (word (entryAddr va i a)))
      (hv : pte.invalid = false) (hx : pte.isLeaf = false) (h : Leads i (pte.ppn * 2 ^ 12) ps l) :
      Leads (i + 1) a (pte :: ps) l

/-- the entry at `p` is looked at on the way of `va` -/
inductive Visits : Nat → Nat → Nat → Prop
  | here {i a : Nat} : Visits (i + 1) a (entryAddr va i a)
  | next {i a p : Nat} {pte : Pte} (hp : pte = Pte.ofWord (word (entryAddr va i a)))
      (hv : pte.invalid = false) (hx : pte.isLeaf = false) (h : Visits i (pte.ppn * 2 ^ 12) p) : Visits (i + 1) a p

end Search

section Facts

variable {word : Nat → BitVec 64} {refused allowed : Pte → Bool} {va : BitVec 64}

/-- the leaf that the entry for `va` in the table at `a` would be -/
def leafAt (word : Nat → BitVec 64) (va : BitVec 64) (i a : Nat) : Leaf :=
  { addr := entryAddr va i a, entry := word (entryAddr va i a), level := i }

theorem search_of_invalid (hv : (leafAt word va i a).pte.invalid = true) :
    search word refused allowed va (i + 1) a = none := if_pos hv

theorem search_of_leaf (hv : (leafAt word va i a).pte.invalid = false)
    (hx : (leafAt word va i a).pte.isLeaf = true) : search word refused allowed va (i + 1) a =
      if allowed (leafAt word va i a).pte = true ∧ (leafAt word va i a).Aligned then some
        (leafAt word va i a) else none :=
  (if_neg (by rw [← leafAt, hv]; decide)).trans (if_pos hx)

theorem search_of_pointer (hv : (leafAt word va i a).pte.invalid = false)
    (hx : (leafAt word va i a).pte.isLeaf = false) (hr : refused (leafAt word va i a).pte = false) :
    search word refused allowed va (i + 1) a =
      search word refused allowed va i ((leafAt word va i a).pte.ppn * 2 ^ 12) :=
  (if_neg (by rw [← leafAt, hv]; decide)).trans
    ((if_neg (by rw [← leafAt, hx]; decide)).trans (if_neg (by rw [← leafAt, hr]; decide)))

theorem search_of_refused (hv : (leafAt word va i a).pte.invalid = false)
    (hx : (leafAt word va i a).pte.isLeaf = false) (hr : refused (leafAt word va i a).pte = true) :
    search word refused allowed va (i + 1) a = none :=
  (if_neg (by rw [← leafAt, hv]; decide)).trans ((if_neg (by rw [← leafAt, hx]; decide)).trans (if_pos hr))

theorem Leads.unique {ps ps' : List Pte} {l' : Leaf} (h : Leads word va i a ps l)
    (h' : Leads word va i a ps' l') : ps = ps' ∧ l = l' := by
  induction h generalizing ps' l' with
  | leaf hl _ hx =>
    cases h' with
    | leaf hl' _ _ => exact ⟨rfl, hl.trans hl'.symm⟩
    | next hp _ hx' _ =>
      subst hl hp
      rw [Leaf.pte] at hx
      cases hx.symm.trans hx'
  | next hp _ hx _ ih =>
    cases h' with
    | leaf hl' _ hx' =>
      subst hl' hp
      rw [Leaf.pte] at hx'
      cases hx.symm.trans hx'
    | next hp' _ _ h' =>
      obtain rfl := hp.trans hp'.symm
      obtain ⟨rfl, rfl⟩ := ih h'
      exact ⟨rfl, rfl⟩

/-- **What a search finds.**  The leaf the tables lead to, if it serves the access and no pointer on the
way to it is refused. -/
theorem search_eq_some_iff : search word refused allowed va i a = some l ↔
    ∃ ps, Leads word va i a ps l ∧ l.Serves allowed ∧ ∀ pte ∈ ps, refused pte = false := by
  induction i generalizing a with
  | zero =>
    constructor
    · rintro ⟨⟩
    · rintro ⟨ps, ⟨⟩, _⟩
  | succ i ih =>
    constructor
    · intro h
      rcases hv : (leafAt word va i a).pte.invalid with _ | _
      · rcases hx : (leafAt word va i a).pte.isLeaf with _ | _
        · rcases hr : refused (leafAt word va i a).pte with _ | _
          · rw [search_of_pointer hv hx hr] at h
            obtain ⟨ps, hlead, hs, hps⟩ := ih.1 h
            exact ⟨_ :: ps, .next rfl hv hx hlead, hs, List.forall_mem_cons.2 ⟨hr, hps⟩⟩
          · rw [search_of_refused hv hx hr] at h
            cases h
        · rw [search_of_leaf hv hx, Option.ite_none_right_eq_some] at h
          obtain ⟨hs, h⟩ := h
          cases h
          exact ⟨[], .leaf rfl hv hx, hs, fun _ hm => nomatch hm⟩
      · rw [search_of_invalid hv] at h
        cases h
    · rintro ⟨ps, hlead, hs, hps⟩
      cases hlead with
      | leaf hl hv hx =>
        subst hl
        exact (search_of_leaf hv hx).trans (if_pos hs)
      | next hp hv hx hlead =>
        subst hp
        obtain ⟨hr, hps⟩ := List.forall_mem_cons.1 hps
        exact (search_of_pointer hv hx hr).trans (ih.2 ⟨_, hlead, hs, hps⟩)

theorem translate_eq_some_iff :
    translate word refused allowed va levels root = some l ↔ Canonical levels va ∧
      ∃ ps, Leads word va levels root ps l ∧ l.Serves allowed ∧ ∀ pte ∈ ps, refused pte = false := by
  unfold translate
  by_cases hc : Canonical levels va
  · rw [if_pos hc, search_eq_some_iff]
    exact ⟨fun h => ⟨hc, h⟩, fun h => h.2⟩
  · rw [if_neg hc]
    exact ⟨fun h => (nomatch h), fun h => absurd h.1 hc⟩

/-- translations that refuse and allow different things agree exactly when they say the same of the leaf the tables lead
to -/
theorem translate_eq_translate_iff {refused' allowed' : Pte → Bool} :
    translate word refused allowed va levels root = translate word refused' allowed' va levels root ↔
      (Canonical levels va → ∀ ps l, Leads word va levels root ps l → l.Aligned →
        ((allowed l.pte = true ∧ ∀ pte ∈ ps, refused pte = false) ↔
          (allowed' l.pte = true ∧ ∀ pte ∈ ps, refused' pte = false))) := by
  constructor
  · intro heq hc ps l hlead hal
    have hiff : translate word refused allowed va levels root = some l ↔
        translate word refused' allowed' va levels root = some l := by rw [heq]
    rw [translate_eq_some_iff, translate_eq_some_iff] at hiff
    constructor
    · rintro ⟨ha, hr⟩
      obtain ⟨-, ps', hlead', hs, hr'⟩ := hiff.1 ⟨hc, ps, hlead, ⟨ha, hal⟩, hr⟩
      obtain ⟨rfl, -⟩ := hlead.unique hlead'
      exact ⟨hs.1, hr'⟩
    · rintro ⟨ha, hr⟩
      obtain ⟨-, ps', hlead', hs, hr'⟩ := hiff.2 ⟨hc, ps, hlead, ⟨ha, hal⟩, hr⟩
      obtain ⟨rfl, -⟩ := hlead.unique hlead'
      exact ⟨hs.1, hr'⟩
  · intro h
    apply Option.ext
    intro l
    rw [translate_eq_some_iff, translate_eq_some_iff]
    constructor
    · rintro ⟨hc, ps, hlead, hs, hr⟩
      obtain ⟨ha', hr'⟩ := (h hc ps l hlead hs.2).1 ⟨hs.1, hr⟩
      exact ⟨hc, ps, hlead, ⟨ha', hs.2⟩, hr'⟩
    · rintro ⟨hc, ps, hlead, hs, hr⟩
      obtain ⟨ha', hr'⟩ := (h hc ps l hlead hs.2).2 ⟨hs.1, hr⟩
      exact ⟨hc, ps, hlead, ⟨ha', hs.2⟩, hr'⟩

end Facts

end RiscvEmu.Translation
