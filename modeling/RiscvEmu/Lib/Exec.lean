/-
Computations that change a state and may end with an error. On an error the state reached so far is kept, as in an
imperative function that returns an error code.

• `Exec σ ε α` is the monad; `zoom` runs a computation on one component of the state.
• `Exec.AgreesOn P m₁ m₂`: from a state in `P` the two do the same and stay in `P` (`AgreesOn.bind`,
  `AgreesOn.onError`).
• `Exec.Keeps P m`: from a state in `P` the computation ends in `P`.
• `Exec.Obeys P Q m`: from a state in `P` the computation ends in `P`, and its errors satisfy `Q`; `Exec.ObeysAt P Q m
  s` says it of one state.
• `Exec.ErrAt Q m s`: the error of the computation from `s`, if there is one, satisfies `Q`.
-/
import Mathlib.Tactic

/-- a computation on a state that returns a value or an error, and the state it reached -/
def Exec (σ ε α : Type) := σ → Except ε α × σ

namespace Exec

variable {σ τ ε ε' α β : Type}

@[ext]
theorem ext {m₁ m₂ : Exec σ ε α} (h : ∀ s, m₁ s = m₂ s) : m₁ = m₂ := funext h

instance : Monad (Exec σ ε) where
  pure a := fun s => (.ok a, s)
  bind m k := fun s =>
    match m s with
    | (.ok a, s') => k a s'
    | (.error e, s') => (.error e, s')

def fail (e : ε) : Exec σ ε α := fun s => (.error e, s)

/-- read a component of the state -/
def gets (f : σ → α) : Exec σ ε α := fun s => (.ok (f s), s)

def modify (f : σ → σ) : Exec σ ε Unit := fun s => (.ok (), f s)

/-- a computation that only reads the state -/
def reads (f : σ → Except ε α) : Exec σ ε α := fun s => (f s, s)

/-- run a computation on a component of the state -/
def zoom (get : σ → τ) (set : τ → σ → σ) (m : Exec τ ε α) : Exec σ ε α := fun s =>
  let r := m (get s)
  (r.1, set r.2 s)

/-- rename the errors of a computation -/
def mapErr (g : ε → ε') (m : Exec σ ε α) : Exec σ ε' α := fun s =>
  match m s with
  | (.ok a, s') => (.ok a, s')
  | (.error e, s') => (.error (g e), s')

/-- on an error that satisfies `p`, go on with `h` from the state reached -/
def onError (p : ε → Bool) (m h : Exec σ ε α) : Exec σ ε α := fun s =>
  match m s with
  | (.ok a, s') => (.ok a, s')
  | (.error e, s') => if p e then h s' else (.error e, s')

@[simp] theorem pure_run (a : α) (s : σ) : (pure a : Exec σ ε α) s = (.ok a, s) := rfl
@[simp] theorem fail_run (e : ε) (s : σ) : (fail e : Exec σ ε α) s = (.error e, s) := rfl
@[simp] theorem gets_run (f : σ → α) (s : σ) : (gets f : Exec σ ε α) s = (.ok (f s), s) := rfl
@[simp] theorem modify_run (f : σ → σ) (s : σ) : (modify f : Exec σ ε Unit) s = (.ok (), f s) := rfl
@[simp] theorem reads_run (f : σ → Except ε α) (s : σ) : (reads f) s = (f s, s) := rfl

variable {m m' h : Exec σ ε α} {k : α → Exec σ ε β} {p : ε → Bool} {s s' : σ} {e : ε} {a : α}

theorem bind_run (m : Exec σ ε α) (k : α → Exec σ ε β) (s : σ) : (m >>= k) s = match m s with
      | (.ok a, s') => k a s'
      | (.error e, s') => (.error e, s') := rfl

theorem bind_of_ok (h : m s = (.ok a, s')) : (m >>= k) s = k a s' := by
  simp only [bind_run, h]

theorem bind_of_error (h : m s = (.error e, s')) : (m >>= k) s = (.error e, s') := by
  simp only [bind_run, h]

@[simp] theorem pure_bind_run (a : α) (k : α → Exec σ ε β) (s : σ) : ((pure a : Exec σ ε α) >>= k) s = k a s := rfl
@[simp] theorem gets_bind_run (f : σ → α) (k : α → Exec σ ε β) (s : σ) :
    ((gets f : Exec σ ε α) >>= k) s = k (f s) s := rfl
@[simp] theorem modify_bind_run (f : σ → σ) (k : Unit → Exec σ ε β) (s : σ) :
    ((modify f : Exec σ ε Unit) >>= k) s = k () (f s) := rfl
@[simp] theorem fail_bind_run (e : ε) (k : α → Exec σ ε β) (s : σ) :
    ((fail e : Exec σ ε α) >>= k) s = (.error e, s) := rfl

theorem bind_assoc {γ : Type} (m : Exec σ ε α) (k : α → Exec σ ε β) (l : β → Exec σ ε γ) :
    m >>= k >>= l = m >>= fun a => k a >>= l := by
  funext s
  rcases hr : m s with ⟨e | a, s'⟩
  · rw [bind_of_error (bind_of_error hr), bind_of_error hr]
  · rw [bind_of_ok hr, bind_run, bind_of_ok hr]
    rfl

theorem bind_error_iff (hk : ∀ a t, ∃ b t', k a t = (.ok b, t')) :
    (m >>= k) s = (.error e, s') ↔ m s = (.error e, s') := by
  rcases hr : m s with ⟨e' | a, t⟩
  · rw [bind_of_error hr]
    simp
  · obtain ⟨b, t', hb⟩ := hk a t
    rw [bind_of_ok hr, hb]
    simp

theorem bind_ok_iff {b : β} : (m >>= k) s = (.ok b, s') ↔ ∃ a t, m s = (.ok a, t) ∧ k a t = (.ok b, s') := by
  rcases hr : m s with ⟨e | a, t⟩
  · rw [bind_of_error hr]
    simp
  · rw [bind_of_ok hr]
    constructor
    · exact fun h => ⟨a, t, rfl, h⟩
    · rintro ⟨a', t', heq, h⟩
      cases heq
      exact h

/-- run and forget the value -/
def forget (m : Exec σ ε α) : Exec σ ε Unit := m >>= fun _ => pure ()

theorem forget_of_ok (h : m s = (.ok a, s')) : forget m s = (.ok (), s') :=
  bind_of_ok h

theorem forget_of_error (h : m s = (.error e, s')) : forget m s = (.error e, s') := bind_of_error h

theorem forget_bind_pure (m : Exec σ ε α) (k : α → β) : forget (m >>= fun a => pure (k a)) = forget m := by
  funext s
  rcases hr : m s with ⟨e | a, s'⟩
  · rw [forget_of_error hr, forget_of_error (bind_of_error hr)]
  · have hk : (m >>= fun a => pure (k a)) s = (.ok (k a), s') := bind_of_ok hr
    rw [forget_of_ok hr, forget_of_ok hk]

theorem forget_onError (p : ε → Bool) (m h : Exec σ ε α) :
    forget (onError p m h) = onError p (forget m) (forget h) := by
  funext s
  rcases hr : m s with ⟨e | a, s'⟩
  · have hon : onError p m h s = if p e then h s' else (.error e, s') := by simp only [onError, hr]
    have hdis : onError p (forget m) (forget h) s = if p e then forget h s' else (.error e, s') := by
      simp only [onError, forget_of_error hr]
    rw [hdis]
    split_ifs at hon ⊢
    · rcases hh : h s' with ⟨e' | a, s''⟩
      · rw [forget_of_error (hon.trans hh), forget_of_error hh]
      · rw [forget_of_ok (hon.trans hh), forget_of_ok hh]
    · exact forget_of_error hon
  · have hon : onError p m h s = (.ok a, s') := by simp only [onError, hr]
    rw [forget_of_ok hon]
    simp only [onError, forget_of_ok hr]

/-! ## Components of the state -/

/-- `get` and `set` read and replace one component -/
structure IsLens (get : σ → τ) (set : τ → σ → σ) : Prop where
  set_get : ∀ s, set (get s) s = s
  get_set : ∀ t s, get (set t s) = t
  set_set : ∀ t t' s, set t (set t' s) = set t s

section Zoom

variable {get : σ → τ} {set : τ → σ → σ}

@[simp] theorem zoom_run (m : Exec τ ε α) (s : σ) : zoom get set m s = ((m (get s)).1, set (m (get s)).2 s) := rfl

theorem zoom_pure (hl : IsLens get set) (a : α) : zoom get set (pure a : Exec τ ε α) = pure a := by
  ext s
  · rfl
  · exact hl.set_get s

theorem zoom_bind (hl : IsLens get set) (m : Exec τ ε α) (k : α → Exec τ ε β) :
    zoom get set (m >>= k) = zoom get set m >>= fun a => zoom get set (k a) := by
  funext s
  simp only [zoom_run, bind_run]
  rcases m (get s) with ⟨e | a, t⟩
  · rfl
  · simp only [hl.get_set, hl.set_set]

theorem zoom_onError (hl : IsLens get set) (p : ε → Bool) (m h : Exec τ ε α) :
    zoom get set (onError p m h) = onError p (zoom get set m) (zoom get set h) := by
  funext s
  simp only [zoom_run, onError]
  rcases m (get s) with ⟨e | a, t⟩
  · by_cases hp : p e = true <;> simp [hp, hl.get_set, hl.set_set]
  · rfl

end Zoom

/-! ## Agreement from a set of states -/

/-- from a state in `P` the two computations do the same and stay in `P` -/
def AgreesOn (P : σ → Prop) (m₁ m₂ : Exec σ ε α) : Prop := ∀ s, P s → m₁ s = m₂ s ∧ P (m₁ s).2

namespace AgreesOn

variable {P : σ → Prop}

theorem pure (a : α) : AgreesOn P (pure a : Exec σ ε α) (Pure.pure a) := fun _ h => ⟨rfl, h⟩

theorem bind {m₁ m₂ : Exec σ ε α} {k₁ k₂ : α → Exec σ ε β} (hm : AgreesOn P m₁ m₂)
    (hk : ∀ a, AgreesOn P (k₁ a) (k₂ a)) : AgreesOn P (m₁ >>= k₁) (m₂ >>= k₂) := by
  intro s hs
  obtain ⟨heq, hp⟩ := hm s hs
  simp only [bind_run, ← heq]
  rcases hr : m₁ s with ⟨e | a, s'⟩
  · exact ⟨rfl, by simpa [hr] using hp⟩
  · exact hk a s' (by simpa [hr] using hp)

theorem onError {m₁ m₂ h₁ h₂ : Exec σ ε α} (hm : AgreesOn P m₁ m₂)
    (hh : AgreesOn P h₁ h₂) : AgreesOn P (onError p m₁ h₁) (Exec.onError p m₂ h₂) := by
  intro s hs
  obtain ⟨heq, hp⟩ := hm s hs
  simp only [Exec.onError, ← heq]
  rcases hr : m₁ s with ⟨e | a, s'⟩
  · have hs' : P s' := by simpa [hr] using hp
    by_cases hpe : p e = true
    · simpa [hpe] using hh s' hs'
    · simpa [hpe] using hs'
  · exact ⟨rfl, by simpa [hr] using hp⟩

end AgreesOn

/-! ## What an error leaves -/

/-- from a state in `P` the computation ends in `P`, with a value or an error -/
def Keeps (P : σ → Prop) (m : Exec σ ε α) : Prop := ∀ s, P s → P (m s).2

def Total (m : Exec σ ε α) : Prop := ∀ s, ∃ a s', m s = (.ok a, s')

section Keeping

variable {P : σ → Prop}

namespace Keeps

theorem pure (a : α) : Keeps P (Pure.pure a : Exec σ ε α) := fun _ h => h

theorem fail (e : ε) : Keeps P (fail e : Exec σ ε α) := fun _ h => h

theorem gets (f : σ → α) : Keeps P (gets f : Exec σ ε α) := fun _ h => h

theorem modify {f : σ → σ} (hf : ∀ s, P s → P (f s)) : Keeps P (modify f : Exec σ ε Unit) := hf

theorem bind_from (hs : P (m s).2) (hk : ∀ a, Keeps P (k a)) : P ((m >>= k) s).2 := by
  rcases hr : m s with ⟨e | a, s'⟩
  · rw [hr] at hs
    rwa [bind_of_error hr]
  · rw [hr] at hs
    rw [bind_of_ok hr]
    exact hk a s' hs

theorem bind (hm : Keeps P m) (hk : ∀ a, Keeps P (k a)) : Keeps P (m >>= k) := fun s hs => bind_from (hm s hs) hk

theorem onError (hm : Keeps P m) (hh : Keeps P h) : Keeps P (onError p m h) := by
  intro s hs
  have hs' := hm s hs
  unfold Exec.onError
  rcases hr : m s with ⟨e | a, s'⟩
  · rw [hr] at hs'
    by_cases hp : p e = true
    · simpa [hp] using hh s' hs'
    · simpa [hp] using hs'
  · rwa [hr] at hs'

theorem mapErr {g : ε → ε'} (hm : Keeps P m) : Keeps P (mapErr g m) := by
  intro s hs
  have hs' := hm s hs
  unfold Exec.mapErr
  rcases hr : m s with ⟨e | a, s'⟩ <;> rwa [hr] at hs'

theorem ite {c : Prop} [Decidable c] (hm : Keeps P m) (hm' : Keeps P m') : Keeps P (if c then m else m') := by
  split_ifs
  · exact hm
  · exact hm'

end Keeps

end Keeping

/-! ## What a computation keeps, and how it may fail -/

/-- from the state `s` the computation ends in `P`, and its error, if it has one, satisfies `Q` -/
def ObeysAt (P : σ → Prop) (Q : ε → Prop) (m : Exec σ ε α) (s : σ) : Prop :=
  P (m s).2 ∧ ∀ e, (m s).1 = .error e → Q e

/-- from a state in `P` the computation ends in `P`, and its errors satisfy `Q` -/
def Obeys (P : σ → Prop) (Q : ε → Prop) (m : Exec σ ε α) : Prop := ∀ s, P s → ObeysAt P Q m s

section Obeying

variable {P : σ → Prop} {Q : ε → Prop}

namespace ObeysAt

theorem fail (hs : P s) (he : Q e) : ObeysAt P Q (Exec.fail e : Exec σ ε α) s :=
  ⟨hs, fun _ h => Except.error.inj h ▸ he⟩

theorem modify {f : σ → σ} (hs : P (f s)) : ObeysAt P Q (Exec.modify f : Exec σ ε Unit) s :=
  ⟨hs, fun _ h => nomatch h⟩

theorem gets_bind {f : σ → α} (hk : ObeysAt P Q (k (f s)) s) : ObeysAt P Q (Exec.gets f >>= k) s := hk

theorem bind (hm : ObeysAt P Q m s) (hk : ∀ a, Obeys P Q (k a)) : ObeysAt P Q (m >>= k) s := by
  obtain ⟨hp, hq⟩ := hm
  unfold ObeysAt
  rcases hr : m s with ⟨e | a, t⟩
  · rw [hr] at hp hq
    rw [Exec.bind_of_error hr]
    exact ⟨hp, fun e' he => hq e' (congrArg Except.error (Except.error.inj he))⟩
  · rw [hr] at hp
    rw [Exec.bind_of_ok hr]
    exact hk a t hp

theorem ite {c : Prop} [Decidable c] (hm : c → ObeysAt P Q m s) (hm' : ¬ c → ObeysAt P Q m' s) :
    ObeysAt P Q (if c then m else m') s := by
  split_ifs with h
  · exact hm h
  · exact hm' h

end ObeysAt

namespace Obeys

theorem pure (a : α) : Obeys P Q (Pure.pure a : Exec σ ε α) := fun _ hs => ⟨hs, fun _ h => nomatch h⟩

theorem fail (he : Q e) : Obeys P Q (Exec.fail e : Exec σ ε α) := fun _ hs => .fail hs he

theorem gets (f : σ → α) : Obeys P Q (Exec.gets f : Exec σ ε α) := fun _ hs => ⟨hs, fun _ h => nomatch h⟩

theorem modify {f : σ → σ} (hf : ∀ s, P s → P (f s)) : Obeys P Q (Exec.modify f : Exec σ ε Unit) :=
  fun s hs => .modify (hf s hs)

theorem bind (hm : Obeys P Q m) (hk : ∀ a, Obeys P Q (k a)) : Obeys P Q (m >>= k) := fun s hs => (hm s hs).bind hk

theorem ite {c : Prop} [Decidable c] (hm : Obeys P Q m) (hm' : Obeys P Q m') :
    Obeys P Q (if c then m else m') := fun s hs => .ite (fun _ => hm s hs) fun _ => hm' s hs

end Obeys

theorem Keeps.obeys_mapErr {Q : ε' → Prop} {g : ε → ε'} (hm : Keeps P m) (hg : ∀ e, Q (g e)) :
    Obeys P Q (Exec.mapErr g m) := by
  intro s hs
  refine ⟨hm.mapErr s hs, fun e he => ?_⟩
  unfold Exec.mapErr at he
  rcases hr : m s with ⟨e' | a, t⟩
  · rw [hr] at he
    cases he
    exact hg e'
  · rw [hr] at he
    cases he

end Obeying

/-! ## The error of one run -/

/-- the error of the computation from `s`, if there is one, satisfies `Q` -/
def ErrAt (Q : ε → Prop) (m : Exec σ ε α) (s : σ) : Prop := ∀ e s', m s = (.error e, s') → Q e

namespace ErrAt

variable {Q : ε → Prop}

theorem congr (h : m s = m' s) : ErrAt Q m s ↔ ErrAt Q m' s := by
  unfold ErrAt
  rw [h]

theorem modify (f : σ → σ) : ErrAt Q (modify f : Exec σ ε Unit) s := fun _ _ h => nomatch h

theorem gets (f : σ → α) : ErrAt Q (gets f : Exec σ ε α) s := fun _ _ h => nomatch h

theorem fail_iff : ErrAt Q (fail e : Exec σ ε α) s ↔ Q e :=
  ⟨fun h => h e s rfl, fun h _ _ he => Except.error.inj (congrArg Prod.fst he) ▸ h⟩

theorem bind_iff : ErrAt Q (m >>= k) s ↔ ErrAt Q m s ∧ ∀ a s', m s = (.ok a, s') → ErrAt Q (k a) s' := by
  rcases hr : m s with ⟨e | a, t⟩
  · constructor
    · intro h
      refine ⟨fun e' s' he => h e' s' ?_, fun a s' ha => (by cases ha)⟩
      rw [hr] at he
      cases he
      exact bind_of_error hr
    · rintro ⟨hm, -⟩ e' s' he
      rw [bind_of_error hr] at he
      cases he
      exact hm e t hr
  · constructor
    · intro h
      refine ⟨fun e' s' he => ?_, fun a' s' ha e' s'' he => h e' s'' ?_⟩
      · rw [hr] at he
        cases he
      · cases ha
        rw [bind_of_ok hr]
        exact he
    · rintro ⟨-, hk⟩ e' s' he
      rw [bind_of_ok hr] at he
      exact hk a t rfl e' s' he

theorem onError_iff : ErrAt Q (Exec.onError p m h) s ↔
      ErrAt (fun e => p e = false → Q e) m s ∧ ∀ e s', m s = (.error e, s') → p e = true → ErrAt Q h s' := by
  unfold ErrAt Exec.onError
  rcases m s with ⟨e | a, t⟩
  · dsimp only
    by_cases hp : p e = true
    · rw [if_pos hp]
      constructor
      · intro hh
        refine ⟨fun e' s' he hf => ?_, fun e' s' he _ => ?_⟩
        · cases he
          rw [hp] at hf
          cases hf
        · cases he
          exact hh
      · exact fun hh => hh.2 e t rfl hp
    · rw [if_neg hp]
      constructor
      · intro hh
        refine ⟨fun e' s' he _ => hh e' s' he, fun e' s' he hp' => ?_⟩
        cases he
        exact absurd hp' hp
      · intro hh e' s' he
        cases he
        exact hh.1 e t rfl (by simpa using hp)
  · constructor
    · exact fun _ => ⟨fun _ _ he => (nomatch he), fun _ _ he => (nomatch he)⟩
    · exact fun _ _ _ he => nomatch he

end ErrAt

end Exec
