import Mathlib.Logic.Basic
import Mathlib.Tactic.SplitIfs

/-! Programs with a state and exceptions, where an exception does not undo what was done
to the state. `wp` states what holds of every way a program ends, and has one rule for
each way to build a program. A frame is a preorder between the states before and after;
what each step keeps, the whole program keeps. -/

namespace Lobbyboy.Foundation

universe u

variable {ε σ α β : Type u}

/-- The program returns and `Q` holds, or it raises and `E` holds. -/
def wp (p : EStateM ε σ α) (Q : α → σ → Prop) (E : ε → σ → Prop) (s : σ) : Prop :=
  match p s with
  | .ok a s' => Q a s'
  | .error e s' => E e s'

theorem bind_apply (p : EStateM ε σ α) (f : α → EStateM ε σ β) (s : σ) :
    (p >>= f) s =
      match p s with
      | .ok a s' => f a s'
      | .error e s' => .error e s' := by
  change EStateM.bind p f s = _
  unfold EStateM.bind
  cases p s <;> rfl

theorem tryCatch_apply (p : EStateM ε σ α) (h : ε → EStateM ε σ α) (s : σ) :
    (tryCatch p h : EStateM ε σ α) s =
      match p s with
      | .ok a s' => .ok a s'
      | .error e s' => h e s' := by
  change EStateM.tryCatch p h s = _
  unfold EStateM.tryCatch
  cases p s <;> rfl

section Rules

variable {Q : α → σ → Prop} {E : ε → σ → Prop} {s : σ}

@[simp] theorem wp_pure (a : α) : wp (pure a : EStateM ε σ α) Q E s ↔ Q a s := Iff.rfl

@[simp] theorem wp_throw (e : ε) : wp (throw e : EStateM ε σ α) Q E s ↔ E e s := Iff.rfl

@[simp] theorem wp_get {Q : σ → σ → Prop} : wp (get : EStateM ε σ σ) Q E s ↔ Q s s := Iff.rfl

@[simp] theorem wp_set {Q : PUnit → σ → Prop} (s' : σ) :
    wp (set s' : EStateM ε σ PUnit) Q E s ↔ Q ⟨⟩ s' := Iff.rfl

@[simp] theorem wp_modify {Q : PUnit → σ → Prop} (f : σ → σ) :
    wp (modify f : EStateM ε σ PUnit) Q E s ↔ Q ⟨⟩ (f s) := Iff.rfl

@[simp] theorem wp_bind {Q : β → σ → Prop} (p : EStateM ε σ α) (f : α → EStateM ε σ β) :
    wp (p >>= f) Q E s ↔ wp p (fun a s' => wp (f a) Q E s') E s := by
  unfold wp
  rw [bind_apply]
  cases p s <;> rfl

@[simp] theorem wp_map {Q : β → σ → Prop} (f : α → β) (p : EStateM ε σ α) :
    wp (f <$> p) Q E s ↔ wp p (fun a s' => Q (f a) s') E s := by
  change (match EStateM.map f p s with | .ok b s' => Q b s' | .error e s' => E e s') ↔ _
  unfold EStateM.map wp
  cases p s <;> rfl

@[simp] theorem wp_tryCatch (p : EStateM ε σ α) (h : ε → EStateM ε σ α) :
    wp (tryCatch p h) Q E s ↔ wp p Q (fun e s' => wp (h e) Q E s') s := by
  unfold wp
  rw [tryCatch_apply]
  cases p s <;> rfl

@[simp] theorem wp_liftExcept (x : Except ε α) :
    wp (liftExcept x : EStateM ε σ α) Q E s ↔
      (∀ a, x = .ok a → Q a s) ∧ ∀ e, x = .error e → E e s := by
  cases x <;> simp [liftExcept]

@[simp] theorem wp_ite (c : Prop) [Decidable c] (p q : EStateM ε σ α) :
    wp (if c then p else q) Q E s ↔ if c then wp p Q E s else wp q Q E s := by
  split_ifs <;> rfl

theorem wp_mono {p : EStateM ε σ α} {Q' : α → σ → Prop} {E' : ε → σ → Prop} (h : wp p Q E s)
    (hQ : ∀ a s', Q a s' → Q' a s') (hE : ∀ e s', E e s' → E' e s') : wp p Q' E' s := by
  unfold wp at h ⊢
  split
  · next h' => rw [h'] at h; exact hQ _ _ h
  · next h' => rw [h'] at h; exact hE _ _ h

theorem wp_and {p : EStateM ε σ α} {Q' : α → σ → Prop} {E' : ε → σ → Prop} (h : wp p Q E s)
    (h' : wp p Q' E' s) : wp p (fun a s' => Q a s' ∧ Q' a s') (fun e s' => E e s' ∧ E' e s') s := by
  unfold wp at *
  cases hp : p s with
  | ok a s' =>
    rw [hp] at h h'
    exact ⟨h, h'⟩
  | error e s' =>
    rw [hp] at h h'
    exact ⟨h, h'⟩

theorem wp_iff {p : EStateM ε σ α} :
    wp p Q E s ↔ (∀ a s', p s = .ok a s' → Q a s') ∧ ∀ e s', p s = .error e s' → E e s' := by
  unfold wp
  cases p s <;> simp

/-- What is known of the end without looking into the program. -/
theorem wp_self (p : EStateM ε σ α) (s : σ) :
    wp p (fun a s' => p s = .ok a s') (fun e s' => p s = .error e s') s :=
  wp_iff.mpr ⟨fun _ _ h => h, fun _ _ h => h⟩

theorem wp_of_ok {p : EStateM ε σ α} {a : α} {s' : σ} (h : wp p Q E s) (hp : p s = .ok a s') :
    Q a s' := (wp_iff.mp h).1 a s' hp

theorem wp_of_error {p : EStateM ε σ α} {e : ε} {s' : σ} (h : wp p Q E s) (hp : p s = .error e s') :
    E e s' := (wp_iff.mp h).2 e s' hp

theorem wp_eq_ok {p : EStateM ε σ α} {a : α} {s' : σ} (hp : p s = .ok a s') :
    wp p Q E s ↔ Q a s' := by
  unfold wp
  rw [hp]

theorem wp_eq_error {p : EStateM ε σ α} {e : ε} {s' : σ} (hp : p s = .error e s') :
    wp p Q E s ↔ E e s' := by
  unfold wp
  rw [hp]

theorem eq_ok_of_wp {p : EStateM ε σ α} {a : α} {s' : σ}
    (h : wp p (fun b s₁ => b = a ∧ s₁ = s') (fun _ _ => False) s) : p s = .ok a s' := by
  unfold wp at h
  split at h
  · next hp => rw [hp, h.1, h.2]
  · exact h.elim

theorem exists_ok_of_wp {p : EStateM ε σ α} (h : wp p Q (fun _ _ => False) s) :
    ∃ a s', p s = .ok a s' ∧ Q a s' := by
  unfold wp at h
  split at h
  · next hp => exact ⟨_, _, hp, h⟩
  · exact h.elim

/-- A program ends in one way. -/
theorem wp_absurd {p : EStateM ε σ α} {Q' : α → σ → Prop} {E' : ε → σ → Prop} (h : wp p Q E s)
    (h' : wp p Q' E' s) (hQ : ∀ a s', Q a s' → ¬ Q' a s') (hE : ∀ e s', E e s' → ¬ E' e s') :
    False := by
  unfold wp at h h'
  split at h
  · next hp =>
    rw [hp] at h'
    exact hQ _ _ h h'
  · next hp =>
    rw [hp] at h'
    exact hE _ _ h h'

/-- Two runs with one outcome. -/
theorem wp_congr {p q : EStateM ε σ α} {s' : σ} (h : p s = q s') : wp p Q E s ↔ wp q Q E s' := by
  unfold wp
  rw [h]

end Rules

-- Nothing is gained by running a program to find out what its `wp` means.
attribute [irreducible] wp

/-! ### Frames -/

/-- A preorder between the state before and the state after. -/
structure Frame (σ : Type u) where
  rel : σ → σ → Prop
  refl : ∀ s, rel s s
  trans : ∀ {s₁ s₂ s₃}, rel s₁ s₂ → rel s₂ s₃ → rel s₁ s₃

/-- However the program ends, the states before and after are related. -/
def Keeps (R : Frame σ) (p : EStateM ε σ α) : Prop :=
  ∀ s, wp p (fun _ s' => R.rel s s') (fun _ s' => R.rel s s') s

namespace Keeps

variable {R : Frame σ}

theorem mono {R' : Frame σ} {p : EStateM ε σ α} (hp : Keeps R p)
    (h : ∀ {s s'}, R.rel s s' → R'.rel s s') : Keeps R' p :=
  fun s => wp_mono (hp s) (fun _ _ => h) (fun _ _ => h)

theorem pure (a : α) : Keeps R (Pure.pure a : EStateM ε σ α) :=
  fun s => (wp_pure a).mpr (R.refl s)

theorem throw (e : ε) : Keeps R (MonadExcept.throw e : EStateM ε σ α) :=
  fun s => (wp_throw e).mpr (R.refl s)

theorem get : Keeps R (MonadState.get : EStateM ε σ σ) := fun s => wp_get.mpr (R.refl s)

theorem modify {f : σ → σ} (h : ∀ s, R.rel s (f s)) : Keeps R (modify f : EStateM ε σ PUnit) :=
  fun s => (wp_modify f).mpr (h s)

theorem bind {p : EStateM ε σ α} {f : α → EStateM ε σ β} (hp : Keeps R p)
    (hf : ∀ a, Keeps R (f a)) : Keeps R (p >>= f) := by
  intro s
  rw [wp_bind]
  apply wp_mono (hp s)
  · intro a s₁ h
    exact wp_mono (hf a s₁) (fun _ _ => R.trans h) (fun _ _ => R.trans h)
  · exact fun _ _ h => h

/-- One more step of a program that has kept the frame since `s₀`. -/
theorem seq {p : EStateM ε σ α} {f : α → EStateM ε σ β} {s₀ s : σ} {Q : β → σ → Prop}
    {E : ε → σ → Prop} (hp : Keeps R p) (h : R.rel s₀ s) (hE : ∀ e s', R.rel s₀ s' → E e s')
    (hf : ∀ a s', R.rel s₀ s' → wp (f a) Q E s') : wp (p >>= f) Q E s := by
  rw [wp_bind]
  apply wp_mono (hp s)
  · intro a s' h'
    exact hf a s' (R.trans h h')
  · intro e s' h'
    exact hE e s' (R.trans h h')

theorem ite {c : Prop} [Decidable c] {p q : EStateM ε σ α} (hp : Keeps R p) (hq : Keeps R q) :
    Keeps R (if c then p else q) := by
  split_ifs <;> assumption

theorem tryCatch {p : EStateM ε σ α} {h : ε → EStateM ε σ α} (hp : Keeps R p)
    (hh : ∀ e, Keeps R (h e)) : Keeps R (tryCatch p h) := by
  intro s
  rw [wp_tryCatch]
  exact wp_mono (hp s) (fun _ _ h => h)
    (fun e s₁ h => wp_mono (hh e s₁) (fun _ _ => R.trans h) (fun _ _ => R.trans h))

end Keeps

end Lobbyboy.Foundation
