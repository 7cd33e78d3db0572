import Lobbyboy.Foundation.Program

/-! Programs among changes that others make to the state. A program that commutes with the
changes does what it does alone, however many of them come between its steps: it ends in
the same way, with the state that the changes make of its own. -/

namespace Lobbyboy.Foundation

universe u

variable {ε σ α β : Type u}

/-- Changes of the state, of which one may follow another. -/
structure Changes (σ : Type u) where
  mem : (σ → σ) → Prop
  id : mem id
  comp : ∀ {f g}, mem f → mem g → mem (g ∘ f)

/-- The same end with a changed state. -/
def changed (f : σ → σ) : EStateM.Result ε σ α → EStateM.Result ε σ α
  | .ok a s => .ok a (f s)
  | .error e s => .error e (f s)

theorem changed_changed (f g : σ → σ) (r : EStateM.Result ε σ α) :
    changed g (changed f r) = changed (g ∘ f) r := by
  cases r <;> rfl

/-- It does not matter whether a change comes before or after the program. -/
def Commutes (C : Changes σ) (p : EStateM ε σ α) : Prop :=
  ∀ f, C.mem f → ∀ s, p (f s) = changed f (p s)

variable {C : Changes σ}

namespace Commutes

theorem pure (a : α) : Commutes C (Pure.pure a : EStateM ε σ α) := fun _ _ _ => rfl

theorem throw (e : ε) : Commutes C (MonadExcept.throw e : EStateM ε σ α) := fun _ _ _ => rfl

theorem modify {g : σ → σ} (h : ∀ f, C.mem f → ∀ s, g (f s) = f (g s)) :
    Commutes C (modify g : EStateM ε σ PUnit) := by
  intro f hf s
  change EStateM.Result.ok PUnit.unit (g (f s)) = .ok PUnit.unit (f (g s))
  rw [h f hf]

theorem bind {p : EStateM ε σ α} {k : α → EStateM ε σ β} (hp : Commutes C p)
    (hk : ∀ a, Commutes C (k a)) : Commutes C (p >>= k) := by
  intro f hf s
  rw [bind_apply, bind_apply, hp f hf]
  cases p s with
  | ok a s' => exact hk a f hf s'
  | error e s' => rfl

/-- A part of the state is read that the changes leave alone. -/
theorem get_bind {k : σ → EStateM ε σ β} (hk : ∀ s, Commutes C (k s))
    (h : ∀ f, C.mem f → ∀ s, k (f s) = k s) : Commutes C (get >>= k) := by
  intro f hf s
  change k (f s) (f s) = changed f (k s s)
  rw [h f hf, hk s f hf]

theorem ite {c : Prop} [Decidable c] {p q : EStateM ε σ α} (hp : Commutes C p)
    (hq : Commutes C q) : Commutes C (if c then p else q) := by
  split_ifs <;> assumption

theorem tryCatch {p : EStateM ε σ α} {h : ε → EStateM ε σ α} (hp : Commutes C p)
    (hh : ∀ e, Commutes C (h e)) : Commutes C (tryCatch p h) := by
  intro f hf s
  rw [tryCatch_apply, tryCatch_apply, hp f hf]
  cases p s with
  | ok a s' => rfl
  | error e s' => exact hh e f hf s'

end Commutes

/-- `q` is `p` with changes between its steps. -/
inductive Amid (C : Changes σ) : {α : Type u} → EStateM ε σ α → EStateM ε σ α → Prop
  | step {α : Type u} {p : EStateM ε σ α} : Commutes C p → Amid C p p
  | change {α : Type u} {p q : EStateM ε σ α} {f : σ → σ} :
      C.mem f → Amid C p q → Amid C p (do modify f; q)
  | bind {α β : Type u} {p q : EStateM ε σ α} {k l : α → EStateM ε σ β} :
      Amid C p q → (∀ a, Amid C (k a) (l a)) → Amid C (p >>= k) (q >>= l)
  | handle {α : Type u} {p q : EStateM ε σ α} {k l : ε → EStateM ε σ α} :
      Amid C p q → (∀ e, Amid C (k e) (l e)) → Amid C (tryCatch p k) (tryCatch q l)

namespace Amid

theorem commutes {p q : EStateM ε σ α} (h : Amid C p q) : Commutes C p := by
  induction h with
  | step hp => exact hp
  | change _ _ ih => exact ih
  | bind _ _ ih ihk => exact ih.bind ihk
  | handle _ _ ih ihk => exact ih.tryCatch ihk

/-- The program ends as it does alone, up to a change of the state. -/
theorem eq_changed {p q : EStateM ε σ α} (h : Amid C p q) (s : σ) :
    ∃ f, C.mem f ∧ q s = changed f (p s) := by
  induction h generalizing s with
  | @step _ p hp =>
    refine ⟨id, C.id, ?_⟩
    cases p s <;> rfl
  | @change _ p q f hf h ih =>
    obtain ⟨g, hg, hq⟩ := ih (f s)
    refine ⟨g ∘ f, C.comp hf hg, ?_⟩
    change q (f s) = _
    rw [hq, h.commutes f hf, changed_changed]
  | @bind _ _ p q k l h hk ih ihk =>
    obtain ⟨f, hf, hq⟩ := ih s
    rw [bind_apply, bind_apply, hq]
    cases p s with
    | ok a s' =>
      obtain ⟨g, hg, hl⟩ := ihk a (f s')
      refine ⟨g ∘ f, C.comp hf hg, ?_⟩
      change l a (f s') = changed (g ∘ f) (k a s')
      rw [hl, (hk a).commutes f hf, changed_changed]
    | error e s' => exact ⟨f, hf, rfl⟩
  | @handle _ p q k l h hk ih ihk =>
    obtain ⟨f, hf, hq⟩ := ih s
    rw [tryCatch_apply, tryCatch_apply, hq]
    cases p s with
    | ok a s' => exact ⟨f, hf, rfl⟩
    | error e s' =>
      obtain ⟨g, hg, hl⟩ := ihk e (f s')
      refine ⟨g ∘ f, C.comp hf hg, ?_⟩
      change l e (f s') = changed (g ∘ f) (k e s')
      rw [hl, (hk e).commutes f hf, changed_changed]

/-- What holds of the program alone and is kept by the changes holds among them. -/
theorem wp_of {p q : EStateM ε σ α} {Q : α → σ → Prop} {E : ε → σ → Prop} {s : σ}
    (h : Amid C p q) (hp : wp p Q E s) (hQ : ∀ f, C.mem f → ∀ a s', Q a s' → Q a (f s'))
    (hE : ∀ f, C.mem f → ∀ e s', E e s' → E e (f s')) : wp q Q E s := by
  obtain ⟨f, hf, hq⟩ := h.eq_changed s
  cases hs : p s with
  | ok a s' =>
    rw [hs] at hq
    exact (wp_eq_ok hq).mpr (hQ f hf a s' ((wp_eq_ok hs).mp hp))
  | error e s' =>
    rw [hs] at hq
    exact (wp_eq_error hq).mpr (hE f hf e s' ((wp_eq_error hs).mp hp))

end Amid

end Lobbyboy.Foundation
