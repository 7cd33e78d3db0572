import Lobbyboy.Foundation.Program
import Mathlib.Data.Nat.Notation
import Mathlib.Tactic.ByContra

/-! Loops that are cut off after a number of passes. The body goes on with a new value or
leaves the loop with a result; a loop that has been left, or has raised, is not changed by
more passes, so it either ends or is still running after every number of them. -/

namespace Lobbyboy.Foundation

universe u

variable {ε σ α β : Type u} (body : α → EStateM ε σ (α ⊕ β))

/-- `inl` is the value with which the next pass would begin. -/
def passes : ℕ → α → EStateM ε σ (α ⊕ β)
  | 0, a => pure (.inl a)
  | n + 1, a => do
    match ← body a with
    | .inl a' => passes n a'
    | .inr b => pure (.inr b)

theorem passes_succ (n : ℕ) (a : α) (s : σ) :
    passes body (n + 1) a s =
      match body a s with
      | .ok (.inl a') s' => passes body n a' s'
      | .ok (.inr b) s' => .ok (.inr b) s'
      | .error e s' => .error e s' := by
  rw [passes, bind_apply]
  cases body a s with
  | error e s' => rfl
  | ok r s' => cases r <;> rfl

theorem passes_add (m n : ℕ) (a : α) (s : σ) :
    passes body (m + n) a s =
      match passes body m a s with
      | .ok (.inl a') s' => passes body n a' s'
      | .ok (.inr b) s' => .ok (.inr b) s'
      | .error e s' => .error e s' := by
  induction m generalizing a s with
  | zero => rw [Nat.zero_add]; rfl
  | succ m ih =>
    rw [Nat.add_right_comm, passes_succ, passes_succ]
    cases body a s with
    | error e s' => rfl
    | ok r s' =>
      cases r with
      | inl a' => exact ih a' s'
      | inr b => rfl

/-- The loop goes on with `a'` after that many passes. -/
def RunningAfter (n : ℕ) (a : α) (s : σ) (a' : α) (s' : σ) : Prop :=
  passes body n a s = .ok (.inl a') s'

/-- After enough passes the loop has been left, or has raised. -/
def LoopEnds (a : α) (s : σ) : Prop := ∃ n, ∀ a' s', ¬ RunningAfter body n a s a' s'

variable {body} {a a' : α} {s s' : σ}

theorem RunningAfter.add {m n : ℕ} {a₁ : α} {s₁ : σ} (h : RunningAfter body m a s a₁ s₁)
    (h' : RunningAfter body n a₁ s₁ a' s') : RunningAfter body (m + n) a s a' s' := by
  unfold RunningAfter at *
  rw [passes_add, h]
  exact h'

theorem RunningAfter.of_add {m n : ℕ} (h : RunningAfter body (m + n) a s a' s') :
    ∃ a₁ s₁, RunningAfter body m a s a₁ s₁ ∧ RunningAfter body n a₁ s₁ a' s' := by
  unfold RunningAfter at *
  rw [passes_add] at h
  cases hm : passes body m a s with
  | error e s₁ => rw [hm] at h; cases h
  | ok r s₁ =>
    rw [hm] at h
    cases r with
    | inl a₁ => exact ⟨a₁, s₁, rfl, h⟩
    | inr b => cases h

theorem runningAfter_one : RunningAfter body 1 a s a' s' ↔ body a s = .ok (.inl a') s' := by
  unfold RunningAfter
  rw [passes_succ]
  cases body a s with
  | error e s₁ => simp
  | ok r s₁ => cases r <;> simp [passes, pure, EStateM.pure]

/-- One pass does not change whether the loop ends. -/
theorem loopEnds_iff_of_pass (h : body a s = .ok (.inl a') s') :
    LoopEnds body a s ↔ LoopEnds body a' s' := by
  constructor
  · rintro ⟨n, hn⟩
    refine ⟨n, fun a₂ s₂ h₂ => ?_⟩
    have hrun := (runningAfter_one.mpr h).add h₂
    rw [Nat.add_comm] at hrun
    obtain ⟨a₁, s₁, h₁, -⟩ := hrun.of_add
    exact hn _ _ h₁
  · rintro ⟨n, hn⟩
    refine ⟨1 + n, fun a₂ s₂ h₂ => ?_⟩
    obtain ⟨a₁, s₁, h₁, h₂⟩ := h₂.of_add
    cases (runningAfter_one.mp h₁).symm.trans h
    exact hn _ _ h₂

/-- A loop that ends is running for a bounded number of passes. -/
theorem LoopEnds.exists_bound (h : LoopEnds body a s) :
    ∃ bound, ∀ n a' s', RunningAfter body n a s a' s' → n ≤ bound := by
  obtain ⟨bound, hends⟩ := h
  refine ⟨bound, fun n a' s' hn => ?_⟩
  by_contra hlt
  rw [← Nat.add_sub_cancel' (Nat.le_of_not_ge fun hge => hlt hge)] at hn
  obtain ⟨a₁, s₁, h₁, -⟩ := hn.of_add
  exact hends a₁ s₁ h₁

/-- What every pass keeps holds as long as the loop runs. -/
theorem RunningAfter.invariant {P : ℕ → α → Prop}
    (hbody : ∀ n a s a' s', P n a → body a s = .ok (.inl a') s' → P (n + 1) a') {k n : ℕ}
    (hk : P k a) (h : RunningAfter body n a s a' s') : P (k + n) a' := by
  induction n generalizing k a s with
  | zero =>
    cases h
    exact hk
  | succ n ih =>
    unfold RunningAfter at h
    rw [passes_succ] at h
    cases hb : body a s with
    | error e s₁ => rw [hb] at h; cases h
    | ok r s₁ =>
      rw [hb] at h
      cases r with
      | inl a₁ =>
        have hn : P (k + 1 + n) a' := ih (hbody k a s a₁ s₁ hk hb) h
        rwa [Nat.add_assoc, Nat.add_comm 1] at hn
      | inr b => cases h

/-- What every pass keeps of value and state holds as long as the loop runs. -/
theorem RunningAfter.keeps {P : α → σ → Prop}
    (hbody : ∀ {a s a' s'}, P a s → body a s = .ok (.inl a') s' → P a' s') {n : ℕ}
    (ha : P a s) (h : RunningAfter body n a s a' s') : P a' s' := by
  induction n generalizing a s with
  | zero =>
    cases h
    exact ha
  | succ n ih =>
    rw [Nat.add_comm] at h
    obtain ⟨a₁, s₁, h₁, h₂⟩ := h.of_add
    exact ih (hbody ha (runningAfter_one.mp h₁)) h₂

/-! ### What the passes note -/

section Noted

variable {γ : Type u} (note : α → σ → γ)

variable (body) in
/-- A note for each pass, made of the value and the state in which it begins. -/
def noted : ℕ → α → σ → List γ
  | 0, _, _ => []
  | n + 1, a, s =>
    note a s ::
      match body a s with
      | .ok (.inl a') s' => noted n a' s'
      | _ => []

/-- What every pass keeps of the state and the notes so far. -/
theorem RunningAfter.keeps_noted {P : σ → List γ → Prop}
    (hbody : ∀ {a s a' s' notes}, P s notes → body a s = .ok (.inl a') s' →
      P s' (notes ++ [note a s])) {n : ℕ} {notes : List γ} (hs : P s notes)
    (h : RunningAfter body n a s a' s') : P s' (notes ++ noted body note n a s) := by
  induction n generalizing a s notes with
  | zero =>
    cases h
    rw [noted, List.append_nil]
    exact hs
  | succ n ih =>
    rw [Nat.add_comm] at h
    obtain ⟨a₁, s₁, h₁, h₂⟩ := h.of_add
    have hpass := runningAfter_one.mp h₁
    have hnotes := ih (hbody hs hpass) h₂
    rw [List.append_assoc, List.singleton_append] at hnotes
    rw [noted, hpass]
    exact hnotes

end Noted

end Lobbyboy.Foundation
