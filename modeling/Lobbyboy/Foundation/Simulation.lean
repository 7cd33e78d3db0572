import Lobbyboy.Foundation.Program
import Lobbyboy.Foundation.Transition

/-! A program as one party of a system of steps. The program follows the system if,
whatever it has done when it ends, the system can get from where it was to a matching
state. A step that does not show in the system is matched by no step. -/

namespace Lobbyboy.Foundation

universe u v

/-! ### Where a system can get -/

section Reaching

variable {σ : Type u} {α β : Type v}

/-- Some run of actions that meet `C` leads there. -/
def reaching (step : σ → α → Option σ) (C : α → Prop) : Frame σ where
  rel s s' := ∃ as, (∀ a ∈ as, C a) ∧ run step s as = some s'
  refl s := ⟨[], by simp, rfl⟩
  trans := by
    rintro s₁ s₂ s₃ ⟨as, hC, hrun⟩ ⟨bs, hC', hrun'⟩
    exact ⟨as ++ bs, List.forall_mem_append.mpr ⟨hC, hC'⟩, by rw [run_append hrun, hrun']⟩

theorem reaching_step {step : σ → α → Option σ} {C : α → Prop} {s s' : σ} {a : α} (hC : C a)
    (h : step s a = some s') : (reaching step C).rel s s' :=
  ⟨[a], by simpa using hC, by rw [run_cons, h]; rfl⟩

/-- The steps of a system, and moves that others make in between. -/
def amid (step : σ → α → Option σ) (move : σ → β → σ) (s : σ) : α ⊕ β → Option σ :=
  Sum.elim (step s) fun b => some (move s b)

/-- Moves that change nothing may be left out. -/
theorem run_of_amid {step : σ → α → Option σ} {move : σ → β → σ} (hmove : ∀ s b, move s b = s)
    {as : List (α ⊕ β)} {s s' : σ} (h : run (amid step move) s as = some s') :
    run step s (as.filterMap Sum.getLeft?) = some s' := by
  induction as generalizing s with
  | nil => exact h
  | cons a as ih =>
    rw [run_cons, Option.bind_eq_some_iff] at h
    obtain ⟨s₁, h₁, h⟩ := h
    cases a with
    | inl a =>
      change step s a = some s₁ at h₁
      change run step s (a :: as.filterMap Sum.getLeft?) = some s'
      rw [run_cons, h₁]
      exact ih h
    | inr b =>
      cases h₁
      rw [hmove] at h
      exact ih h

end Reaching

/-! ### What a run shows -/

section Showing

variable {σ : Type u} {α β : Type v}

/-- What the actions of a run show, one after another. -/
def seen (step : σ → α → Option σ) (shows : σ → α → List β) (s : σ) : List α → List β
  | [] => []
  | a :: as => shows s a ++ (step s a).elim [] fun s' => seen step shows s' as

/-- The system, and what it has shown so far. -/
def watched (step : σ → α → Option σ) (shows : σ → α → List β) (x : σ × List β) (a : α) :
    Option (σ × List β) :=
  (step x.1 a).map fun s' => (s', x.2 ++ shows x.1 a)

theorem run_of_watched {step : σ → α → Option σ} {shows : σ → α → List β} {x x' : σ × List β}
    {as : List α} (h : run (watched step shows) x as = some x') :
    run step x.1 as = some x'.1 ∧ x'.2 = x.2 ++ seen step shows x.1 as := by
  induction as generalizing x with
  | nil =>
    cases h
    exact ⟨rfl, (List.append_nil _).symm⟩
  | cons a as ih =>
    rw [run_cons, Option.bind_eq_some_iff] at h
    obtain ⟨x₁, h₁, h⟩ := h
    obtain ⟨s₁, hs₁, rfl⟩ := Option.map_eq_some_iff.mp h₁
    obtain ⟨hrun, hseen⟩ := ih h
    rw [run_cons, seen, hs₁]
    exact ⟨hrun, by rw [hseen, List.append_assoc]; rfl⟩

/-- What ties the state to what has been made of the shown, kept by every step that meets
`C`, ties them after a run. -/
theorem seen_invariant {τ : Type*} {step : σ → α → Option σ} {shows : σ → α → List β}
    {apply : τ → β → τ} {C : α → Prop} {R : σ → τ → Prop}
    (hstep : ∀ {s a s' x}, C a → R s x → step s a = some s' → R s' ((shows s a).foldl apply x))
    {as : List α} {s s' : σ} {x : τ} (hC : ∀ a ∈ as, C a) (hs : R s x)
    (hr : run step s as = some s') : R s' ((seen step shows s as).foldl apply x) := by
  induction as generalizing s x with
  | nil =>
    cases hr
    exact hs
  | cons a as ih =>
    rw [run_cons, Option.bind_eq_some_iff] at hr
    obtain ⟨s₁, h₁, hr⟩ := hr
    rw [List.forall_mem_cons] at hC
    rw [seen, h₁, List.foldl_append]
    exact ih hC.2 (hstep hC.1 hs h₁) hr

/-- Where each step does to the abstract state what it shows, so does a run. -/
theorem seen_foldl {τ : Type*} {step : σ → α → Option σ} {shows : σ → α → List β} {abs : σ → τ}
    {apply : τ → β → τ} {P : σ → Prop}
    (hstep : ∀ {s a s'}, P s → step s a = some s' →
      P s' ∧ abs s' = (shows s a).foldl apply (abs s))
    {as : List α} {s s' : σ} (hs : P s) (hr : run step s as = some s') :
    abs s' = (seen step shows s as).foldl apply (abs s) := by
  refine (seen_invariant (C := fun _ => True) (R := fun s x => P s ∧ abs s = x) ?_
    (fun _ _ => trivial) ⟨hs, rfl⟩ hr).2
  rintro s a s' x - ⟨hP, rfl⟩ h
  exact hstep hP h

end Showing

/-! ### Programs -/

section Program

variable {ε ω α β : Type u} {σ : Type v} {R : Frame σ}

/-- However the program ends, the system gets to a state that goes with it. -/
def Follows (R : Frame σ) (p : EStateM ε ω α) (Q : α → ω → σ → Prop) (E : ε → ω → σ → Prop)
    (w : ω) (s : σ) : Prop :=
  wp p (fun a w' => ∃ s', R.rel s s' ∧ Q a w' s') (fun e w' => ∃ s', R.rel s s' ∧ E e w' s') w

namespace Follows

variable {Q : α → ω → σ → Prop} {E : ε → ω → σ → Prop} {w : ω} {s s₁ : σ}

theorem pure {a : α} (h : Q a w s) : Follows R (Pure.pure a : EStateM ε ω α) Q E w s :=
  (wp_pure a).mpr ⟨s, R.refl s, h⟩

theorem throw {e : ε} (h : E e w s) : Follows R (MonadExcept.throw e : EStateM ε ω α) Q E w s :=
  (wp_throw e).mpr ⟨s, R.refl s, h⟩

theorem mono {p : EStateM ε ω α} {Q' : α → ω → σ → Prop} {E' : ε → ω → σ → Prop}
    (h : Follows R p Q E w s) (hQ : ∀ a w' s', Q a w' s' → Q' a w' s')
    (hE : ∀ e w' s', E e w' s' → E' e w' s') : Follows R p Q' E' w s := by
  refine wp_mono h ?_ ?_
  · rintro a w' ⟨s', hs', hQ'⟩
    exact ⟨s', hs', hQ a w' s' hQ'⟩
  · rintro e w' ⟨s', hs', hE'⟩
    exact ⟨s', hs', hE e w' s' hE'⟩

/-- The system goes first. -/
theorem after {p : EStateM ε ω α} (hs : R.rel s s₁) (h : Follows R p Q E w s₁) :
    Follows R p Q E w s := by
  refine wp_mono h ?_ ?_
  · rintro a w' ⟨s', hs', hQ⟩
    exact ⟨s', R.trans hs hs', hQ⟩
  · rintro e w' ⟨s', hs', hE⟩
    exact ⟨s', R.trans hs hs', hE⟩

/-- The system goes last. -/
theorem before {p : EStateM ε ω α} {Q' : α → ω → σ → Prop} {E' : ε → ω → σ → Prop}
    (h : Follows R p Q E w s) (hQ : ∀ a w' s', Q a w' s' → ∃ s₁, R.rel s' s₁ ∧ Q' a w' s₁)
    (hE : ∀ e w' s', E e w' s' → ∃ s₁, R.rel s' s₁ ∧ E' e w' s₁) : Follows R p Q' E' w s := by
  refine wp_mono h ?_ ?_
  · rintro a w' ⟨s', hs', hq⟩
    obtain ⟨s₁, hs₁, hq⟩ := hQ a w' s' hq
    exact ⟨s₁, R.trans hs' hs₁, hq⟩
  · rintro e w' ⟨s', hs', he⟩
    obtain ⟨s₁, hs₁, he⟩ := hE e w' s' he
    exact ⟨s₁, R.trans hs' hs₁, he⟩

/-- The system stands still, and what is known of the program alone is enough. -/
theorem still {p : EStateM ε ω α} (h : wp p (fun a w' => Q a w' s) (fun e w' => E e w' s) w) :
    Follows R p Q E w s :=
  wp_mono h (fun _ _ hQ => ⟨s, R.refl s, hQ⟩) (fun _ _ hE => ⟨s, R.refl s, hE⟩)

theorem bind {p : EStateM ε ω α} {f : α → EStateM ε ω β} {Q : β → ω → σ → Prop}
    (h : Follows R p (fun a w' s' => Follows R (f a) Q E w' s') E w s) :
    Follows R (p >>= f) Q E w s := by
  rw [Follows, wp_bind]
  refine wp_mono h ?_ fun _ _ h => h
  rintro a w' ⟨s', hs', hf⟩
  exact Follows.after hs' hf

theorem tryCatch {p : EStateM ε ω α} {h : ε → EStateM ε ω α}
    (hp : Follows R p Q (fun e w' s' => Follows R (h e) Q E w' s') w s) :
    Follows R (tryCatch p h) Q E w s := by
  rw [Follows, wp_tryCatch]
  refine wp_mono hp (fun _ _ h => h) ?_
  rintro e w' ⟨s', hs', hf⟩
  exact Follows.after hs' hf

/-- A program that keeps a frame of its own, while the system stands still. -/
theorem of_keeps {F : Frame ω} {p : EStateM ε ω α} (hp : Keeps F p)
    (hQ : ∀ a w', F.rel w w' → Q a w' s) (hE : ∀ e w', F.rel w w' → E e w' s) :
    Follows R p Q E w s :=
  Follows.still (wp_mono (hp w) (fun a w' => hQ a w') fun e w' => hE e w')

/-- It comes first, and the rest goes on from there. -/
theorem seq {F : Frame ω} {p : EStateM ε ω α} {f : α → EStateM ε ω β} {Q : β → ω → σ → Prop}
    (hp : Keeps F p) (hE : ∀ e w', F.rel w w' → E e w' s)
    (hf : ∀ a w', F.rel w w' → Follows R (f a) Q E w' s) : Follows R (p >>= f) Q E w s :=
  Follows.bind (.of_keeps hp hf hE)

end Follows

end Program

end Lobbyboy.Foundation
