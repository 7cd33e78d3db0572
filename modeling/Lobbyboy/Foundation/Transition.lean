import Mathlib.Data.List.Induction

/-! Systems that take one step after another. A step is a partial function of the state
and an action; a run is a list of actions. An invariant that every step keeps holds
after every run, also when it is kept only by the steps that meet a condition and the
run consists of such steps. -/

namespace Lobbyboy.Foundation

variable {σ α : Type*} {step : σ → α → Option σ} {C D : σ → α → Prop} {P : σ → Prop}

/-- The actions one after another; `none` if one of them is not enabled. -/
def run (step : σ → α → Option σ) (s : σ) : List α → Option σ
  | [] => some s
  | a :: as => (step s a).bind fun s' => run step s' as

@[simp] theorem run_nil (s : σ) : run step s [] = some s := rfl

theorem run_cons (s : σ) (a : α) (as : List α) :
    run step s (a :: as) = (step s a).bind fun s' => run step s' as := rfl

theorem run_append_bind (s : σ) (as bs : List α) :
    run step s (as ++ bs) = (run step s as).bind fun s' => run step s' bs := by
  induction as generalizing s with
  | nil => rfl
  | cons a as ih =>
    rw [List.cons_append, run_cons, run_cons, Option.bind_assoc]
    exact congrArg _ (funext ih)

theorem run_append {s s' : σ} {as : List α} (h : run step s as = some s') (bs : List α) :
    run step s (as ++ bs) = run step s' bs := by
  rw [run_append_bind, h, Option.bind_some]

/-- Actions that are written in other words. -/
theorem run_map {β : Type*} (f : β → α) (s : σ) (bs : List β) :
    run (fun s b => step s (f b)) s bs = run step s (bs.map f) := by
  induction bs generalizing s with
  | nil => rfl
  | cons b bs ih => exact congrArg _ (funext fun s' => ih s')

/-- A run that ends with `a` is a run and one more step. -/
theorem run_concat_eq_some {s s' : σ} {as : List α} {a : α} :
    run step s (as ++ [a]) = some s' ↔ ∃ s₁, run step s as = some s₁ ∧ step s₁ a = some s' := by
  simp [run_append_bind, run_cons, Option.bind_eq_some_iff]

/-- Every action of the run is taken in a state where `C` holds of it. -/
def Along (step : σ → α → Option σ) (C : σ → α → Prop) (s : σ) : List α → Prop
  | [] => True
  | a :: as => C s a ∧ ∀ s' ∈ step s a, Along step C s' as

theorem along_cons {s s' : σ} {a : α} {as : List α} (h : step s a = some s') :
    Along step C s (a :: as) ↔ C s a ∧ Along step C s' as := by
  refine and_congr_right fun _ => ⟨fun hs => hs s' h, fun hs s₁ h₁ => ?_⟩
  cases h.symm.trans h₁
  exact hs

/-- What the steps that meet `C` keep holds after every run of such steps. -/
theorem run_invariant (hstep : ∀ {s a s'}, C s a → P s → step s a = some s' → P s') :
    ∀ {as : List α} {s s' : σ}, Along step C s as → P s → run step s as = some s' → P s'
  | [], s, s', _, hs, hr => by
    cases hr
    exact hs
  | a :: as, s, s', hc, hs, hr => by
    rw [run_cons, Option.bind_eq_some_iff] at hr
    obtain ⟨s₁, h₁, hr⟩ := hr
    exact run_invariant hstep (hc.2 s₁ h₁) (hstep hc.1 hs h₁) hr

/-- Along a run of steps that meet `C`, every step meets what `C` and the invariant give. -/
theorem along_of_invariant (hstep : ∀ {s a s'}, C s a → P s → step s a = some s' → P s')
    (hD : ∀ {s a}, C s a → P s → D s a) :
    ∀ {as : List α} {s : σ}, Along step C s as → P s → Along step D s as
  | [], _, _, _ => trivial
  | _ :: _, _, hc, hs =>
    ⟨hD hc.1 hs, fun s' hs' => along_of_invariant hstep hD (hc.2 s' hs') (hstep hc.1 hs hs')⟩

/-- Where an invariant makes two conditions the same, runs meet both or neither. -/
theorem along_congr (hstep : ∀ {s a s'}, P s → step s a = some s' → P s')
    (hCD : ∀ {s a}, P s → (C s a ↔ D s a)) :
    ∀ {as : List α} {s : σ}, P s → (Along step C s as ↔ Along step D s as)
  | [], _, _ => Iff.rfl
  | _ :: _, _, hs => and_congr (hCD hs) <| forall_congr' fun _ => forall_congr' fun hs' =>
    along_congr hstep hCD (hstep hs hs')

/-- A condition on the actions alone holds along the run. -/
theorem along_of_forall : ∀ {as : List α}, (∀ a ∈ as, ∀ s, C s a) → ∀ s : σ, Along step C s as
  | [], _, _ => trivial
  | _ :: _, h, s =>
    ⟨(List.forall_mem_cons.mp h).1 s, fun s' _ => along_of_forall (List.forall_mem_cons.mp h).2 s'⟩

theorem along_append {as bs : List α} {s s' : σ} (h : Along step C s (as ++ bs))
    (hr : run step s as = some s') : Along step C s' bs := by
  induction as generalizing s with
  | nil =>
    cases hr
    exact h
  | cons a as ih =>
    rw [run_cons, Option.bind_eq_some_iff] at hr
    obtain ⟨s₁, h₁, hr⟩ := hr
    exact ih (h.2 s₁ h₁) hr

theorem along_of_append {as bs : List α} {s : σ} (h : Along step C s (as ++ bs)) :
    Along step C s as := by
  induction as generalizing s with
  | nil => trivial
  | cons a as ih => exact ⟨h.1, fun s' hs' => ih (h.2 s' hs')⟩

/-- If every step that meets `C` is enabled, so is a run of them. -/
theorem exists_run_of_along (hstep : ∀ {s a}, C s a → P s → ∃ s', step s a = some s' ∧ P s') :
    ∀ {as : List α} {s : σ}, Along step C s as → P s → ∃ s', run step s as = some s' ∧ P s'
  | [], s, _, hs => ⟨s, rfl, hs⟩
  | _ :: _, _, hc, hs => by
    obtain ⟨s₁, h₁, hs₁⟩ := hstep hc.1 hs
    obtain ⟨s', hr, hs'⟩ := exists_run_of_along hstep (hc.2 s₁ h₁) hs₁
    exact ⟨s', by rw [run_cons, h₁, Option.bind_some, hr], hs'⟩

/-- What every step keeps of the state and the actions so far. -/
theorem run_history {H : List α → σ → Prop} {s₀ s : σ} {as : List α} (hstart : H [] s₀)
    (hstep : ∀ {as a s s'}, H as s → step s a = some s' → H (as ++ [a]) s')
    (hr : run step s₀ as = some s) : H as s := by
  induction as using List.reverseRecOn generalizing s with
  | nil =>
    cases hr
    exact hstart
  | append_singleton as a ih =>
    obtain ⟨s₁, hrun, hlast⟩ := run_concat_eq_some.mp hr
    exact hstep (ih hrun) hlast

/-- At some point of the run an action was taken of which `P` held, and what was done since
then meets `D`. -/
def Since (step : σ → α → Option σ) (P : σ → α → Prop) (D : α → Prop) (s₀ : σ) (as : List α) :
    Prop :=
  ∃ bs a cs s, as = bs ++ a :: cs ∧ run step s₀ bs = some s ∧ P s a ∧ ∀ c ∈ cs, D c

theorem since_now {s₀ s : σ} {as : List α} {a : α} {E : α → Prop} (hr : run step s₀ as = some s)
    (h : C s a) : Since step C E s₀ (as ++ [a]) :=
  ⟨as, a, [], s, rfl, hr, h, by simp⟩

theorem Since.concat {s₀ : σ} {as : List α} {a : α} {E : α → Prop} (h : Since step C E s₀ as)
    (ha : E a) : Since step C E s₀ (as ++ [a]) := by
  obtain ⟨bs, b, cs, s, rfl, hr, hb, hcs⟩ := h
  refine ⟨bs, b, cs ++ [a], s, by simp, hr, hb, ?_⟩
  exact List.forall_mem_append.mpr ⟨hcs, by simpa using ha⟩

/-- What every step keeps holds after every run. -/
theorem run_invariant' (hstep : ∀ {s a s'}, P s → step s a = some s' → P s') {as : List α}
    {s s' : σ} (hs : P s) (hr : run step s as = some s') : P s' := by
  have htriv : Along step (fun _ _ => True) s as := along_of_forall (fun _ _ _ => trivial) s
  exact run_invariant (fun _ => hstep) htriv hs hr

end Lobbyboy.Foundation
