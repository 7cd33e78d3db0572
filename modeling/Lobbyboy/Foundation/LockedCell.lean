import Lobbyboy.Foundation.Transition
import Mathlib.Logic.Function.Basic

/-! A cell that several threads rewrite whole under one lock. An update takes the lock,
reads the cell into a copy, blanks the cell, writes what it makes of its copy and lets
the lock go; these are five steps, and any other thread may step in between. The
invariant relates the holder, its copy and the cell. It makes the updates serial: a cell
nobody is updating is what the completed updates make of it one after another, in the
order in which they took the lock. -/

namespace Lobbyboy.Foundation

/-- How a cell is read (at a moment, and perhaps in vain), what it is while it is
rewritten, and what an update writes that has read a copy. -/
structure CellFormat (γ ν κ τ : Type*) where
  read : τ → γ → Option ν
  blank : γ
  write : κ → ν → γ

/-- How far a thread is in an update. -/
inductive CellPhase (κ ν τ : Type*)
  | idle
  | entered (c : κ)
  | loaded (c : κ) (t : τ) (copy : ν)
  | blanked (c : κ) (t : τ) (copy : ν)
  | written (c : κ) (t : τ)

/-- `order` has the updates as they took the lock; `completed` has those that were carried
out as they let it go, with the moments of their reads. -/
structure CellState (ι κ ν τ γ : Type*) where
  lock : Option ι
  phase : ι → CellPhase κ ν τ
  cell : γ
  order : List κ
  completed : List (κ × τ)

inductive CellAction (ι κ τ : Type*)
  | acquire (i : ι) (c : κ)
  | load (i : ι) (t : τ)
  | blank (i : ι)
  | write (i : ι)
  | release (i : ι)

variable {ι κ ν γ τ : Type*} [DecidableEq ι]

/-! ### Updates that nobody interrupts -/

namespace CellFormat

variable (F : CellFormat γ ν κ τ)

/-- The updates one after another; `none` if one of them cannot read. -/
def serial (cell : γ) : List (κ × τ) → Option γ
  | [] => some cell
  | (c, t) :: cs => (F.read t cell).bind fun copy => serial (F.write c copy) cs

theorem serial_concat (cell : γ) (cs : List (κ × τ)) (c : κ) (t : τ) :
    F.serial cell (cs ++ [(c, t)]) =
      (F.serial cell cs).bind fun cell' => (F.read t cell').map (F.write c) := by
  induction cs generalizing cell with
  | nil =>
    simp only [List.nil_append, serial, Option.bind_some]
    cases F.read t cell <;> rfl
  | cons x cs ih => simp only [List.cons_append, serial, Option.bind_assoc, ih]

/-- Whatever updates make of the cell can be read. -/
def Readable (cell : γ) : Prop :=
  ∀ cs cell', F.serial cell cs = some cell' → ∀ t, F.read t cell' ≠ none

end CellFormat

/-! ### Updates that interleave -/

/-- The update a thread is in. -/
def CellPhase.pending : CellPhase κ ν τ → List κ
  | .idle => []
  | .entered c => [c]
  | .loaded c _ _ => [c]
  | .blanked c _ _ => [c]
  | .written c _ => [c]

namespace CellState

def setPhase (s : CellState ι κ ν τ γ) (i : ι) (p : CellPhase κ ν τ) : CellState ι κ ν τ γ :=
  { s with phase := Function.update s.phase i p }

def step (F : CellFormat γ ν κ τ) (s : CellState ι κ ν τ γ) :
    CellAction ι κ τ → Option (CellState ι κ ν τ γ)
  | .acquire i c =>
    match s.lock, s.phase i with
    | none, .idle => some { s.setPhase i (.entered c) with lock := some i, order := s.order ++ [c] }
    | _, _ => none
  | .load i t =>
    match s.phase i with
    | .entered c =>
      match F.read t s.cell with
      | some copy => some (s.setPhase i (.loaded c t copy))
      -- an update that cannot read gives up and lets the lock go
      | none => some { s.setPhase i .idle with lock := none }
    | _ => none
  | .blank i =>
    match s.phase i with
    | .loaded c t copy => some { s.setPhase i (.blanked c t copy) with cell := F.blank }
    | _ => none
  | .write i =>
    match s.phase i with
    | .blanked c t copy => some { s.setPhase i (.written c t) with cell := F.write c copy }
    | _ => none
  | .release i =>
    match s.phase i with
    | .written c t =>
      some { s.setPhase i .idle with lock := none, completed := s.completed ++ [(c, t)] }
    | _ => none

/-- Nobody is in an update. -/
def free (cell : γ) (order : List κ) (completed : List (κ × τ)) : CellState ι κ ν τ γ :=
  ⟨none, fun _ => .idle, cell, order, completed⟩

def start (cell : γ) : CellState ι κ ν τ γ := free cell [] []

/-- The cell and the copy, at each phase of the thread that holds the lock. -/
def HolderOk (F : CellFormat γ ν κ τ) (cell₀ : γ) (s : CellState ι κ ν τ γ) :
    CellPhase κ ν τ → Prop
  | .idle => False
  | .entered _ => F.serial cell₀ s.completed = some s.cell
  | .loaded _ t copy => F.serial cell₀ s.completed = some s.cell ∧ F.read t s.cell = some copy
  | .blanked _ t copy =>
    ∃ old, F.serial cell₀ s.completed = some old ∧ F.read t old = some copy
  | .written c t => F.serial cell₀ (s.completed ++ [(c, t)]) = some s.cell

/-- The completed updates and the pending one took the lock in this order, and none is
missing as long as the cell can be read. -/
def OrderOk (F : CellFormat γ ν κ τ) (cell₀ : γ) (s : CellState ι κ ν τ γ) (pending : List κ) :
    Prop :=
  (s.completed.map Prod.fst ++ pending).Sublist s.order ∧
    (F.Readable cell₀ → s.order = s.completed.map Prod.fst ++ pending)

/-- The invariant: only the holder of the lock is in an update. -/
def Exclusive (F : CellFormat γ ν κ τ) (cell₀ : γ) (s : CellState ι κ ν τ γ) : Prop :=
  match s.lock with
  | none => (∀ i, s.phase i = .idle) ∧ OrderOk F cell₀ s [] ∧
      F.serial cell₀ s.completed = some s.cell
  | some i => (∀ j, j ≠ i → s.phase j = .idle) ∧ OrderOk F cell₀ s (s.phase i).pending ∧
      HolderOk F cell₀ s (s.phase i)

variable {F : CellFormat γ ν κ τ} {cell₀ : γ} {s s' : CellState ι κ ν τ γ}

/-- A thread in an update holds the lock. -/
theorem Exclusive.holder (h : Exclusive F cell₀ s) {i : ι} {p : CellPhase κ ν τ}
    (hp : s.phase i = p) (hne : p ≠ .idle) :
    s.lock = some i ∧ (∀ j, j ≠ i → s.phase j = .idle) ∧ OrderOk F cell₀ s p.pending ∧
      HolderOk F cell₀ s p := by
  unfold Exclusive at h
  cases hl : s.lock with
  | none =>
    rw [hl] at h
    exact absurd (hp.symm.trans (h.1 i)) hne
  | some j =>
    rw [hl] at h
    obtain rfl : i = j := by
      by_contra hij
      exact hne (hp.symm.trans (h.1 i hij))
    exact ⟨rfl, h.1, hp ▸ h.2.1, hp ▸ h.2.2⟩

theorem idle_setPhase_of_ne {i : ι} (p : CellPhase κ ν τ) (h : ∀ j, j ≠ i → s.phase j = .idle) :
    ∀ j, j ≠ i → (s.setPhase i p).phase j = .idle := by
  intro j hj
  exact (Function.update_of_ne hj ..).trans (h j hj)

theorem idle_setPhase {i : ι} (h : ∀ j, j ≠ i → s.phase j = .idle) :
    ∀ j, (s.setPhase i .idle).phase j = .idle := by
  intro j
  by_cases hj : j = i
  · subst hj; exact Function.update_self ..
  · exact idle_setPhase_of_ne .idle h j hj

omit [DecidableEq ι] in
theorem exclusive_start (cell : γ) : Exclusive F cell (start cell : CellState ι κ ν τ γ) :=
  ⟨fun _ => rfl, ⟨.refl _, fun _ => rfl⟩, rfl⟩

theorem Exclusive.step (h : Exclusive F cell₀ s) {a : CellAction ι κ τ}
    (hs : s.step F a = some s') : Exclusive F cell₀ s' := by
  cases a with
  | acquire i c =>
    simp only [CellState.step] at hs
    split at hs
    · rename_i hl hi
      cases hs
      unfold Exclusive at h
      rw [hl] at h
      obtain ⟨hidle, ⟨hsub, hall⟩, hcell⟩ := h
      refine ⟨idle_setPhase_of_ne _ fun j _ => hidle j, ?_, ?_⟩
      · simp only [setPhase, Function.update_self, CellPhase.pending]
        rw [List.append_nil] at hsub hall
        exact ⟨hsub.append_right [c], fun hF => congrArg (· ++ [c]) (hall hF)⟩
      · simpa only [setPhase, Function.update_self, HolderOk] using hcell
    · cases hs
  | load i t =>
    simp only [CellState.step] at hs
    split at hs
    · rename_i c hi
      obtain ⟨hl, hidle, ⟨hsub, hall⟩, hcell⟩ := h.holder hi (by simp)
      split at hs
      · rename_i copy hread
        cases hs
        simp only [Exclusive, setPhase, hl, Function.update_self, HolderOk]
        exact ⟨idle_setPhase_of_ne _ hidle, ⟨hsub, hall⟩, hcell, hread⟩
      · rename_i hread
        cases hs
        refine ⟨idle_setPhase hidle, ⟨?_, fun hF => absurd hread (hF _ _ hcell t)⟩, hcell⟩
        exact ((List.Sublist.refl _).append (List.nil_sublist _)).trans hsub
    · cases hs
  | blank i =>
    simp only [CellState.step] at hs
    split at hs
    · rename_i c t copy hi
      obtain ⟨hl, hidle, horder, hcell, hread⟩ := h.holder hi (by simp)
      cases hs
      simp only [Exclusive, setPhase, hl, Function.update_self, HolderOk]
      exact ⟨idle_setPhase_of_ne _ hidle, horder, s.cell, hcell, hread⟩
    · cases hs
  | write i =>
    simp only [CellState.step] at hs
    split at hs
    · rename_i c t copy hi
      obtain ⟨hl, hidle, horder, old, hcell, hread⟩ := h.holder hi (by simp)
      cases hs
      simp only [Exclusive, setPhase, hl, Function.update_self, HolderOk]
      refine ⟨idle_setPhase_of_ne _ hidle, horder, ?_⟩
      rw [F.serial_concat, hcell, Option.bind_some, hread, Option.map_some]
    · cases hs
  | release i =>
    simp only [CellState.step] at hs
    split at hs
    · rename_i c t hi
      obtain ⟨hl, hidle, horder, hcell⟩ := h.holder hi (by simp)
      cases hs
      refine ⟨idle_setPhase hidle, ?_, hcell⟩
      simpa [OrderOk, CellPhase.pending, setPhase] using horder
    · cases hs

/-- The five steps of one update. -/
def update (i : ι) (c : κ) (t : τ) : List (CellAction ι κ τ) :=
  [.acquire i c, .load i t, .blank i, .write i, .release i]

/-- While nobody is in an update, any thread can carry one out. -/
theorem run_update {cell : γ} {copy : ν} {t : τ} (hread : F.read t cell = some copy) (i : ι) (c : κ)
    (order : List κ) (completed : List (κ × τ)) :
    run (CellState.step F) (free cell order completed) (update i c t) =
      some (free (F.write c copy) (order ++ [c]) (completed ++ [(c, t)]) :
        CellState ι κ ν τ γ) := by
  simp [update, run_cons, CellState.step, setPhase, free, hread]

/-- After any interleaving, a cell that nobody is updating is what the completed updates
make of it one after another; they took the lock in that order, and unless an update
could not read, every update that took the lock is among them. -/
theorem serial_of_run {cell : γ} {as : List (CellAction ι κ τ)}
    (hr : run (CellState.step F) (start cell) as = some s) (hidle : ∀ i, s.phase i = .idle) :
    (s.completed.map Prod.fst).Sublist s.order ∧
      (F.Readable cell → s.order = s.completed.map Prod.fst) ∧
      F.serial cell s.completed = some s.cell := by
  have h : Exclusive F cell s := run_invariant' (fun h hs => h.step hs) (exclusive_start cell) hr
  unfold Exclusive at h
  cases hl : s.lock with
  | none =>
    rw [hl] at h
    simpa [OrderOk, and_assoc] using h.2
  | some i =>
    rw [hl] at h
    have hholder := h.2.2
    rw [hidle i] at hholder
    exact hholder.elim

end CellState

end Lobbyboy.Foundation
