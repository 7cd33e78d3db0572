import Lobbyboy.Foundation.Transition
import Mathlib.Logic.Function.Basic

/-! Parties that each look through a list of candidates for one that is not taken, and
make it in a later step. Where making a taken one fails, no two parties make the same, in
any order of their steps. Where it does not fail, two parties may; they do not in the runs
where no party finds a candidate that another has found and has yet to make. -/

namespace Lobbyboy.Foundation

/-- What is taken, and how making something takes it; nothing is given back. -/
structure Board (σ κ : Type*) where
  taken : σ → κ → Bool
  make : σ → κ → σ
  taken_make : ∀ s k, taken (make s k) k = true
  taken_of_taken : ∀ {s k k'}, taken s k' = true → taken (make s k) k' = true

namespace Board

variable {ι σ κ : Type*}

/-- Where a party is. It keeps in mind the board as it was when it began. -/
inductive Phase (σ κ : Type*)
  | idle
  | looking (before : σ) (left : List κ)
  | found (before : σ) (k : κ)
  | made (before : σ) (k : κ)
  | exhausted
  | collided
  deriving DecidableEq

structure State (ι σ κ : Type*) where
  board : σ
  phase : ι → Phase σ κ

inductive Action (ι κ : Type*)
  | start (i : ι) (candidates : List κ)
  | look (i : ι)
  | make (i : ι)

def Action.party : Action ι κ → ι
  | .start i _ => i
  | .look i => i
  | .make i => i

variable [DecidableEq ι]

def State.setPhase (s : State ι σ κ) (i : ι) (x : Phase σ κ) : State ι σ κ :=
  { s with phase := Function.update s.phase i x }

@[simp] theorem State.setPhase_board (s : State ι σ κ) (i : ι) (x : Phase σ κ) :
    (s.setPhase i x).board = s.board := rfl

@[simp] theorem State.setPhase_self (s : State ι σ κ) (i : ι) (x : Phase σ κ) :
    (s.setPhase i x).phase i = x := Function.update_self ..

theorem State.setPhase_of_ne (s : State ι σ κ) {i j : ι} (h : j ≠ i) (x : Phase σ κ) :
    (s.setPhase i x).phase j = s.phase j := Function.update_of_ne h ..

variable (B : Board σ κ)

/-- The next candidate is looked at. -/
def next (board before : σ) : List κ → Phase σ κ
  | [] => .exhausted
  | k :: ks => if B.taken board k then .looking before ks else .found before k

theorem next_cons (board before : σ) (k : κ) (ks : List κ) :
    B.next board before (k :: ks) =
      if B.taken board k then .looking before ks else .found before k := rfl

/-- `exclusive` tells whether making what is taken fails. -/
def step (exclusive : Bool) (s : State ι σ κ) : Action ι κ → Option (State ι σ κ)
  | .start i candidates =>
    match s.phase i with
    | .idle => some (s.setPhase i (.looking s.board candidates))
    | _ => none
  | .look i =>
    match s.phase i with
    | .looking before left => some (s.setPhase i (B.next s.board before left))
    | _ => none
  | .make i =>
    match s.phase i with
    | .found before k =>
      if exclusive && B.taken s.board k then some (s.setPhase i .collided)
      else some (State.setPhase { s with board := B.make s.board k } i (.made before k))
    | _ => none

/-- What a step can do. -/
inductive Moves (exclusive : Bool) (s : State ι σ κ) : Action ι κ → State ι σ κ → Prop
  | start {i : ι} {candidates : List κ} : s.phase i = .idle →
      Moves exclusive s (.start i candidates) (s.setPhase i (.looking s.board candidates))
  | look {i : ι} {before : σ} {left : List κ} : s.phase i = .looking before left →
      Moves exclusive s (.look i) (s.setPhase i (B.next s.board before left))
  | collide {i : ι} {before : σ} {k : κ} : s.phase i = .found before k → exclusive = true →
      B.taken s.board k = true → Moves exclusive s (.make i) (s.setPhase i .collided)
  | make {i : ι} {before : σ} {k : κ} : s.phase i = .found before k →
      (exclusive = true → B.taken s.board k = false) → Moves exclusive s (.make i)
        (State.setPhase { s with board := B.make s.board k } i (.made before k))

variable {B} {exclusive : Bool}

theorem moves_of_step {s s' : State ι σ κ} {a : Action ι κ}
    (h : B.step exclusive s a = some s') : B.Moves exclusive s a s' := by
  cases a with
  | start i candidates =>
    simp only [step] at h
    split at h
    · next hi =>
      cases h
      exact .start hi
    · cases h
  | look i =>
    simp only [step] at h
    split at h
    · next hi =>
      cases h
      exact .look hi
    · cases h
  | make i =>
    simp only [step] at h
    split at h
    · next before k hi =>
      split_ifs at h with htaken
      · cases h
        rw [Bool.and_eq_true] at htaken
        exact .collide hi htaken.1 htaken.2
      · cases h
        exact .make hi fun hex => by simpa [hex] using htaken
    · cases h

theorem board_of_step {s s' : State ι σ κ} {a : Action ι κ}
    (h : B.step exclusive s a = some s') :
    s'.board = s.board ∨ ∃ k, s'.board = B.make s.board k := by
  cases moves_of_step h with
  | start | look | collide => exact .inl rfl
  | @make i before k => exact .inr ⟨k, rfl⟩

theorem next_ne_made (board before : σ) (left : List κ) (b : σ) (k : κ) :
    B.next board before left ≠ .made b k := by
  cases left with
  | nil => exact fun h => by cases h
  | cons k ks =>
    rw [next_cons]
    split_ifs <;> exact fun h => by cases h

/-- What a party has left, or goes on with. -/
def Phase.All (K : κ → Prop) : Phase σ κ → Prop
  | .looking _ left => ∀ k ∈ left, K k
  | .found _ k | .made _ k => K k
  | _ => True

theorem all_next {K : κ → Prop} {board before : σ} {left : List κ} (h : ∀ k ∈ left, K k) :
    (B.next board before left).All K := by
  cases left with
  | nil => trivial
  | cons k ks =>
    obtain ⟨hk, hks⟩ := List.forall_mem_cons.mp h
    rw [next_cons]
    split_ifs
    · exact hks
    · exact hk

/-- A party goes on with what it was given. -/
theorem all_step {K : κ → Prop} {s s' : State ι σ κ} {a : Action ι κ}
    (hgiven : ∀ i candidates, a = .start i candidates → ∀ k ∈ candidates, K k)
    (h : ∀ i, (s.phase i).All K) (hs : B.step exclusive s a = some s') (i : ι) :
    (s'.phase i).All K := by
  by_cases hi : i = a.party
  · subst hi
    cases moves_of_step hs with
    | start =>
      rw [Action.party, State.setPhase_self]
      exact hgiven _ _ rfl
    | @look j before left hj =>
      have hleft := h j
      rw [hj] at hleft
      rw [Action.party, State.setPhase_self]
      exact all_next hleft
    | collide =>
      rw [Action.party, State.setPhase_self]
      trivial
    | @make j before k hj =>
      have hfound := h j
      rw [hj] at hfound
      rw [Action.party, State.setPhase_self]
      exact hfound
  · have hsame : s'.phase i = s.phase i := by
      cases moves_of_step hs <;> exact State.setPhase_of_ne _ hi _
    rw [hsame]
    exact h i

/-! ### Where making what is taken fails -/

/-- What is made was not taken. -/
theorem made_of_step {s s' : State ι σ κ} {a : Action ι κ} {i : ι} {before : σ} {k : κ}
    (hs : B.step true s a = some s') (hi : s'.phase i = .made before k) :
    s.phase i = .made before k ∨ B.taken s.board k = false := by
  by_cases hia : i = a.party
  · subst hia
    cases moves_of_step hs with
    | start =>
      rw [Action.party, State.setPhase_self] at hi
      cases hi
    | look =>
      rw [Action.party, State.setPhase_self] at hi
      exact absurd hi (next_ne_made _ _ _ _ _)
    | collide =>
      rw [Action.party, State.setPhase_self] at hi
      cases hi
    | make _ hfree =>
      rw [Action.party, State.setPhase_self] at hi
      cases hi
      exact .inr (hfree rfl)
  · have hsame : s'.phase i = s.phase i := by
      cases moves_of_step hs <;> exact State.setPhase_of_ne _ hia _
    exact .inl (hsame.symm.trans hi)

/-- The board as it was when the party began. -/
def Phase.before? : Phase σ κ → Option σ
  | .looking before _ | .found before _ | .made before _ => some before
  | _ => none

/-- What a party has made was not taken when it began, and is taken now. -/
structure Exclusive (B : Board σ κ) (s : State ι σ κ) : Prop where
  grown : ∀ {i before k}, before ∈ (s.phase i).before? → B.taken before k = true →
    B.taken s.board k = true
  made : ∀ {i before k}, s.phase i = .made before k →
    B.taken before k = false ∧ B.taken s.board k = true
  distinct : ∀ {i j before before' k}, s.phase i = .made before k → s.phase j = .made before' k →
    i = j

omit [DecidableEq ι] in
theorem exclusive_idle (board : σ) : B.Exclusive (ι := ι) ⟨board, fun _ => .idle⟩ where
  grown h := by cases h
  made h := by cases h
  distinct h := by cases h

/-- A party goes on without making anything. -/
theorem Exclusive.setPhase {s : State ι σ κ} (h : B.Exclusive s) {i : ι} {x : Phase σ κ}
    (hgrown : ∀ before ∈ x.before?, ∀ k, B.taken before k = true → B.taken s.board k = true)
    (hmade : ∀ before k, x ≠ .made before k) : B.Exclusive (s.setPhase i x) := by
  have hother : ∀ {j before k}, (s.setPhase i x).phase j = .made before k →
      s.phase j = .made before k := by
    intro j before k hj
    by_cases hji : j = i
    · subst hji
      rw [State.setPhase_self] at hj
      exact absurd hj (hmade before k)
    · rwa [s.setPhase_of_ne hji] at hj
  refine ⟨fun {j before k} hj hk => ?_, fun hj => h.made (hother hj),
    fun hj hj' => h.distinct (hother hj) (hother hj')⟩
  by_cases hji : j = i
  · subst hji
    rw [State.setPhase_self] at hj
    exact hgrown before hj k hk
  · rw [s.setPhase_of_ne hji] at hj
    exact h.grown hj hk

omit [DecidableEq ι] in
/-- More is taken, by others. -/
theorem Exclusive.grow {s : State ι σ κ} (h : B.Exclusive s) {board : σ}
    (hb : ∀ k, B.taken s.board k = true → B.taken board k = true) :
    B.Exclusive { s with board := board } where
  grown hi hk := hb _ (h.grown hi hk)
  made hi := ⟨(h.made hi).1, hb _ (h.made hi).2⟩
  distinct hi hj := h.distinct hi hj

theorem before?_next {board before : σ} {left : List κ} {b : σ}
    (h : b ∈ (B.next board before left).before?) : b = before := by
  cases left with
  | nil => cases h
  | cons k ks =>
    rw [next_cons] at h
    split_ifs at h <;> exact (Option.some.inj h).symm

theorem exclusive_step {s s' : State ι σ κ} {a : Action ι κ} (h : B.Exclusive s)
    (hs : B.step true s a = some s') : B.Exclusive s' := by
  cases moves_of_step hs with
  | start hi =>
    refine h.setPhase (fun before hb k hk => ?_) fun _ _ hx => by cases hx
    cases hb
    exact hk
  | look hi =>
    refine h.setPhase (fun b hb k hk => ?_) (next_ne_made _ _ _)
    rw [before?_next hb] at hk
    exact h.grown (by rw [hi]; rfl) hk
  | collide => exact h.setPhase (fun _ hb => by cases hb) fun _ _ hx => by cases hx
  | @make i before k hi hfree =>
    have hnot : B.taken s.board k = false := hfree rfl
    have hother : ∀ {j b k'}, (State.setPhase { s with board := B.make s.board k } i
        (.made before k)).phase j = .made b k' → j = i ∧ b = before ∧ k' = k ∨
          s.phase j = .made b k' := by
      intro j b k' hj
      by_cases hji : j = i
      · subst hji
        rw [State.setPhase_self] at hj
        cases hj
        exact .inl ⟨rfl, rfl, rfl⟩
      · rw [State.setPhase_of_ne _ hji] at hj
        exact .inr hj
    -- what was made is taken, so it is not what was made now
    have hnew : ∀ {j b}, s.phase j ≠ .made b k := by
      intro j b hj
      rw [(h.made hj).2] at hnot
      cases hnot
    constructor
    · intro j b k' hj hk'
      refine B.taken_of_taken ?_
      by_cases hji : j = i
      · subst hji
        rw [State.setPhase_self] at hj
        cases hj
        exact h.grown (by rw [hi]; rfl) hk'
      · rw [State.setPhase_of_ne _ hji] at hj
        exact h.grown hj hk'
    · intro j b k' hj
      rcases hother hj with ⟨rfl, rfl, rfl⟩ | hj
      · refine ⟨Bool.eq_false_iff.mpr fun hk => ?_, B.taken_make _ _⟩
        rw [h.grown (by rw [hi]; rfl) hk] at hnot
        cases hnot
      · exact ⟨(h.made hj).1, B.taken_of_taken (h.made hj).2⟩
    · intro j j' b b' k' hj hj'
      rcases hother hj with ⟨rfl, rfl, rfl⟩ | hold
      · rcases hother hj' with ⟨rfl, rfl, -⟩ | hold'
        · rfl
        · exact absurd hold' hnew
      · rcases hother hj' with ⟨rfl, rfl, rfl⟩ | hold'
        · exact absurd hold hnew
        · exact h.distinct hold hold'

/-- Two candidates that are taken together. -/
def Same (B : Board σ κ) (k k' : κ) : Prop := ∀ board, B.taken board k = B.taken board k'

/-- No two parties make what is taken together. -/
def Spread (B : Board σ κ) (s : State ι σ κ) : Prop :=
  ∀ i j before before' k k', s.phase i = .made before k → s.phase j = .made before' k' →
    B.Same k k' → i = j

omit [DecidableEq ι] in
theorem spread_idle (board : σ) : B.Spread (ι := ι) ⟨board, fun _ => .idle⟩ := by
  intro i j before before' k k' h
  cases h

theorem Spread.setPhase {s : State ι σ κ} (h : B.Spread s) {i : ι} {x : Phase σ κ}
    (hnew : ∀ before k, x = .made before k → ∀ j before' k', s.phase j = .made before' k' →
      ¬ B.Same k k') : B.Spread (s.setPhase i x) := by
  intro j j' before before' k k' hj hj' hsame
  by_cases hji : j = i <;> by_cases hji' : j' = i
  · rw [hji, hji']
  · rw [hji, State.setPhase_self] at hj
    rw [s.setPhase_of_ne hji'] at hj'
    exact absurd hsame (hnew _ _ hj _ _ _ hj')
  · rw [hji', State.setPhase_self] at hj'
    rw [s.setPhase_of_ne hji] at hj
    exact absurd (fun board => (hsame board).symm) (hnew _ _ hj' _ _ _ hj)
  · rw [s.setPhase_of_ne hji] at hj
    rw [s.setPhase_of_ne hji'] at hj'
    exact h _ _ _ _ _ _ hj hj' hsame

theorem spread_step {s s' : State ι σ κ} {a : Action ι κ} (hex : B.Exclusive s) (h : B.Spread s)
    (hs : B.step true s a = some s') : B.Spread s' := by
  cases moves_of_step hs with
  | start => exact h.setPhase fun _ _ hx => by cases hx
  | look => exact h.setPhase fun _ _ hx => absurd hx (next_ne_made _ _ _ _ _)
  | collide => exact h.setPhase fun _ _ hx => by cases hx
  | @make i before k hi hfree =>
    have hboard : B.Spread { s with board := B.make s.board k } := h
    refine hboard.setPhase fun b k₁ hx j before' k' hj hsame => ?_
    cases hx
    -- what another party has made is taken, and what is made now is not yet
    have hfree := hfree rfl
    rw [hsame, (hex.made hj).2] at hfree
    cases hfree

/-! ### One party alone -/

/-- The party does nothing more. -/
def Phase.Ended : Phase σ κ → Prop
  | .made _ _ | .exhausted | .collided => True
  | _ => False

theorem party_ne_of_ended {s s' : State ι σ κ} {a : Action ι κ} {i : ι}
    (hi : (s.phase i).Ended) (hs : B.step exclusive s a = some s') : a.party ≠ i := by
  rintro rfl
  cases moves_of_step hs with
  | start h => rw [Action.party, h] at hi; exact hi
  | look h => rw [Action.party, h] at hi; exact hi
  | collide h => rw [Action.party, h] at hi; exact hi
  | make h => rw [Action.party, h] at hi; exact hi

theorem phase_of_ended {s s' : State ι σ κ} {a : Action ι κ} {i : ι} (hi : (s.phase i).Ended)
    (hs : B.step exclusive s a = some s') : s'.phase i = s.phase i := by
  have hne := party_ne_of_ended hi hs
  cases moves_of_step hs with
  | start | look | collide => exact s.setPhase_of_ne hne.symm _
  | make => exact State.setPhase_of_ne _ hne.symm _

theorem run_eq_of_ended {s s' : State ι σ κ} {as : List (Action ι κ)} {i : ι}
    (hparty : ∀ a ∈ as, a.party = i) (hi : (s.phase i).Ended)
    (hr : run (B.step exclusive) s as = some s') : s' = s := by
  cases as with
  | nil => exact (Option.some.inj hr).symm
  | cons a as =>
    rw [run_cons, Option.bind_eq_some_iff] at hr
    obtain ⟨s₁, hs, -⟩ := hr
    exact absurd (hparty a (by simp)) (party_ne_of_ended hi hs)

variable (B) in
/-- The first candidate that is not taken is made. -/
def outcome (board before : σ) (candidates : List κ) : Phase σ κ :=
  match candidates.find? fun k => !B.taken board k with
  | none => .exhausted
  | some k => .made before k

theorem outcome_cons (board before : σ) (k : κ) (ks : List κ) :
    B.outcome board before (k :: ks) =
      if B.taken board k then B.outcome board before ks else .made before k := by
  cases hk : B.taken board k <;> simp [outcome, hk]

section Alone

variable {as : List (Action ι κ)} {s s' : State ι σ κ} {i : ι} {before : σ}

theorem phase_of_found {k : κ} (hparty : ∀ a ∈ as, a.party = i) (hi : s.phase i = .found before k)
    (hfree : B.taken s.board k = false) (hr : run (B.step true) s as = some s')
    (hend : (s'.phase i).Ended) : s'.phase i = .made before k := by
  cases as with
  | nil =>
    cases hr
    rw [hi] at hend
    exact hend.elim
  | cons a as =>
    rw [run_cons, Option.bind_eq_some_iff] at hr
    obtain ⟨s₁, hs, hr⟩ := hr
    obtain ⟨hai, hparty⟩ := List.forall_mem_cons.mp hparty
    have hmade : s₁.phase i = .made before k := by
      subst hai
      cases moves_of_step hs with
      | start h => cases h.symm.trans hi
      | look h => cases h.symm.trans hi
      | collide h _ htaken =>
        cases h.symm.trans hi
        rw [hfree] at htaken
        cases htaken
      | make h =>
        cases h.symm.trans hi
        exact State.setPhase_self ..
    rw [run_eq_of_ended hparty (by rw [hmade]; trivial) hr, hmade]

/-- The rest of the way, from looking. -/
theorem phase_of_looking {left : List κ} (hparty : ∀ a ∈ as, a.party = i)
    (hi : s.phase i = .looking before left) (hr : run (B.step true) s as = some s')
    (hend : (s'.phase i).Ended) : s'.phase i = B.outcome s.board before left := by
  induction as generalizing s left with
  | nil =>
    cases hr
    rw [hi] at hend
    exact hend.elim
  | cons a as ih =>
    rw [run_cons, Option.bind_eq_some_iff] at hr
    obtain ⟨s₁, hs, hr⟩ := hr
    obtain ⟨hai, hparty⟩ := List.forall_mem_cons.mp hparty
    have hs₁ : s₁ = s.setPhase i (B.next s.board before left) := by
      subst hai
      cases moves_of_step hs with
      | start h => cases h.symm.trans hi
      | look h =>
        cases h.symm.trans hi
        rfl
      | collide h => cases h.symm.trans hi
      | make h => cases h.symm.trans hi
    subst hs₁
    cases left with
    | nil =>
      have hended : s' = _ := run_eq_of_ended hparty (by rw [State.setPhase_self]; trivial) hr
      rw [hended, State.setPhase_self]
      rfl
    | cons k ks =>
      rw [outcome_cons]
      rw [next_cons] at hr
      split_ifs at hr ⊢ with htaken
      · have hrest := ih hparty (State.setPhase_self ..) hr
        exact hrest
      · exact phase_of_found hparty (State.setPhase_self ..) (Bool.eq_false_iff.mpr htaken) hr hend

/-- A party that nobody interferes with makes the first candidate that is not taken; if all
are taken, it has none left. -/
theorem phase_alone {candidates : List κ} (hparty : ∀ a ∈ as, a.party = i)
    (hi : s.phase i = .idle) (hr : run (B.step true) s (.start i candidates :: as) = some s')
    (hend : (s'.phase i).Ended) : s'.phase i = B.outcome s.board s.board candidates := by
  have hstart : B.step true s (.start i candidates) =
      some (s.setPhase i (.looking s.board candidates)) := by
    simp only [step, hi]
  rw [run_cons, hstart, Option.bind_some] at hr
  have hrest := phase_of_looking hparty (State.setPhase_self ..) hr hend
  exact hrest

variable (B exclusive) in
theorem step_look {left : List κ} (hi : s.phase i = .looking before left) :
    B.step exclusive s (.look i) = some (s.setPhase i (B.next s.board before left)) := by
  simp only [step, hi]

variable (B exclusive) in
theorem step_make {k : κ} (hi : s.phase i = .found before k)
    (hfree : (exclusive && B.taken s.board k) = false) :
    B.step exclusive s (.make i) =
      some (State.setPhase { s with board := B.make s.board k } i (.made before k)) := by
  simp only [step, hi, hfree]
  rfl

variable (B exclusive) in
/-- It can always go on to its end. -/
theorem exists_run_of_looking {left : List κ} (hi : s.phase i = .looking before left) :
    ∃ as, (∀ a ∈ as, a = .look i ∨ a = .make i) ∧
      ∃ s', run (B.step exclusive) s as = some s' ∧ (s'.phase i).Ended := by
  induction left generalizing s with
  | nil =>
    have hlook : run (B.step exclusive) s [.look i] = some (s.setPhase i .exhausted) := by
      rw [run_cons, step_look B exclusive hi]
      rfl
    exact ⟨[.look i], by simp, _, hlook, by rw [State.setPhase_self]; trivial⟩
  | cons k ks ih =>
    have hlook := step_look B exclusive hi
    rw [next_cons] at hlook
    split_ifs at hlook with htaken
    · obtain ⟨as, hparty, s', hr, hend⟩ := ih (State.setPhase_self s i (.looking before ks))
      refine ⟨.look i :: as, List.forall_mem_cons.mpr ⟨.inl rfl, hparty⟩, s', ?_, hend⟩
      rw [run_cons, hlook, Option.bind_some, hr]
    · have hmake := step_make B exclusive
        (State.setPhase_self s i (.found before k)) (by simp [htaken])
      refine ⟨[.look i] ++ [.make i], by simp, _,
        run_concat_eq_some.mpr ⟨_, ?_, hmake⟩, by rw [State.setPhase_self]; trivial⟩
      rw [run_cons, hlook]
      rfl

variable (B exclusive) in
/-- On its own it makes the first candidate that is not taken. -/
theorem run_made {left : List κ} {k : κ} (hi : s.phase i = .looking s.board left)
    (hk : left.find? (fun k => !B.taken s.board k) = some k) :
    ∃ as, (∀ a ∈ as, a = .look i ∨ a = .make i) ∧ run (B.step exclusive) s as =
      some (State.setPhase { s with board := B.make s.board k } i (.made s.board k)) := by
  induction left generalizing s with
  | nil => cases hk
  | cons k' ks ih =>
    have hlook := step_look B exclusive hi
    rw [next_cons] at hlook
    cases htaken : B.taken s.board k' with
    | true =>
      rw [if_pos htaken] at hlook
      rw [List.find?_cons_of_neg (by simp [htaken])] at hk
      obtain ⟨as, has, hr⟩ := ih (State.setPhase_self s i (.looking s.board ks)) hk
      refine ⟨.look i :: as, List.forall_mem_cons.mpr ⟨.inl rfl, has⟩, ?_⟩
      rw [run_cons, hlook, Option.bind_some, hr]
      simp only [State.setPhase, Function.update_idem]
    | false =>
      rw [if_neg (by simp [htaken])] at hlook
      rw [List.find?_cons_of_pos (by simp [htaken])] at hk
      cases hk
      have hmake := step_make B exclusive
        (State.setPhase_self s i (.found s.board k)) (by simp [htaken])
      refine ⟨[.look i, .make i], by simp, ?_⟩
      rw [run_cons, hlook, Option.bind_some, run_cons, hmake]
      simp only [State.setPhase, Function.update_idem]
      rfl

end Alone

/-! ### Where making what is taken succeeds -/

/-- What a party finds is not what another one has found and has yet to make. -/
def Careful (B : Board σ κ) (s : State ι σ κ) (a : Action ι κ) : Prop :=
  ∀ i before left b k, a = .look i → s.phase i = .looking before left →
    B.next s.board before left = .found b k → ∀ j b', s.phase j ≠ .found b' k

/-- What a party goes on with. -/
def Phase.candidate? : Phase σ κ → Option κ
  | .found _ k | .made _ k => some k
  | _ => none

/-- No two parties go on with the same. -/
structure Apart (B : Board σ κ) (s : State ι σ κ) : Prop where
  made : ∀ {i before k}, s.phase i = .made before k → B.taken s.board k = true
  distinct : ∀ {i j k}, k ∈ (s.phase i).candidate? → k ∈ (s.phase j).candidate? → i = j

omit [DecidableEq ι] in
theorem apart_idle (board : σ) : B.Apart (ι := ι) ⟨board, fun _ => .idle⟩ where
  made h := by cases h
  distinct h := by cases h

theorem Apart.setPhase {s : State ι σ κ} (h : B.Apart s) {i : ι} {x : Phase σ κ}
    (hmade : ∀ before k, x = .made before k → B.taken s.board k = true)
    (hnew : ∀ k ∈ x.candidate?, ∀ j ≠ i, k ∉ (s.phase j).candidate?) :
    B.Apart (s.setPhase i x) := by
  constructor
  · intro j before k hj
    by_cases hji : j = i
    · subst hji
      rw [State.setPhase_self] at hj
      exact hmade before k hj
    · rw [s.setPhase_of_ne hji] at hj
      exact h.made hj
  · intro j j' k hj hj'
    by_cases hji : j = i <;> by_cases hji' : j' = i
    · rw [hji, hji']
    · subst hji
      rw [State.setPhase_self] at hj
      rw [s.setPhase_of_ne hji'] at hj'
      exact absurd hj' (hnew k hj j' hji')
    · subst hji'
      rw [State.setPhase_self] at hj'
      rw [s.setPhase_of_ne hji] at hj
      exact absurd hj (hnew k hj' j hji)
    · rw [s.setPhase_of_ne hji] at hj
      rw [s.setPhase_of_ne hji'] at hj'
      exact h.distinct hj hj'

/-- What is found is not taken. -/
theorem taken_eq_false_of_next {board before b : σ} {left : List κ} {k : κ}
    (h : B.next board before left = .found b k) : B.taken board k = false := by
  cases left with
  | nil => cases h
  | cons k' ks =>
    rw [next_cons] at h
    split_ifs at h with htaken
    cases h
    exact Bool.eq_false_iff.mpr htaken

theorem candidate?_next {board before : σ} {left : List κ} {k : κ}
    (h : k ∈ (B.next board before left).candidate?) :
    B.next board before left = .found before k := by
  cases left with
  | nil => cases h
  | cons k' ks =>
    rw [next_cons] at h ⊢
    split_ifs at h ⊢ <;> cases h
    rfl

theorem apart_step {s s' : State ι σ κ} {a : Action ι κ} (hcareful : B.Careful s a)
    (h : B.Apart s) (hs : B.step exclusive s a = some s') : B.Apart s' := by
  cases moves_of_step hs with
  | start => exact h.setPhase (fun _ _ hx => by cases hx) fun _ hx => by cases hx
  | @look i before left hi =>
    refine h.setPhase (fun b k hx => absurd hx (next_ne_made _ _ _ b k)) fun k hk j hj hcand => ?_
    have hfound := candidate?_next hk
    cases hp : s.phase j with
    | found b' k' =>
      rw [hp] at hcand
      cases hcand
      exact hcareful i before left before k rfl hi hfound j b' hp
    | made b' k' =>
      rw [hp] at hcand
      cases hcand
      have hfree := taken_eq_false_of_next hfound
      rw [h.made hp] at hfree
      cases hfree
    | _ => rw [hp] at hcand; cases hcand
  | collide => exact h.setPhase (fun _ _ hx => by cases hx) fun _ hx => by cases hx
  | @make i before k hi =>
    have hgrown : B.Apart { s with board := B.make s.board k } :=
      ⟨fun hj => B.taken_of_taken (h.made hj), fun hj hj' => h.distinct hj hj'⟩
    refine hgrown.setPhase (fun b k' hx => ?_) fun k' hk' j hj hcand => ?_
    · cases hx
      exact B.taken_make _ _
    · cases hk'
      exact hj (h.distinct hcand (by rw [hi]; rfl))

/-- Where a step is not careful, two parties can go on to make the same. -/
theorem exists_run_of_not_careful {s : State ι σ κ} {a : Action ι κ} (h : ¬ B.Careful s a) :
    ∃ i j s' before before' k, i ≠ j ∧ run (B.step false) s [a, .make i, .make j] = some s' ∧
      s'.phase i = .made before k ∧ s'.phase j = .made before' k := by
  simp only [Careful, not_forall, not_not] at h
  obtain ⟨i, before, left, b, k, rfl, hi, hfound, j, b', hj⟩ := h
  have hne : j ≠ i := by
    rintro rfl
    cases hi.symm.trans hj
  have hlook := step_look B false hi
  rw [hfound] at hlook
  have hmake := step_make B false (State.setPhase_self s i (.found b k)) rfl
  obtain ⟨s₂, hs₂⟩ : ∃ s₂, s₂ = State.setPhase { s.setPhase i (.found b k) with
      board := B.make s.board k } i (.made b k) := ⟨_, rfl⟩
  have hi₂ : s₂.phase i = .made b k := by rw [hs₂, State.setPhase_self]
  have hj₂ : s₂.phase j = .found b' k := by
    rw [hs₂, State.setPhase_of_ne _ hne]
    exact (s.setPhase_of_ne hne _).trans hj
  have hrun : run (B.step false) s [.look i, .make i, .make j] = B.step false s₂ (.make j) := by
    rw [run_cons, hlook, Option.bind_some, run_cons, hmake, Option.bind_some, run_cons, hs₂]
    exact Option.bind_fun_some _
  refine ⟨i, j, _, b, b', k, hne.symm, hrun.trans (step_make B false hj₂ rfl), ?_,
    State.setPhase_self ..⟩
  rw [State.setPhase_of_ne _ hne.symm]
  exact hi₂

end Board

end Lobbyboy.Foundation
