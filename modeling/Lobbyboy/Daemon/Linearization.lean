import Lobbyboy.Daemon.Refinement
import Lobbyboy.Daemon.SessionLists

/-! The session table as a thing that is registered at and removed from at once. The lists
under their lock, with their steps in between, and the threads of the daemon, whose steps
are whole operations, both do to the table what these operations do, in the order in which
they take effect. Whoever holds the lock comes to release it by its own steps. -/

namespace Lobbyboy.Daemon

open Foundation Utils Config Provider

/-- An operation on the session table. -/
inductive TableOp
  | register (serverName : String) (transport : Transport)
  | remove (serverName : String) (peer : String × ℕ)

/-- What it does to the sessions of each server. -/
def TableOp.apply (table : String → List Transport) : TableOp → String → List Transport
  | .register name t => Function.update table name (table name ++ [t])
  | .remove name peer => Function.update table name ((table name).filter (·.peer ≠ peer))

/-! ### The lists -/

namespace SessionLists

/-- The operation that takes effect with the step: an append, or the binding of the list
that has been filtered; there is nothing to filter in an empty list. -/
def takesEffect (peer : ℕ → String × ℕ) (s : State) : Action → List TableOp
  | .append i =>
    match s.phase i with
    | .found name _ => [.register name (transport peer i)]
    | _ => []
  | .get i =>
    match s.phase i with
    | .leaving name => if s.active.contents name = [] then [.remove name (peer i)] else []
    | _ => []
  | .rebind i =>
    match s.phase i with
    | .filtering name _ _ _ => [.remove name (peer i)]
    | _ => []
  | _ => []

/-- Whose step it is. -/
def Action.session : Action → ℕ
  | .acquire i _ | .setdefault i | .append i | .release i | .leave i | .get i | .examine i
  | .rebind i => i

section Lists

variable {peer : ℕ → String × ℕ} {s s' : State} {a : Action} {i : ℕ}

/-- Removing from nothing changes nothing. -/
theorem remove_of_empty {table : String → List Transport} {name : String} {p : String × ℕ}
    (h : table name = []) : TableOp.apply table (.remove name p) = table := by
  rw [TableOp.apply, h, List.filter_nil, ← h, Function.update_eq_self]

theorem contents_effect (h : Guarded peer s) (hstep : step peer s a = some s') :
    s'.active.contents = (takesEffect peer s a).foldl TableOp.apply s.active.contents := by
  cases stepped_of_step peer hstep with
  | setdefault => exact funext fun _ => ListTable.contents_setdefault ..
  | @append i name sessions hi =>
    funext name'
    rw [State.setActive_active, ListTable.contents_append _ _ (h.knows hi rfl)]
    simp only [takesEffect, hi, List.foldl_cons, List.foldl_nil, TableOp.apply,
      Function.update_apply]
  | @skip i name hi hnothing =>
    simp only [takesEffect, hi, if_pos hnothing]
    exact (remove_of_empty hnothing).symm
  | @get i name sessions hi hbound =>
    simp only [takesEffect, hi]
    split_ifs with hnothing
    · exact (remove_of_empty hnothing).symm
    · rfl
  | @rebind i name sessions kept index hi hend =>
    have hknows := h.knows hi rfl
    funext name'
    rw [State.setActive_active, ListTable.contents_rebind, hknows.2,
      List.take_of_length_le (List.getElem?_eq_none_iff.mp hend),
      ← ListTable.contents_of_get? hknows.1]
    simp only [takesEffect, hi, List.foldl_cons, List.foldl_nil, TableOp.apply,
      Function.update_apply]
  | _ => rfl

theorem guarded_init : Guarded peer {} := fun _ hi => nomatch hi

theorem contents_run {as : List Action} (hr : run (step peer) {} as = some s) :
    s.active.contents =
      (seen (step peer) (takesEffect peer) {} as).foldl TableOp.apply fun _ => [] :=
  seen_foldl (fun h hstep => ⟨guarded_step h hstep, contents_effect h hstep⟩) guarded_init hr

/-- An operation takes effect while its thread has the lock. -/
theorem lock_of_takesEffect (h : Guarded peer s) (ha : takesEffect peer s a ≠ []) :
    s.lock = some a.session := by
  cases a with
  | append i =>
    simp only [takesEffect] at ha
    split at ha
    · next hi => exact h.lock hi rfl
    · exact absurd rfl ha
  | get i =>
    simp only [takesEffect] at ha
    split at ha
    · next hi => exact h.lock hi rfl
    · exact absurd rfl ha
  | rebind i =>
    simp only [takesEffect] at ha
    split at ha
    · next hi => exact h.lock hi rfl
    · exact absurd rfl ha
  | _ => exact absurd rfl ha

theorem locked_run {as : List Action} {s₀ : State} (h : Guarded peer s₀) :
    Along (step peer) (fun s a => takesEffect peer s a ≠ [] → s.lock = some a.session) s₀ as :=
  along_of_invariant (C := fun _ _ => True) (fun _ h hstep => guarded_step h hstep)
    (fun _ h => lock_of_takesEffect h) (along_of_forall (fun _ _ _ => trivial) _) h

/-! ### The lock comes free -/

/-- Only a thread inside a block has the lock. -/
def Occupied (s : State) : Prop := ∀ i, s.lock = some i → (s.phase i).locked

theorem Occupied.inside {p : Phase} {active : ListTable String Transport} (h : Occupied s)
    (hp : p.locked) : Occupied ((s.setPhase i p).setActive active) := by
  intro j hj
  rw [State.setActive_phase, State.setPhase_phase]
  split_ifs
  · exact hp
  · exact h j hj

theorem Occupied.enter {p : Phase} (hp : p.locked) :
    Occupied ((s.setPhase i p).setLock (some i)) := by
  intro j hj
  cases hj
  rw [State.setLock_phase, State.setPhase_phase, if_pos rfl]
  exact hp

theorem occupied_step (h : Occupied s) (hstep : step peer s a = some s') : Occupied s' := by
  cases stepped_of_step peer hstep with
  | acquire | leave => exact .enter rfl
  | register | finish => exact nofun
  | setdefault | append | rebind => exact h.inside rfl
  | skip | get | examine => exact h.inside rfl

/-- The thread's own steps to the end of its block. -/
def Releases (peer : ℕ → String × ℕ) (i : ℕ) (n : ℕ) (s : State) : Prop :=
  ∃ as s', (∀ a ∈ as, a.session = i) ∧ as.length ≤ n ∧ run (step peer) s as = some s' ∧
    s'.lock = none

theorem Releases.step {n : ℕ} {s₁ : State} (ha : a.session = i) (hs : step peer s a = some s₁)
    (h : Releases peer i n s₁) : Releases peer i (n + 1) s := by
  obtain ⟨as, s', hsession, hlength, hrun, hlock⟩ := h
  refine ⟨a :: as, s', List.forall_mem_cons.mpr ⟨ha, hsession⟩, Nat.succ_le_succ hlength, ?_, hlock⟩
  rw [run_cons, hs]
  exact hrun

theorem Releases.mono {n n' : ℕ} (h : Releases peer i n s) (hn : n ≤ n') :
    Releases peer i n' s := by
  obtain ⟨as, s', hsession, hlength, hrun⟩ := h
  exact ⟨as, s', hsession, hlength.trans hn, hrun⟩

theorem releases_rebound (hi : s.phase i = .rebound) : Releases peer i 1 s := by
  have hstep : step peer s (.release i) = some ((s.setPhase i .out).setLock none) := by
    simp only [step, hi]
  exact .step rfl hstep ⟨[], _, List.forall_mem_nil _, le_rfl, rfl, rfl⟩

theorem releases_appended {name : String} (hi : s.phase i = .appended name) :
    Releases peer i 1 s := by
  have hstep : step peer s (.release i) =
      some ((s.setPhase i (.registered name)).setLock none) := by simp only [step, hi]
  exact .step rfl hstep ⟨[], _, List.forall_mem_nil _, le_rfl, rfl, rfl⟩

theorem releases_found {name : String} {sessions : ℕ} (hi : s.phase i = .found name sessions) :
    Releases peer i 2 s := by
  have hstep : step peer s (.append i) = some ((s.setPhase i (.appended name)).setActive
      (s.active.append sessions (transport peer i))) := by simp only [step, hi]
  exact .step rfl hstep (releases_appended (Function.update_self ..))

theorem releases_entered {name : String} (hi : s.phase i = .entered name) :
    Releases peer i 3 s := by
  have hstep : step peer s (.setdefault i) =
      some ((s.setPhase i (.found name (s.active.setdefault name).1)).setActive
        (s.active.setdefault name).2) := by simp only [step, hi]
  exact .step rfl hstep (releases_found (Function.update_self ..))

/-- One step for each element that is left, one to bind the list, and one to leave. -/
theorem releases_filtering (n : ℕ) {name : String} {sessions : ℕ} {kept : List Transport}
    {index : ℕ} (hi : s.phase i = .filtering name sessions kept index)
    (hn : (s.active.lists sessions).length - index ≤ n) : Releases peer i (n + 2) s := by
  induction n generalizing s kept index with
  | zero =>
    have hend : (s.active.lists sessions)[index]? = none :=
      List.getElem?_eq_none (by omega)
    have hstep : step peer s (.rebind i) =
        some ((s.setPhase i .rebound).setActive (s.active.rebind name kept)) := by
      simp only [step, hi, if_pos hend]
    exact .step rfl hstep (releases_rebound (Function.update_self ..))
  | succ n ih =>
    cases hx : (s.active.lists sessions)[index]? with
    | none => exact (ih hi (by have := List.getElem?_eq_none_iff.mp hx; omega)).mono (by omega)
    | some x =>
      have hstep : step peer s (.examine i) =
          some (s.setPhase i (.filtering name sessions (keep peer i kept x) (index + 1))) := by
        simp only [step, hi, hx, Option.map_some]
      refine .step rfl hstep (ih (Function.update_self ..) ?_)
      rw [State.setPhase_active]
      omega

theorem releases_leaving {name : String} (hi : s.phase i = .leaving name) :
    Releases peer i ((s.active.contents name).length + 3) s := by
  cases hbound : s.active.table.get? name with
  | none =>
    have hstep : step peer s (.get i) = some (s.setPhase i .rebound) := by
      simp only [step, hi, hbound]
    exact Releases.mono (.step rfl hstep (releases_rebound (Function.update_self ..))) (by omega)
  | some sessions =>
    by_cases hnothing : s.active.lists sessions = []
    · have hstep : step peer s (.get i) = some (s.setPhase i .rebound) := by
        simp only [step, hi, hbound, if_pos hnothing]
      exact Releases.mono (.step rfl hstep (releases_rebound (Function.update_self ..))) (by omega)
    · have hstep : step peer s (.get i) =
          some (s.setPhase i (.filtering name sessions [] 0)) := by
        simp only [step, hi, hbound, if_neg hnothing]
      rw [ListTable.contents_of_get? hbound]
      exact .step rfl hstep (releases_filtering _ (Function.update_self ..) le_rfl)

/-- The sessions that a thread that takes itself out has yet to look at. -/
def Phase.left (active : ListTable String Transport) : Phase → ℕ
  | .leaving name => (active.contents name).length
  | .filtering _ sessions _ index => (active.lists sessions).length - index
  | _ => 0

/-- In every state that the threads can reach, whoever holds the lock comes to release it,
by steps of its own that nothing can stop: three at the most, besides one for each session
that the removal has yet to look at. -/
theorem lock_released (peer : ℕ → String × ℕ) (as : List Action) (s : State) (i : ℕ)
    (hr : run (step peer) {} as = some s) (hlock : s.lock = some i) :
    ∃ bs s', (∀ b ∈ bs, b.session = i) ∧ bs.length ≤ (s.phase i).left s.active + 3 ∧
      run (step peer) s bs = some s' ∧ s'.lock = none := by
  have hinv : Guarded peer s ∧ Occupied s :=
    run_invariant' (P := fun s => Guarded peer s ∧ Occupied s)
      (fun h hstep => ⟨guarded_step h.1 hstep, occupied_step h.2 hstep⟩)
      ⟨guarded_init, nofun⟩ hr
  have hlocked := hinv.2 i hlock
  change Releases peer i ((s.phase i).left s.active + 3) s
  cases hi : s.phase i with
  | out | registered =>
    rw [hi] at hlocked
    cases hlocked
  | entered => exact releases_entered hi
  | found => exact (releases_found hi).mono (by omega)
  | appended => exact (releases_appended hi).mono (by omega)
  | rebound => exact (releases_rebound hi).mono (by omega)
  | leaving => exact releases_leaving hi
  | filtering name sessions kept index =>
    refine (releases_filtering _ hi le_rfl).mono ?_
    rw [Phase.left]
    omega

end Lists

/-- Two sessions of one server; the first takes itself out and has looked at one of them. -/
theorem lock_released_leaving :
    let peer : ℕ → String × ℕ := fun i => ("192.0.2.1", i)
    let as : List Action := [.acquire 0 "a", .setdefault 0, .append 0, .release 0, .acquire 1 "a",
      .setdefault 1, .append 1, .release 1, .leave 0, .get 0, .examine 0]
    ∃ s bs s', run (step peer) {} as = some s ∧ (∀ b ∈ bs, b.session = 0) ∧ bs.length ≤ 4 ∧
      run (step peer) s bs = some s' ∧ s'.lock = none := by
  intro peer as
  have hsome : (run (step peer) {} as).isSome := rfl
  obtain ⟨s, hr⟩ := Option.isSome_iff_exists.mp hsome
  have hlock : (run (step peer) {} as).bind State.lock = some 0 := rfl
  have hleft : (run (step peer) {} as).map (fun s => (s.phase 0).left s.active) = some 1 := rfl
  rw [hr] at hlock hleft
  obtain ⟨bs, s', hsession, hlength, hrest⟩ := lock_released peer as s 0 hr hlock
  have hone : (s.phase 0).left s.active = 1 := Option.some.inj hleft
  rw [hone] at hlength
  exact ⟨s, bs, s', hr, hsession, hlength, hrest⟩

end SessionLists

/-! ### The steps of the daemon -/

namespace State

/-- The operation that a step of a thread is. -/
def takesEffect (s : State) : Action → List TableOp
  | .register i =>
    match s.phase i with
    | .redirected m => [.register m.serverName (s.transport i)]
    | _ => []
  | .remove i =>
    match s.phase i with
    | .registered m => [.remove m.serverName (s.peer i)]
    | _ => []
  | _ => []

end State

section Threads

variable {providers : Providers} {s s' : State} {a : Action}

theorem sessions_effect (hs : Stepped providers s a s') :
    s'.activeSession.sessions =
      (s.takesEffect a).foldl TableOp.apply s.activeSession.sessions := by
  cases hs with
  | @register i m phase =>
    funext name
    change (s.activeSession.register _ _).sessions name = _
    simp only [State.takesEffect, phase, List.foldl_cons, List.foldl_nil, TableOp.apply,
      ActiveSession.sessions_register, Function.update_apply]
  | @remove i m phase =>
    obtain ⟨d, hd, hsessions⟩ := (s.leave i (.left m)).removeServerSession_eq i m.serverName
    rw [hd]
    funext name
    change d.sessions name = _
    rw [hsessions]
    simp only [State.takesEffect, phase, List.foldl_cons, List.foldl_nil, TableOp.apply,
      Function.update_apply]
    split_ifs with hname
    · rw [hname]
      rfl
    · rfl
  | keep | condemn =>
    cases ‹Thread› <;> rfl
  | _ => rfl

theorem sessions_run {db : ServerMap} {as : List Action}
    (hr : run (step providers) { db } as = some s) :
    s.activeSession.sessions =
      (seen (step providers) State.takesEffect { db } as).foldl TableOp.apply fun _ => [] :=
  seen_foldl (P := fun _ => True)
    (fun _ hstep => ⟨trivial, sessions_effect (stepped_of_step hstep)⟩) trivial hr

end Threads

/-- The table is linearizable. Whatever steps the threads take in between, the lists are what
the operations make of the empty table, one at a time, in the order in which they took
effect, each while its thread had the lock; and the table of the daemon's threads is what
their registrations and removals make of it, so where the operations are the same ones, so
are the tables. -/
theorem tables_linearized (peer : ℕ → String × ℕ) (providers : Providers) (db : ServerMap) :
    (∀ as s, run (SessionLists.step peer) {} as = some s →
      s.active.contents =
        (seen (SessionLists.step peer) (SessionLists.takesEffect peer) {} as).foldl TableOp.apply
          (fun _ => []) ∧
      Along (SessionLists.step peer) (fun s a => SessionLists.takesEffect peer s a ≠ [] →
        s.lock = some a.session) {} as) ∧
    ∀ as s, run (step providers) { db } as = some s →
      s.activeSession.sessions = (seen (step providers) State.takesEffect { db } as).foldl
        TableOp.apply (fun _ => []) :=
  ⟨fun _ _ hr => ⟨SessionLists.contents_run hr, SessionLists.locked_run SessionLists.guarded_init⟩,
    fun _ _ hr => sessions_run hr⟩

/-- Two sessions of one server, the first of them over: in the lists with every step of the
blocks, and among the daemon's threads. -/
theorem tables_linearized_two :
    let peer : ℕ → String × ℕ := fun i => ("192.0.2.1", i)
    let a : LBServerMeta :=
      { providerName := "p", workspace := .parse "/p/a", serverName := "a", createdTimestamp := 0 }
    let providers : Providers := .ofPairs [("p", ⟨"p", {}, .parse "/p", .footloose⟩)]
    let steps : List SessionLists.Action :=
      [.acquire 0 "a", .setdefault 0, .append 0, .release 0, .acquire 1 "a", .setdefault 1,
        .append 1, .release 1, .leave 0, .get 0, .examine 0, .examine 0, .rebind 0]
    let operations : List Action :=
      [.connect 0 (peer 0), .connect 1 (peer 1), .load 0, .pick 0 a, .redirect 0, .register 0,
        .load 1, .pick 1 a, .redirect 1, .register 1, .remove 0]
    ∃ s s', run (SessionLists.step peer) {} steps = some s ∧
      run (step providers) { db := .ofPairs [("a", a)] } operations = some s' ∧
      s.active.contents = s'.activeSession.sessions := by
  intro peer a providers steps operations
  have hlinearized := tables_linearized peer providers (.ofPairs [("a", a)])
  refine ⟨_, _, rfl, rfl, ?_⟩
  have hlists := (hlinearized.1 steps _ rfl).1
  have hthreads := hlinearized.2 operations _ rfl
  exact hlists.trans hthreads.symm

end Lobbyboy.Daemon
