import Lobbyboy.Daemon.Races

/-! Where a verdict comes from, and what becomes of it, in any run of the threads. Whoever
calls `destroy_server` has judged the server after its last other step, and the server was
recorded when the daemon started or has been created since; whoever deletes a record has
called `destroy_server` before. A session that fails once it is registered leaves its
transport behind, and as long as it is in the table no verdict on its server is `True`. -/

namespace Lobbyboy.Daemon

open Foundation Utils Config Provider ServerKiller

variable {providers : Providers} {s s' : State} {a : Action} {t : Thread} {m : LBServerMeta}
  {db : ServerMap} {as : List Action}

/-! ### Verdicts -/

/-- The step is a `True` verdict of the thread on that server. -/
def Condemns (providers : Providers) (t : Thread) (m : LBServerMeta) (s : State) (a : Action) :
    Prop :=
  ∃ now₁ now₂, a = .judge t now₁ now₂ ∧ s.toJudge t = some m ∧
    verdictOn providers s.activeSession m now₁ now₂ = some true

/-- The step is the thread's call of `destroy_server` on that server. -/
def Calls (t : Thread) (m : LBServerMeta) (s : State) (a : Action) : Prop :=
  a = .callDestroy t ∧ s.verdict t = .condemned m

/-- A session with a verdict has ended. -/
def Settled (s : State) : Prop := ∀ i, s.verdict (.session i) ≠ .none → s.phase i = .ended

namespace Settled

theorem setPhase (h : Settled s) {i : ℕ} {p : Phase} (hp : s.phase i ≠ .ended) :
    Settled (s.setPhase i p) := by
  intro j hj
  rw [State.setPhase_phase, if_neg]
  · exact h j hj
  · rintro rfl
    exact hp (h j hj)

theorem leave (h : Settled s) {i : ℕ} {p : Phase} (hp : s.phase i ≠ .ended) :
    Settled (s.leave i p) := h.setPhase (i := i) (p := p) hp

theorem setVerdict (h : Settled s) {v : Verdict} (hv : ∀ i, t = .session i → s.phase i = .ended) :
    Settled (s.setVerdict t v) := by
  intro j hj
  rw [State.setVerdict_verdict] at hj
  split_ifs at hj with ht
  · exact hv j ht.symm
  · exact h j hj

theorem judged (h : Settled s) (t : Thread) : Settled (s.judged t) := by
  cases t with
  | killer => exact h
  | session i =>
    intro j hj
    change (s.setPhase i .ended).phase j = .ended
    rw [State.setPhase_phase]
    split_ifs
    · rfl
    · exact h j hj

theorem judged_phase (t : Thread) (i : ℕ) (ht : t = .session i) :
    (s.judged t).phase i = .ended := by
  subst ht
  exact Function.update_self ..

theorem step (h : Settled s) (hs : Stepped providers s a s') : Settled s' := by
  cases hs with
  | connect phase | load phase | create phase | register phase =>
    exact h.setPhase (by rw [phase]; nofun)
  | pick phase _ | redirect phase => exact h.setPhase (by rw [phase]; nofun)
  | @remove i m phase =>
    obtain ⟨d, hd, -⟩ := (s.leave i (.left m)).removeServerSession_eq i m.serverName
    rw [hd]
    exact h.leave (by rw [phase]; nofun)
  | @fail i notCalled =>
    intro j hj
    rw [State.setVerdict_verdict] at hj
    split_ifs at hj with hji
    · exact absurd rfl hj
    · change (s.leave i .ended).phase j = .ended
      rw [State.leave_phase]
      split_ifs
      · rfl
      · exact h j hj
  | round => exact h
  | @keep t _ _ _ toJudge => exact (h.judged t).setVerdict fun i => judged_phase t i
  | @condemn t _ _ _ toJudge _ => exact (h.judged t).setVerdict fun i => judged_phase t i
  | callDestroy verdict | delete verdict =>
    refine h.setVerdict (t := _) fun i hi => h i ?_
    rw [← hi, verdict]
    nofun

end Settled

/-- Only its own steps change what a thread is to carry out. -/
theorem verdict_of_other (hs : Stepped providers s a s') (ht : a.thread ≠ t) :
    s'.verdict t = s.verdict t := by
  have hset : ∀ {t' : Thread} {v : Verdict} {s₁ : State}, t' ≠ t →
      (s₁.setVerdict t' v).verdict t = s₁.verdict t := by
    intro t' v s₁ hne
    rw [State.setVerdict_verdict, if_neg hne.symm]
  cases hs with
  | connect | load | pick | create | redirect | register | round => rfl
  | @remove i m phase =>
    obtain ⟨d, hd, -⟩ := (s.leave i (.left m)).removeServerSession_eq i m.serverName
    rw [hd]
    rfl
  | fail => exact hset ht
  | @keep t' _ _ _ _ | @condemn t' _ _ _ _ _ =>
    refine (hset ht).trans ?_
    cases t' <;> rfl
  | callDestroy | delete => exact hset ht

/-- What a thread is to carry out after a step of its own, it has decided with this step. -/
theorem verdict_of_own (hsettled : Settled s) (hs : Stepped providers s a s') (ht : a.thread = t)
    (hv : s'.verdict t ≠ .none) :
    (∃ m, s'.verdict t = .condemned m ∧ Condemns providers t m s a) ∨
      ∃ m, s'.verdict t = .called m ∧ Calls t m s a := by
  have hactive : ∀ {i : ℕ}, s.phase i ≠ .ended → s.verdict (.session i) = .none :=
    fun {i} hp => by_contra fun hne => hp (hsettled i hne)
  have hset : ∀ {t' : Thread} {v : Verdict} {s₁ : State}, (s₁.setVerdict t' v).verdict t' = v :=
    Function.update_self ..
  subst ht
  cases hs with
  | connect phase | load phase | pick phase | create phase | redirect phase | register phase =>
    exact absurd (hactive (by rw [phase]; nofun)) hv
  | @remove i m phase =>
    obtain ⟨d, hd, -⟩ := (s.leave i (.left m)).removeServerSession_eq i m.serverName
    rw [hd] at hv
    exact absurd (hactive (by rw [phase]; nofun)) hv
  | fail | keep | delete => exact absurd hset hv
  | round verdict => exact absurd verdict hv
  | condemn toJudge verdict => exact .inl ⟨_, hset, _, _, rfl, toJudge, verdict⟩
  | callDestroy verdict => exact .inr ⟨_, hset, rfl, verdict⟩

theorem run_settled (hr : run (step providers) { db } as = some s) : Settled s :=
  run_invariant' (fun h hs => Settled.step h (stepped_of_step hs)) (fun _ h => absurd rfl h) hr

/-- Since its verdict, or its call, a thread has done nothing else. -/
structure Decided (providers : Providers) (db : ServerMap) (as : List Action) (s : State) :
    Prop where
  run : run (step providers) { db } as = some s
  condemned : ∀ t m, s.verdict t = .condemned m →
    Since (step providers) (Condemns providers t m) (·.thread ≠ t) { db } as
  called : ∀ t m, s.verdict t = .called m →
    Since (step providers) (Calls t m) (·.thread ≠ t) { db } as

theorem decided_of_run (hr : run (step providers) { db } as = some s) :
    Decided providers db as s := by
  refine run_history (H := Decided providers db) ⟨rfl, nofun, nofun⟩ ?_ hr
  intro as a s s' h hstep
  have hs := stepped_of_step hstep
  have hother : ∀ {t v}, s'.verdict t = v → a.thread ≠ t → s.verdict t = v :=
    fun hv ht => (verdict_of_other hs ht).symm.trans hv
  have hown := fun t => verdict_of_own (t := t) (run_settled h.run) hs
  refine ⟨run_concat_eq_some.mpr ⟨s, h.run, hstep⟩, fun t m hm => ?_, fun t m hm => ?_⟩
  · by_cases ht : a.thread = t
    · rcases hown t ht (by rw [hm]; nofun) with ⟨m', hm', hcondemns⟩ | ⟨m', hm', -⟩
      · cases hm.symm.trans hm'
        exact since_now h.run hcondemns
      · cases hm.symm.trans hm'
    · exact (h.condemned t m (hother hm ht)).concat ht
  · by_cases ht : a.thread = t
    · rcases hown t ht (by rw [hm]; nofun) with ⟨m', hm', -⟩ | ⟨m', hm', hcalls⟩
      · cases hm.symm.trans hm'
      · cases hm.symm.trans hm'
        exact since_now h.run hcalls
    · exact (h.called t m (hother hm ht)).concat ht

/-! ### The servers that the threads know -/

/-- Recorded when the daemon started, or created since. -/
def Mentioned (db : ServerMap) (as : List Action) (m : LBServerMeta) : Prop :=
  m ∈ db.values ∨ ∃ i, .create i m ∈ as

theorem Mentioned.concat (h : Mentioned db as m) (a : Action) : Mentioned db (as ++ [a]) m :=
  h.imp_right fun ⟨i, hi⟩ => ⟨i, List.mem_append_left _ hi⟩

/-- The servers a session holds on to. -/
def Phase.servers : Phase → List LBServerMeta
  | .choosing servers => servers.values
  | .picked m | .redirected m | .registered m | .left m => [m]
  | _ => []

/-- Every server that the state holds is one of `K`. -/
structure Within (K : LBServerMeta → Prop) (s : State) : Prop where
  db : ∀ m ∈ s.db.values, K m
  phase : ∀ i, ∀ m ∈ (s.phase i).servers, K m
  round : ∀ m ∈ s.round, K m
  verdict : ∀ t m, (s.verdict t).server = some m → K m

namespace Within

variable {K : LBServerMeta → Prop}

theorem setPhase (h : Within K s) {i : ℕ} {p : Phase} (hp : ∀ m ∈ p.servers, K m) :
    Within K (s.setPhase i p) := by
  refine ⟨h.db, fun j m hm => ?_, h.round, h.verdict⟩
  rw [State.setPhase_phase] at hm
  split_ifs at hm
  · exact hp m hm
  · exact h.phase j m hm

theorem setVerdict (h : Within K s) {v : Verdict} (hv : ∀ m, v.server = some m → K m) :
    Within K (s.setVerdict t v) := by
  refine ⟨h.db, h.phase, h.round, fun t' m hm => ?_⟩
  rw [State.setVerdict_verdict] at hm
  split_ifs at hm
  · exact hv m hm
  · exact h.verdict t' m hm

theorem judged (h : Within K s) (t : Thread) : Within K (s.judged t) := by
  cases t with
  | killer => exact ⟨h.db, h.phase, fun m hm => h.round m (List.mem_of_mem_tail hm), h.verdict⟩
  | session i => exact h.setPhase nofun

theorem toJudge (h : Within K s) (ht : s.toJudge t = some m) : K m := by
  unfold State.toJudge at ht
  split at ht
  · exact h.round m (List.mem_of_head? ht)
  · split at ht
    · next hphase =>
      cases ht
      exact h.phase _ m (by rw [hphase]; exact List.mem_singleton_self m)
    · cases ht
  · cases ht

/-- A change of the records to some of them and those that were created. -/
theorem merge (h : Within K s) {new deleted : List LBServerMeta} (hnew : ∀ m ∈ new, K m) :
    ∀ m ∈ (mergeServers s.db new deleted).values, K m := by
  rw [mergeServers_eq, OrderedDict.forall_mem_values_merge h.db]
  intro name m hm _
  obtain ⟨ps, qs, hsplit, -⟩ := hm
  have hmem : (name, m) ∈ new.map fun s => (s.serverName, s) := by
    rw [hsplit]
    exact List.mem_append_right _ List.mem_cons_self
  obtain ⟨m', hm', heq⟩ := List.mem_map.mp hmem
  cases heq
  exact hnew m hm'

theorem step (h : Within K s) (hcreate : ∀ i m, a = .create i m → K m)
    (hs : Stepped providers s a s') : Within K s' := by
  cases hs with
  | @connect i peer phase fresh =>
    have h' : Within K (s.setPhase i .connected) := h.setPhase nofun
    exact ⟨h'.db, h'.phase, h'.round, h'.verdict⟩
  | load phase => exact h.setPhase h.db
  | @pick i m servers phase mem =>
    refine h.setPhase fun m' hm' => ?_
    rw [List.mem_singleton.mp hm']
    exact h.phase i m (by rw [phase]; exact mem)
  | @create i m servers phase =>
    have hm : K m := hcreate i m rfl
    have h' : Within K (s.setPhase i (.picked m)) :=
      h.setPhase fun m' hm' => by rwa [List.mem_singleton.mp hm']
    refine ⟨h.merge fun m' hm' => ?_, h'.phase, h'.round, h'.verdict⟩
    rwa [List.mem_singleton.mp hm']
  | @redirect i m phase =>
    exact h.setPhase fun m' hm' => h.phase i m' (by rw [phase]; exact hm')
  | @register i m phase =>
    have h' : Within K (s.setPhase i (.registered m)) :=
      h.setPhase fun m' hm' => h.phase i m' (by rw [phase]; exact hm')
    exact ⟨h'.db, h'.phase, h'.round, h'.verdict⟩
  | @remove i m phase =>
    obtain ⟨d, hd, -⟩ := (s.leave i (.left m)).removeServerSession_eq i m.serverName
    rw [hd]
    have h' : Within K (s.setPhase i (.left m)) :=
      h.setPhase fun m' hm' => h.phase i m' (by rw [phase]; exact hm')
    exact ⟨h'.db, h'.phase, h'.round, h'.verdict⟩
  | @fail i notCalled =>
    have h' : Within K (s.setPhase i .ended) := h.setPhase nofun
    have h'' : Within K (s.leave i .ended) := ⟨h'.db, h'.phase, h'.round, h'.verdict⟩
    exact h''.setVerdict nofun
  | round verdict => exact ⟨h.db, h.phase, h.db, h.verdict⟩
  | @keep t m _ _ toJudge => exact (h.judged t).setVerdict nofun
  | @condemn t m _ _ toJudge verdict =>
    refine (h.judged t).setVerdict fun m' hm' => ?_
    cases hm'
    exact h.toJudge toJudge
  | @callDestroy t m verdict =>
    have h' : Within K (s.setVerdict t (.called m)) := h.setVerdict fun m' hm' => by
      cases hm'
      exact h.verdict t m (by rw [verdict]; rfl)
    exact ⟨h'.db, h'.phase, h'.round, h'.verdict⟩
  | @delete t m verdict =>
    have h' : Within K (s.setVerdict t .none) := h.setVerdict nofun
    exact ⟨h.merge nofun, h'.phase, h'.round, h'.verdict⟩

theorem mono {K' : LBServerMeta → Prop} (h : Within K s) (hK : ∀ m, K m → K' m) : Within K' s :=
  ⟨fun m hm => hK m (h.db m hm), fun i m hm => hK m (h.phase i m hm),
    fun m hm => hK m (h.round m hm), fun t m hm => hK m (h.verdict t m hm)⟩

end Within

theorem within_of_run (hr : run (step providers) { db } as = some s) :
    Within (Mentioned db as) s := by
  refine run_history (H := fun as s => Within (Mentioned db as) s) ?_ ?_ hr
  · exact ⟨fun m hm => .inl hm, nofun, nofun, nofun⟩
  · intro as a s s' h hstep
    refine (h.mono fun m hm => hm.concat a).step (fun i m ha => .inr ⟨i, ?_⟩)
      (stepped_of_step hstep)
    rw [ha]
    exact List.mem_append_right _ (List.mem_singleton_self _)

/-! ### Calls and deletions -/

theorem verdictOn_managed {table : ActiveSession Transport} {now₁ now₂ : ℤ}
    (h : verdictOn providers table m now₁ now₂ = some true) : m.manage = true := by
  unfold verdictOn at h
  split at h
  · cases h
  · split at h
    · next hd =>
      cases h
      exact (needDestroy_true hd).2
    · cases h

/-- In every run, whoever calls `destroy_server` on a server has found it without sessions,
and got the verdict `True` on it, with the last step before the call; the server is managed,
and it was recorded when the daemon started or has been created since. Whoever deletes a
record has called `destroy_server` on that server with its last step. -/
theorem destroys_after_verdict (providers : Providers) (db : ServerMap) (as : List Action)
    (s : State) (hr : run (step providers) { db } as = some s) (t : Thread) :
    (∀ s', step providers s (.callDestroy t) = some s' → ∃ m, s'.destroyed = m :: s.destroyed ∧
      Mentioned db as m ∧ m.manage = true ∧
      Since (step providers) (fun s₁ a => ∃ now₁ now₂, a = .judge t now₁ now₂ ∧
          s₁.toJudge t = some m ∧ s₁.activeSession.sessions m.serverName = [] ∧
          verdictOn providers s₁.activeSession m now₁ now₂ = some true)
        (·.thread ≠ t) { db } as) ∧
    ∀ s', step providers s (.delete t) = some s' → ∃ m, s'.db = s.db.erase m.serverName ∧
      Since (step providers) (Calls t m) (·.thread ≠ t) { db } as := by
  have hdecided := decided_of_run hr
  constructor
  · intro s' hs'
    obtain ⟨m, hm⟩ : ∃ m, s.verdict t = .condemned m := by
      cases stepped_of_step hs' with
      | callDestroy verdict => exact ⟨_, verdict⟩
    have hsince := hdecided.condemned t m hm
    simp only [step, hm, Option.some.injEq] at hs'
    subst hs'
    refine ⟨m, rfl, ?_, ?_, ?_⟩
    · exact (within_of_run hr).verdict t m (by rw [hm]; rfl)
    · obtain ⟨bs, a, cs, s₁, -, -, ⟨now₁, now₂, -, -, hv⟩, -⟩ := hsince
      exact verdictOn_managed hv
    · obtain ⟨bs, a, cs, s₁, has, hbs, ⟨now₁, now₂, ha, hjudge, hv⟩, hcs⟩ := hsince
      exact ⟨bs, a, cs, s₁, has, hbs, ⟨now₁, now₂, ha, hjudge, verdictOn_true hv, hv⟩, hcs⟩
  · intro s' hs'
    obtain ⟨m, hm⟩ : ∃ m, s.verdict t = .called m := by
      cases stepped_of_step hs' with
      | delete verdict => exact ⟨_, verdict⟩
    simp only [step, hm, Option.some.injEq] at hs'
    subst hs'
    exact ⟨m, mergeServers_deleted s.db m, hdecided.called t m hm⟩

/-- The killer is about to destroy a server that nobody has used. -/
theorem destroys_after_verdict_round :
    let a : LBServerMeta :=
      { providerName := "p", workspace := .parse "/p/a", serverName := "a", createdTimestamp := 0 }
    let providers : Providers :=
      .ofPairs [("p", ⟨"p", { minLifeToLive := some "0s" }, .parse "/p", .ignite {}⟩)]
    ∃ s s', run (step providers) { db := .ofPairs [("a", a)] } [.round, .judge .killer 60 60] =
      some s ∧ step providers s (.callDestroy .killer) = some s' ∧
      ∃ m, s'.destroyed = [m] ∧
        Since (step providers) (fun s₁ b => ∃ now₁ now₂, b = .judge .killer now₁ now₂ ∧
            s₁.toJudge .killer = some m ∧ s₁.activeSession.sessions m.serverName = [] ∧
            verdictOn providers s₁.activeSession m now₁ now₂ = some true)
          (·.thread ≠ .killer) { db := .ofPairs [("a", a)] } [.round, .judge .killer 60 60] := by
  intro a providers
  have hrun : run (step providers) { db := .ofPairs [("a", a)] } [.round, .judge .killer 60 60] =
      some ((({ db := .ofPairs [("a", a)], round := [a] } : State).judged .killer).setVerdict
        .killer (.condemned a)) := rfl
  have hcalls := (destroys_after_verdict providers _ _ _ hrun .killer).1 _ rfl
  obtain ⟨m, hm, -, -, hsince⟩ := hcalls
  exact ⟨_, _, hrun, rfl, m, hm, hsince⟩

/-! ### What a failed session leaves behind -/

/-- A session with that address is taken out of the table there. -/
def TakesOut (peer : String × ℕ) (serverName : String) (s : State) (a : Action) : Prop :=
  ∃ i m, a = .remove i ∧ s.phase i = .registered m ∧ m.serverName = serverName ∧ s.peer i = peer

section LeftBehind

variable {i : ℕ} {serverName : String}

theorem ended_step (hi : s.phase i = .ended) (hs : Stepped providers s a s') :
    s'.phase i = .ended ∧ s'.transport i = s.transport i := by
  have hset : ∀ {j : ℕ} {p : Phase}, s.phase j ≠ .ended → (s.setPhase j p).phase i = .ended := by
    intro j p hj
    rw [State.setPhase_phase, if_neg, hi]
    rintro rfl
    exact hj hi
  have hended : ∀ j, (s.setPhase j .ended).phase i = .ended := by
    intro j
    rw [State.setPhase_phase, hi, ite_self]
  cases hs with
  | @connect j peer phase _ =>
    have hne : i ≠ j := by
      rintro rfl
      rw [hi] at phase
      cases phase
    refine ⟨hset (by rw [phase]; nofun), ?_⟩
    exact congrArg (Transport.mk i) (Function.update_of_ne hne ..)
  | load phase | pick phase | create phase | redirect phase | register phase =>
    exact ⟨hset (by rw [phase]; nofun), rfl⟩
  | @remove j m phase =>
    obtain ⟨d, hd, -⟩ := (s.leave j (.left m)).removeServerSession_eq j m.serverName
    rw [hd]
    exact ⟨hset (by rw [phase]; nofun), rfl⟩
  | @fail j => exact ⟨hended j, rfl⟩
  | round | callDestroy | delete => exact ⟨hi, rfl⟩
  | @keep t | @condemn t =>
    cases t with
    | killer => exact ⟨hi, rfl⟩
    | session j => exact ⟨hended j, rfl⟩

/-- The transport of a session that has ended is only ever taken out. -/
theorem mem_sessions_step (hi : s.phase i = .ended) (hs : Stepped providers s a s') :
    s.transport i ∈ s'.activeSession.sessions serverName ↔
      s.transport i ∈ s.activeSession.sessions serverName ∧
        ¬ TakesOut (s.peer i) serverName s a := by
  have hkeeps : ∀ {table : ActiveSession Transport}, (∀ j, a ≠ .remove j) →
      table = s.activeSession → (s.transport i ∈ table.sessions serverName ↔
        s.transport i ∈ s.activeSession.sessions serverName ∧
          ¬ TakesOut (s.peer i) serverName s a) := by
    rintro table ha rfl
    exact (and_iff_left fun ⟨j, _, hj, _⟩ => ha j hj).symm
  cases hs with
  | @register j m phase =>
    have hne : s.transport i ≠ s.transport j := by
      intro heq
      cases congrArg Transport.ident heq
      rw [hi] at phase
      cases phase
    have hnot : ¬ TakesOut (s.peer i) serverName s (.register j) := fun ⟨_, _, h, _⟩ => by cases h
    change _ ∈ (s.activeSession.register _ _).sessions serverName ↔ _
    rw [ActiveSession.sessions_register, and_iff_left hnot]
    split_ifs with hname
    · rw [List.mem_append, List.mem_singleton, or_iff_left hne, hname]
    · rfl
  | @remove j m phase =>
    obtain ⟨d, hd, hsessions⟩ := (s.leave j (.left m)).removeServerSession_eq j m.serverName
    rw [hd]
    change _ ∈ d.sessions serverName ↔ _
    have htakes : TakesOut (s.peer i) serverName s (.remove j) ↔
        m.serverName = serverName ∧ s.peer j = s.peer i := by
      constructor
      · rintro ⟨j', m', hj, hphase, hname, hpeer⟩
        cases hj
        cases phase.symm.trans hphase
        exact ⟨hname, hpeer⟩
      · rintro ⟨hname, hpeer⟩
        exact ⟨j, m, rfl, phase, hname, hpeer⟩
    rw [hsessions, htakes]
    change _ ∈ (if serverName = m.serverName then
      (s.activeSession.sessions serverName).filter (·.peer ≠ s.peer j)
      else s.activeSession.sessions serverName) ↔ _
    split_ifs with hname
    · rw [List.mem_filter, decide_eq_true_eq]
      refine and_congr_right fun _ => not_congr ?_
      exact ⟨fun h => ⟨hname.symm, h.symm⟩, fun h => h.2.symm⟩
    · exact (and_iff_left fun h => hname h.1.symm).symm
  | keep | condemn =>
    refine hkeeps nofun ?_
    cases ‹Thread› <;> rfl
  | _ => exact hkeeps nofun rfl

/-- It stays in the table exactly as long as no session with its address is taken out there. -/
theorem mem_sessions_run {bs : List Action} (hi : s.phase i = .ended)
    (hr : run (step providers) s bs = some s') :
    s.transport i ∈ s'.activeSession.sessions serverName ↔
      s.transport i ∈ s.activeSession.sessions serverName ∧
        Along (step providers) (fun s₁ a => ¬ TakesOut (s.peer i) serverName s₁ a) s bs := by
  induction bs generalizing s with
  | nil =>
    cases hr
    exact (and_iff_left trivial).symm
  | cons a bs ih =>
    rw [run_cons, Option.bind_eq_some_iff] at hr
    obtain ⟨s₁, hstep, hr⟩ := hr
    have hs := stepped_of_step hstep
    obtain ⟨hended, htransport⟩ := ended_step hi hs
    have hpeer : s₁.peer i = s.peer i := congrArg Transport.peer htransport
    have hrest := ih hended hr
    rw [htransport, hpeer, mem_sessions_step hi hs] at hrest
    rw [hrest, along_cons hstep, and_assoc]

/-- While it is there, no server of that name gets the verdict `True`. -/
theorem not_condemned_run {bs : List Action} (hi : s.phase i = .ended)
    (hin : s.transport i ∈ s.activeSession.sessions serverName)
    (h : Along (step providers) (fun s₁ a => ¬ TakesOut (s.peer i) serverName s₁ a) s bs) :
    Along (step providers) (fun s₁ a => ∀ t m, m.serverName = serverName →
      ¬ Condemns providers t m s₁ a) s bs := by
  refine along_of_invariant (P := fun s₁ => s₁.phase i = .ended ∧ s₁.transport i = s.transport i ∧
    s.transport i ∈ s₁.activeSession.sessions serverName) ?_ ?_ h ⟨hi, rfl, hin⟩
  · rintro s₁ a s₂ hnot ⟨hended, htransport, hmem⟩ hstep
    have hs := stepped_of_step hstep
    obtain ⟨hended', htransport'⟩ := ended_step hended hs
    have hpeer : s₁.peer i = s.peer i := congrArg Transport.peer htransport
    refine ⟨hended', htransport'.trans htransport, ?_⟩
    rw [← htransport, mem_sessions_step hended hs, htransport, hpeer]
    exact ⟨hmem, hnot⟩
  · rintro s₁ a _ ⟨-, -, hmem⟩ t m hname ⟨now₁, now₂, -, -, hv⟩
    have hnone := verdictOn_true hv
    rw [hname] at hnone
    rw [hnone] at hmem
    cases hmem

end LeftBehind

end Lobbyboy.Daemon
