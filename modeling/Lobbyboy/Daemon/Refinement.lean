import Lobbyboy.Daemon.Threads
import Lobbyboy.Foundation.Simulation
import Lobbyboy.SocketHandle.Seat

/-! The steps of the threads are those of the programs. A session, from the connection to
the end of its thread, is a run of steps of that session; the patrol is a run of steps of
the killer. In between, where a program looks at the session table, it finds what the
other threads have made of it. -/

namespace Lobbyboy.Daemon

open Foundation Utils Config Provider ServerKiller SocketHandle Prog

namespace State

variable (s : State)

/-- The server on which the step calls `destroy_server`. -/
def calls : Action → List LBServerMeta
  | .callDestroy t => (s.verdict t).server.toList
  | _ => []

/-- The others have been at the table. -/
def moved (env : Env Transport) (s : State) (n : ℕ) : State :=
  { s with activeSession := env.others n s.activeSession }

end State

/-- The calls that show in a step, or in a move of the others. -/
def shows (s : State) : Action ⊕ ℕ → List LBServerMeta := Sum.elim s.calls fun _ => []

/-- What one thread makes of the state and of the calls so far, the others being at the
table in between. -/
def threadFrame (providers : Providers) (env : Env Transport) (t : Thread) :
    Frame (State × List LBServerMeta) :=
  reaching (watched (amid (step providers) (State.moved env)) shows)
    fun a => ∀ b, a = .inl b → b.thread = t

/-- The file, the table and the log are those of the state and the calls. -/
structure Mirrors (w : World Transport) (x : State × List LBServerMeta) : Prop where
  records : Records w.db x.1.db
  table : w.activeSession = x.1.activeSession
  calls : (destroyCalls w.log).map Prod.fst = x.2

section Steps

variable {providers : Providers} {env : Env Transport} {t : Thread} {w w' : World Transport}
  {x : State × List LBServerMeta}

theorem Mirrors.silent (h : Mirrors w x) (hs : Silent w w') : Mirrors w' x where
  records := by rw [hs.db]; exact h.records
  table := hs.activeSession.trans h.table
  calls := by rw [hs.log]; exact h.calls

theorem Mirrors.moved (env : Env Transport) (h : Mirrors w x) (n : ℕ) :
    Mirrors { w.next with activeSession := env.others n w.activeSession }
      (x.1.moved env n, x.2) where
  records := h.records
  table := congrArg (env.others n) h.table
  calls := h.calls

theorem threadFrame_moved (x : State × List LBServerMeta) (n : ℕ) :
    (threadFrame providers env t).rel x (x.1.moved env n, x.2) := by
  refine reaching_step (a := .inr n) nofun ?_
  simp [watched, amid, shows]

theorem threadFrame_step (env : Env Transport) {a : Action} {s' : State} (ht : a.thread = t)
    (h : step providers x.1 a = some s') :
    (threadFrame providers env t).rel x (s', x.2 ++ x.1.calls a) := by
  refine reaching_step (a := .inl a) (fun b hb => by cases hb; exact ht) ?_
  simp [watched, amid, shows, h]

theorem threadFrame_quiet {a : Action} {s' : State} (ht : a.thread = t) (hcalls : x.1.calls a = [])
    (h : step providers x.1 a = some s') : (threadFrame providers env t).rel x (s', x.2) := by
  have hstep := threadFrame_step env ht h
  rwa [hcalls, List.append_nil] at hstep

/-- A look at the table. -/
theorem follows_readSessions {α : Type} {f : ActiveSession Transport → Prog Transport α}
    {Q : α → World Transport → State × List LBServerMeta → Prop}
    {E : Stop → World Transport → State × List LBServerMeta → Prop}
    (hf : Follows (threadFrame providers env t) (f (env.others w.tick w.activeSession)) Q E
      { w.next with activeSession := env.others w.tick w.activeSession }
      (x.1.moved env w.tick, x.2)) :
    Follows (threadFrame providers env t) (readSessions env >>= f) Q E w x := by
  refine Follows.bind ?_
  rw [Follows, wp_readSessions]
  exact ⟨_, threadFrame_moved x w.tick, hf⟩

end Steps

/-! ### Steps of a session that do not show -/

section Silent

variable {env : Env Transport}

theorem silent_prepareServer : Keeps silent (prepareServer env) := by
  refine .bind silent_call fun _ => .bind silent_call fun _ => .bind ?_ fun started => .ite ?_ ?_
  · exact silent_handle (.bind silent_call fun _ => .pure _) fun e =>
      .ite (.pure _) (silent_raise _)
  · refine .bind silent_call fun _ => .bind silent_tick fun _ => .bind ?_ fun _ => .pure _
    exact .modify fun _ => ⟨rfl, rfl, rfl, rfl⟩
  · exact .pure _

theorem silent_hangUp : Keeps silent (hangUp env) :=
  .bind .get fun _ => .ite (.bind silent_call fun _ => silent_call) silent_call

theorem silent_fromExcept {α : Type} (r : Except PyExc α) :
    Keeps silent (fromExcept r : Prog Transport α) := by
  cases r with
  | ok a => exact .pure a
  | error e => exact silent_raise e

theorem silent_attempt (failure : Option PyExc) : Keeps silent (attempt failure) := by
  cases failure with
  | none => exact .pure _
  | some e => exact silent_raise e

theorem silent_deliver (bytes : List UInt8) (failure : Option PyExc) :
    Keeps silent (deliver bytes failure) :=
  .bind (silent_attempt failure) fun _ => .modify fun _ => ⟨rfl, rfl, rfl, rfl⟩

theorem silent_takeTurn (turn : Turn) : Keeps silent (takeTurn turn) := by
  cases turn with
  | idle => exact .pure _
  | fromProxy read sent => exact .bind (silent_fromExcept read) fun _ => silent_deliver _ sent
  | fromClient received written =>
    exact .bind (silent_fromExcept received) fun _ => silent_attempt written
  | noSelect e => exact silent_raise e

theorem silent_takeTurns (turns : List Turn) : Keeps silent (takeTurns turns) := by
  induction turns with
  | nil => exact .pure _
  | cons turn turns ih => exact .bind (silent_takeTurn turn) fun _ => ih

theorem silent_inSession (terminal : Terminal) (m : LBServerMeta) :
    Keeps silent (inSession terminal m) :=
  .bind (silent_deliver _ _) fun _ =>
    .bind (.bind (silent_attempt _) fun _ => silent_takeTurns _) fun _ => silent_deliver _ _

end Silent

/-! ### A verdict and what follows from it -/

section Verdicts

variable {providers : Providers} {env : Env Transport} {provider : BaseProvider} {t : Thread}
  {w : World Transport} {x : State × List LBServerMeta} {m : LBServerMeta}

theorem verdictOn_eq {table : ActiveSession Transport} {now₁ now₂ : ℤ} {verdict : Bool}
    {reason : String} (hp : providers.get? m.providerName = some provider)
    (hv : needDestroy table provider.providerConfig m now₁ now₂ = .ok (verdict, reason)) :
    verdictOn providers table m now₁ now₂ = some verdict := by
  simp only [verdictOn, hp, hv]

theorem step_judge {s : State} {now₁ now₂ : ℤ} {verdict : Bool} (hjudge : s.toJudge t = some m)
    (hv : verdictOn providers s.activeSession m now₁ now₂ = some verdict) :
    step providers s (.judge t now₁ now₂) =
      some ((s.judged t).setVerdict t (if verdict then .condemned m else .none)) := by
  simp [step, hjudge, hv]

/-- The thread judges by the table of the moment. -/
theorem follows_needDestroyNow (h : Mirrors w x) (hjudge : x.1.toJudge t = some m)
    (hp : providers.get? m.providerName = some provider) :
    Follows (threadFrame providers env t) (needDestroyNow env provider.providerConfig m)
      (fun verdict w' x' => Mirrors w' x' ∧ (verdict.1 = true → m.manage = true) ∧
        x'.1 = ((x.1.moved env w.tick).judged t).setVerdict t
          (if verdict.1 then .condemned m else .none))
      (fun _ w' x' => Mirrors w' x' ∧ x'.1 = x.1.moved env w.tick) w x := by
  refine follows_readSessions ?_
  have hmoved := h.moved env w.tick
  rw [Follows, wp_bind, wp_now, wp_bind, wp_now, wp_fromExcept]
  constructor
  · rintro ⟨verdict, reason⟩ hv
    rw [h.table] at hv
    have hstep := step_judge (s := x.1.moved env w.tick) hjudge (verdictOn_eq hp hv)
    refine ⟨_, threadFrame_quiet (a := .judge t _ _) rfl rfl hstep, ⟨?_, ?_, ?_⟩, ?_, rfl⟩
    · cases t <;> exact h.records
    · cases t <;> exact hmoved.table
    · exact h.calls
    · rintro rfl
      exact (needDestroy_true hv).2
  · intro e he
    exact ⟨_, (threadFrame ..).refl _, hmoved.silent ⟨rfl, rfl, rfl, rfl⟩, rfl⟩

/-- The call, and the deletion of the record if it returns. -/
theorem follows_destroy (h : Mirrors w x) (hv : x.1.verdict t = .condemned m)
    (hm : m.manage = true) :
    Follows (threadFrame providers env t) (destroy env provider m)
      (fun _ w' x' => Mirrors w' x' ∧ x'.1.verdict t = .none ∧ x'.1.phase = x.1.phase ∧
        x'.1.round = x.1.round)
      (fun _ w' x' => Mirrors w' x' ∧ x'.1.phase = x.1.phase) w x := by
  have hcall : step providers x.1 (.callDestroy t) =
      some { x.1.setVerdict t (.called m) with destroyed := m :: x.1.destroyed } := by
    simp only [step, hv]
  have hcalls : x.1.calls (.callDestroy t) = [m] := by
    rw [State.calls, hv]
    rfl
  have hx₁ := threadFrame_step env (a := .callDestroy t) rfl hcall
  rw [hcalls] at hx₁
  have hlog : ∀ answer, Mirrors { w.next with log := w.log ++ [.destroyServer m answer] }
      ({ x.1.setVerdict t (.called m) with destroyed := m :: x.1.destroyed }, x.2 ++ [m]) := by
    refine fun answer => ⟨h.records, h.table, ?_⟩
    rw [destroyCalls_append, List.map_append, h.calls]
    rfl
  refine .after hx₁ ?_
  simp only [destroy, hm, Bool.true_eq_false, if_false]
  rw [Follows, wp_bind, wp_destroyServer]
  constructor
  · intro b _
    rw [wp_updateServers]
    constructor
    · intro r hr
      obtain ⟨file, hu, hrecords⟩ := records_update (h.records (env.time (w.tick + 1))) [] [m]
      cases hu.symm.trans hr
      have hdelete : step providers
          { x.1.setVerdict t (.called m) with destroyed := m :: x.1.destroyed } (.delete t) =
          some { (x.1.setVerdict t (.called m)).setVerdict t .none with
            db := mergeServers x.1.db [] [m], destroyed := m :: x.1.destroyed } := by
        simp only [step, State.setVerdict, Function.update_self]
      refine ⟨_, threadFrame_quiet (a := .delete t) rfl rfl hdelete,
        ⟨hrecords, h.table, (hlog (.ok b)).calls⟩, by simp [State.setVerdict], rfl, rfl⟩
    · intro e he
      obtain ⟨file, hu, -⟩ := records_update (h.records (env.time (w.tick + 1))) [] [m]
      cases hu.symm.trans he
  · exact fun e _ => ⟨_, (threadFrame ..).refl _, hlog (.error e), rfl⟩

end Verdicts

/-! ### A session -/

/-- A session in some phase, with nothing to destroy. -/
structure Stands (t : Transport) (p : Phase) (w : World Transport)
    (x : State × List LBServerMeta) : Prop extends Mirrors w x where
  phase : x.1.phase t.ident = p
  verdict : x.1.verdict (.session t.ident) = .none
  peer : x.1.peer t.ident = t.peer

/-- A session that has begun; once it has called `destroy_server`, it has ended. -/
structure Begun (t : Transport) (w : World Transport) (x : State × List LBServerMeta) : Prop
    extends Mirrors w x where
  present : x.1.phase t.ident ≠ .absent
  called : ∀ m, x.1.verdict (.session t.ident) = .called m → x.1.phase t.ident = .ended

structure Over (t : Transport) (w : World Transport) (x : State × List LBServerMeta) : Prop
    extends Mirrors w x where
  phase : x.1.phase t.ident = .ended

section Session

variable {providers : Providers} {env : Env Transport} {t : Transport} {terminal : Terminal}
  {w w' : World Transport} {x : State × List LBServerMeta} {p : Phase} {m : LBServerMeta}

theorem Stands.silent (h : Stands t p w x) (hs : Silent w w') : Stands t p w' x :=
  ⟨h.toMirrors.silent hs, h.phase, h.verdict, h.peer⟩

theorem Stands.next (h : Stands t p w x) : Stands t p w.next x := h.silent ⟨rfl, rfl, rfl, rfl⟩

theorem Stands.moved (env : Env Transport) (h : Stands t p w x) (n : ℕ) :
    Stands t p { w.next with activeSession := env.others n w.activeSession }
      (x.1.moved env n, x.2) :=
  ⟨h.toMirrors.moved env n, h.phase, h.verdict, h.peer⟩

theorem Stands.setPhase (h : Stands t p w x) (p' : Phase) :
    Stands t p' w (x.1.setPhase t.ident p', x.2) :=
  ⟨⟨h.records, h.table, h.calls⟩, by simp, h.verdict, h.peer⟩

theorem Stands.begun (h : Stands t p w x) (hp : p ≠ .absent) : Begun t w x := by
  refine ⟨h.toMirrors, by rw [h.phase]; exact hp, fun m hm => ?_⟩
  rw [h.verdict] at hm
  cases hm

theorem Begun.silent (h : Begun t w x) (hs : Silent w w') : Begun t w' x :=
  ⟨h.toMirrors.silent hs, h.present, h.called⟩

/-- Whatever has happened, the session can end. -/
theorem Begun.over (h : Begun t w x) :
    ∃ x', (threadFrame providers env (.session t.ident)).rel x x' ∧ Over t w x' := by
  by_cases hcalled : ∃ m, x.1.verdict (.session t.ident) = .called m
  · obtain ⟨m, hm⟩ := hcalled
    exact ⟨x, (threadFrame ..).refl x, h.toMirrors, h.called m hm⟩
  · have hfail : step providers x.1 (.fail t.ident) =
        some ((x.1.leave t.ident .ended).setVerdict (.session t.ident) .none) := by
      have hpresent := h.present
      rw [not_exists] at hcalled
      cases hphase : x.1.phase t.ident with
      | absent => exact absurd hphase hpresent
      | _ =>
        cases hverdict : x.1.verdict (.session t.ident) with
        | called m => exact absurd hverdict (hcalled m)
        | _ => simp [step, hphase, hverdict]
    refine ⟨_, threadFrame_quiet (a := .fail t.ident) rfl rfl hfail,
      ⟨h.records, h.table, h.calls⟩, ?_⟩
    simp [State.setVerdict]

/-! ### Choosing a server -/

/-- What does not show leaves the session where it is. -/
theorem Stands.seq {α β : Type} {program : Prog Transport α} {f : α → Prog Transport β}
    {Q : β → World Transport → State × List LBServerMeta → Prop} (h : Stands t p w x)
    (hp : p ≠ .absent) (hkeeps : Keeps Lobbyboy.silent program)
    (hf : ∀ a w', Stands t p w' x → Follows (threadFrame providers env (.session t.ident)) (f a) Q
      (fun _ w' x' => Begun t w' x') w' x) :
    Follows (threadFrame providers env (.session t.ident)) (program >>= f) Q
      (fun _ w' x' => Begun t w' x') w x :=
  .seq hkeeps (fun _ _ hs => (h.silent hs).begun hp) fun a w' hs => hf a w' (h.silent hs)

theorem Stands.create {servers : ServerMap} {d : ServerMap} {provider : BaseProvider}
    (h : Stands t (.choosing servers) w x) (hrecorded : Recorded provider m d w w') :
    ∃ x', (threadFrame providers env (.session t.ident)).rel x x' ∧ Stands t (.picked m) w' x' := by
  obtain ⟨w₁, hcreated, -, hlog, htable⟩ := hrecorded.created
  obtain ⟨now, hload⟩ := hrecorded.loaded
  obtain ⟨order, hrequest⟩ := hcreated.requested.log
  cases (h.records now).symm.trans hload
  have hstep : step providers x.1 (.create t.ident m) =
      some { x.1.setPhase t.ident (.picked m) with
        db := mergeServers x.1.db [m] [], destroyed := x.1.destroyed.filter (· ≠ m) } := by
    simp only [step, h.phase]
  refine ⟨_, threadFrame_quiet (a := .create t.ident m) rfl rfl hstep, ⟨?_, ?_, ?_⟩, ?_,
    h.verdict, h.peer⟩
  · rw [mergeServers_new]
    exact hrecorded.records
  · rw [htable, hcreated.requested.activeSession]
    exact h.table
  · rw [hlog, hrequest, destroyCalls_append, List.map_append, h.calls]
    exact List.append_nil _
  · simp [State.setPhase]

theorem follows_askUserToCreateServer {servers : ServerMap}
    (h : Stands t (.choosing servers) w x) :
    Follows (threadFrame providers env (.session t.ident)) (askUserToCreateServer env providers)
      (fun m w' x' => Stands t (.picked m) w' x') (fun _ w' x' => Begun t w' x') w x := by
  apply wp_mono (askUserToCreateServer_spec w)
  · rintro m w' ⟨provider, -, d, hrecorded⟩
    exact h.create hrecorded
  · intro _ w' habandoned
    refine ⟨x, (threadFrame ..).refl x, Stands.begun (p := .choosing servers) ?_ nofun⟩
    refine ⟨⟨?_, habandoned.activeSession.trans h.table, ?_⟩, h.phase, h.verdict, h.peer⟩
    · rw [habandoned.db]
      exact h.records
    · rcases habandoned.requested with hlog | ⟨_, _, _, hlog⟩
      · rw [hlog]
        exact h.calls
      · rw [hlog, destroyCalls_append, List.map_append, h.calls]
        exact List.append_nil _

theorem follows_describeServers (ms : List LBServerMeta) (h : Stands t p w x) :
    Follows (threadFrame providers env (.session t.ident)) (describeServers env ms)
      (fun _ w' x' => Stands t p w' x') (fun _ _ _ => False) w x := by
  induction ms generalizing w x with
  | nil => exact .pure h
  | cons m ms ih =>
    refine follows_readSessions (Follows.bind ?_)
    exact (ih (h.moved env w.tick)).mono (fun _ _ _ h' => .pure h') fun _ _ _ h' => h'

theorem follows_chooseServer (h : Stands t .connected w x) :
    Follows (threadFrame providers env (.session t.ident)) (chooseServer env providers)
      (fun m w' x' => Stands t (.picked m) w' x') (fun _ w' x' => Begun t w' x') w x := by
  have hload : step providers x.1 (.load t.ident) =
      some (x.1.setPhase t.ident (.choosing x.1.db)) := by
    simp only [step, h.phase]
  have hloaded := h.next.setPhase (.choosing x.1.db)
  refine Follows.bind ?_
  rw [Follows, wp_loadServers]
  constructor
  · intro d hd
    cases (h.records _).symm.trans hd
    refine ⟨_, threadFrame_quiet (a := .load t.ident) rfl rfl hload, ?_⟩
    split_ifs
    · refine hloaded.seq (by simp) (silent_sendToChannel _ _) fun _ _ h₁ => ?_
      exact follows_askUserToCreateServer h₁
    · refine Follows.bind ((follows_describeServers _ hloaded).mono ?_ fun _ _ _ h => h.elim)
      intro described w₁ x₁ h₁
      refine h₁.seq (by simp) (silent_chooseOption _ _ _ _) fun userInput w₂ h₂ => ?_
      cases userInput with
      | zero => exact follows_askUserToCreateServer h₂
      | succ i =>
        dsimp only
        split
        · next m hm =>
          have hpick : step providers x₁.1 (.pick t.ident m) =
              some (x₁.1.setPhase t.ident (.picked m)) := by
            simp only [step, h₂.phase, if_pos (List.mem_of_getElem? hm)]
          exact .after (threadFrame_quiet (a := .pick t.ident m) rfl rfl hpick)
            (.pure (h₂.setPhase _))
        · exact .throw (h₂.begun (by simp))
  · intro e he
    cases (h.records _).symm.trans he

/-! ### Until the proxy process runs -/

theorem Stands.redirect (providers : Providers) (env : Env Transport)
    (h : Stands t (.picked m) w x) (hp : (providers.get? m.providerName).isSome) :
    ∃ x', (threadFrame providers env (.session t.ident)).rel x x' ∧
      Stands t (.redirected m) w x' := by
  have hstep : step providers x.1 (.redirect t.ident) =
      some (x.1.setPhase t.ident (.redirected m)) := by
    simp only [step, h.phase, hp, if_true]
  exact ⟨_, threadFrame_quiet (a := .redirect t.ident) rfl rfl hstep, h.setPhase _⟩

theorem Stands.register (providers : Providers) (env : Env Transport)
    (h : Stands t (.redirected m) w x) :
    ∃ x', (threadFrame providers env (.session t.ident)).rel x x' ∧ Stands t (.registered m)
      { w with activeSession := w.activeSession.register m.serverName t } x' := by
  have hstep : step providers x.1 (.register t.ident) =
      some { x.1.setPhase t.ident (.registered m) with
        activeSession := x.1.activeSession.register m.serverName (x.1.transport t.ident) } := by
    simp only [step, h.phase]
  refine ⟨_, threadFrame_quiet (a := .register t.ident) rfl rfl hstep,
    ⟨h.records, ?_, h.calls⟩, by simp [State.setPhase], h.verdict, h.peer⟩
  rw [State.transport, h.peer, ← h.table]

theorem follows_createProxyProcess (h : Stands t .connected w x) :
    Follows (threadFrame providers env (.session t.ident)) (createProxyProcess env providers t)
      (fun m w' x' => Stands t (.registered m) w' x') (fun _ w' x' => Begun t w' x') w x := by
  refine Follows.bind ((follows_chooseServer h).mono ?_ fun _ _ _ h => h)
  intro m w₁ x₁ h₁
  cases hp : providers.get? m.providerName with
  | none => exact .throw (h₁.begun nofun)
  | some provider =>
    obtain ⟨x₂, hx₂, h₂⟩ := h₁.redirect providers env (by rw [hp]; rfl)
    refine .after hx₂ ?_
    refine h₂.seq nofun (silent_sendToChannel _ _) fun _ w₃ h₃ => ?_
    refine h₃.seq nofun silent_call fun _ w₄ h₄ => ?_
    refine follows_readSessions ?_
    obtain ⟨x₅, hx₅, h₅⟩ := (h₄.moved env w₄.tick).register providers env
    refine .after hx₅ (.still ?_)
    rw [wp_bind, wp_modify, wp_pure]
    exact h₅

/-- How a session stands once there is a proxy process, or there is none. -/
def Reached (t : Transport) :
    Option LBServerMeta → World Transport → State × List LBServerMeta → Prop
  | some m, w, x => Stands t (.registered m) w x
  | none, w, x => Begun t w x

theorem follows_startShell (h : Stands t .connected w x) :
    Follows (threadFrame providers env (.session t.ident)) (startShell env providers t)
      (Reached t) (fun _ w' x' => Begun t w' x') w x := by
  have hsend : ∀ msg {w₁ x₁}, Begun t w₁ x₁ →
      Follows (threadFrame providers env (.session t.ident))
        (do sendToChannel env msg; return none : Prog Transport (Option LBServerMeta))
        (Reached t) (fun _ w' x' => Begun t w' x') w₁ x₁ := by
    intro msg w₁ x₁ h₁
    refine .seq (silent_sendToChannel _ _) (fun _ _ hs => h₁.silent hs) fun _ w₂ hs => ?_
    exact .pure (h₁.silent hs)
  refine h.seq nofun silent_tick fun n w₁ h₁ => ?_
  split_ifs
  · refine h₁.seq nofun silent_tick fun n w₂ h₂ => ?_
    refine h₂.seq nofun (silent_fromExcept _) fun _ w₃ h₃ => ?_
    refine .tryCatch (.bind ((follows_createProxyProcess h₃).mono ?_ ?_))
    · exact fun m w₄ x₄ h₄ => .pure h₄
    · intro stop w₄ x₄ h₄
      cases stop with
      | waiting => exact .throw h₄
      | raised e =>
        dsimp only
        split_ifs
        · exact hsend _ h₄
        · exact hsend _ h₄
        · refine .seq (silent_sendToChannel _ _) (fun _ _ hs => h₄.silent hs) fun _ w₅ hs => ?_
          exact .throw (h₄.silent hs)
  · exact hsend _ (h₁.begun nofun)

theorem follows_reachProxy (h : Stands t .connected w x) :
    Follows (threadFrame providers env (.session t.ident)) (reachProxy env providers t)
      (Reached t) (fun _ w' x' => Begun t w' x') w x := by
  refine h.seq nofun silent_call fun _ w₁ h₁ => ?_
  refine h₁.seq nofun silent_prepareServer fun opened w₂ h₂ => ?_
  split_ifs
  · refine h₂.seq nofun (silent_sendToChannel _ _) fun _ w₃ h₃ => ?_
    exact follows_startShell h₃
  · exact .pure (h₂.begun nofun)

/-! ### The end of a session -/

/-- The table without the sessions of that server that have the address. -/
def withoutPeer (table : ActiveSession Transport) (peer : String × ℕ) (serverName : String) :
    ActiveSession Transport :=
  if table.sessions serverName = [] then table
  else table.assign serverName ((table.sessions serverName).filter (·.peer ≠ peer))

theorem removeServerSession_withoutPeer (s : State) (i : ℕ) (serverName : String) :
    s.removeServerSession i serverName =
      { s with activeSession := withoutPeer s.activeSession (s.peer i) serverName } := by
  unfold State.removeServerSession withoutPeer
  split
  · next h => rw [if_pos h]
  · next h => rw [if_neg h]

theorem Stands.remove (providers : Providers) (env : Env Transport)
    (h : Stands t (.registered m) w x) :
    ∃ x', (threadFrame providers env (.session t.ident)).rel x x' ∧ Stands t (.left m)
      { w with activeSession := withoutPeer w.activeSession t.peer m.serverName } x' := by
  have hstep : step providers x.1 (.remove t.ident) =
      some ((x.1.leave t.ident (.left m)).removeServerSession t.ident m.serverName) := by
    simp only [step, h.phase]
  rw [removeServerSession_withoutPeer] at hstep
  refine ⟨_, threadFrame_quiet (a := .remove t.ident) rfl rfl hstep, ⟨h.records, ?_, h.calls⟩,
    by simp, h.verdict, h.peer⟩
  rw [h.table, ← h.peer]
  rfl

theorem follows_removeServerSession (h : Stands t (.registered m) w x) :
    Follows (threadFrame providers env (.session t.ident))
      (removeServerSession env t m.serverName) (fun _ w' x' => Stands t (.left m) w' x')
      (fun _ w' x' => Begun t w' x') w x := by
  refine h.seq nofun silent_tick fun n w₁ h₁ => .bind (.still ?_)
  rw [wp_fromExcept]
  refine ⟨fun peerName hpeer => ?_, fun e _ => h₁.begun nofun⟩
  have hname : peerName = t.peer := by
    rw [getpeername] at hpeer
    split at hpeer <;> cases hpeer
    rfl
  subst hname
  refine follows_readSessions ?_
  have h₂ := h₁.moved env w₁.tick
  split
  · next hnil =>
    obtain ⟨x₃, hx₃, h₃⟩ := h₂.remove providers env
    rw [withoutPeer, if_pos hnil] at h₃
    exact .after hx₃ (.pure h₃)
  · next hne =>
    refine Follows.bind (.still ?_)
    rw [wp_tick]
    refine Follows.bind (.still ?_)
    rw [wp_fromExcept]
    have h₄ := h₂.next
    refine ⟨fun rest hrest => ?_, fun e _ => h₄.begun nofun⟩
    obtain ⟨x₅, hx₅, h₅⟩ := h₄.remove providers env
    refine .after hx₅ (.still ?_)
    rw [wp_modify]
    rcases filterSessions_eq _ t.peer _ with ⟨-, heq⟩ | ⟨-, e, heq⟩
    · cases heq.symm.trans hrest
      refine ⟨⟨h₅.records, ?_, h₅.calls⟩, h₅.phase, h₅.verdict, h₅.peer⟩
      rw [← h₅.table]
      exact (if_neg hne).symm
    · cases heq.symm.trans hrest

/-- A session that has judged its server. -/
structure Judged (t : Transport) (v : Verdict) (w : World Transport)
    (x : State × List LBServerMeta) : Prop extends Mirrors w x where
  phase : x.1.phase t.ident = .ended
  verdict : x.1.verdict (.session t.ident) = v

theorem Judged.silent {v : Verdict} (h : Judged t v w x) (hs : Silent w w') : Judged t v w' x :=
  ⟨h.toMirrors.silent hs, h.phase, h.verdict⟩

theorem begun_of_ended (h : Mirrors w x) (hphase : x.1.phase t.ident = .ended) : Begun t w x :=
  ⟨h, by rw [hphase]; nofun, fun _ _ => hphase⟩

theorem Judged.seq {α β : Type} {v : Verdict} {program : Prog Transport α}
    {f : α → Prog Transport β} {Q : β → World Transport → State × List LBServerMeta → Prop}
    (h : Judged t v w x) (hkeeps : Keeps Lobbyboy.silent program)
    (hf : ∀ a w', Judged t v w' x → Follows (threadFrame providers env (.session t.ident)) (f a) Q
      (fun _ w' x' => Begun t w' x') w' x) :
    Follows (threadFrame providers env (.session t.ident)) (program >>= f) Q
      (fun _ w' x' => Begun t w' x') w x :=
  .seq hkeeps (fun _ _ hs => begun_of_ended (h.toMirrors.silent hs) h.phase)
    fun a w' hs => hf a w' (h.silent hs)

theorem follows_destroyServerIfNeeded (h : Stands t (.left m) w x) :
    Follows (threadFrame providers env (.session t.ident)) (destroyServerIfNeeded env providers m)
      (fun _ w' x' => Over t w' x') (fun _ w' x' => Begun t w' x') w x := by
  unfold destroyServerIfNeeded
  cases hp : providers.get? m.providerName with
  | none => exact .throw (h.begun nofun)
  | some provider =>
    have hjudge : x.1.toJudge (.session t.ident) = some m := by
      simp only [State.toJudge, h.verdict, h.phase]
    refine Follows.bind ((follows_needDestroyNow h.toMirrors hjudge hp).mono ?_ ?_)
    · rintro ⟨verdict, reason⟩ w₁ x₁ ⟨hmirrors, hmanage, hx₁⟩
      have h₁ : Judged t (if verdict then .condemned m else .none) w₁ x₁ := by
        refine ⟨hmirrors, ?_, ?_⟩
        · rw [hx₁]
          simp [State.judged, State.setVerdict]
        · rw [hx₁, State.setVerdict_verdict, if_pos rfl]
      refine h₁.seq (silent_sendToChannel _ _) fun _ w₂ h₂ => ?_
      cases verdict with
      | false => exact .pure ⟨h₂.toMirrors, h₂.phase⟩
      | true =>
        refine h₂.seq (silent_sendToChannel _ _) fun _ w₃ h₃ => ?_
        refine Follows.bind ((follows_destroy h₃.toMirrors h₃.verdict (hmanage rfl)).mono ?_ ?_)
        · rintro _ w₄ x₄ ⟨hmirrors₄, -, hphase, -⟩
          have hended := (congrFun hphase t.ident).trans h₃.phase
          refine .of_keeps (silent_sendToChannel _ _) ?_ ?_
          · exact fun _ w₅ hs => ⟨hmirrors₄.silent hs, hended⟩
          · exact fun _ w₅ hs => begun_of_ended (hmirrors₄.silent hs) hended
        · rintro _ w₄ x₄ ⟨hmirrors₄, hphase⟩
          exact begun_of_ended hmirrors₄ ((congrFun hphase t.ident).trans h₃.phase)
    · rintro _ w₁ x₁ ⟨hmirrors, hx₁⟩
      refine ⟨hmirrors, ?_, ?_⟩
      · rw [hx₁, State.moved, h.phase]
        nofun
      · intro m' hm'
        rw [hx₁, State.moved, h.verdict] at hm'
        cases hm'

/-- The cleanup of a session that has had a server. -/
theorem follows_cleanup (h : Stands t (.registered m) w x) :
    Follows (threadFrame providers env (.session t.ident)) (cleanup env providers t (some m) true)
      (fun _ w' x' => Over t w' x') (fun _ w' x' => Begun t w' x') w x := by
  refine Follows.bind ((follows_removeServerSession h).mono ?_ fun _ _ _ h => h)
  intro _ w₁ x₁ h₁
  refine Follows.bind ((follows_destroyServerIfNeeded h₁).mono ?_ fun _ _ _ h => h)
  intro _ w₂ x₂ h₂
  refine .of_keeps silent_hangUp ?_ ?_
  · exact fun _ w₃ hs => ⟨h₂.toMirrors.silent hs, h₂.phase⟩
  · exact fun _ w₃ hs => begun_of_ended (h₂.toMirrors.silent hs) h₂.phase

/-- The cleanup of one that has none. -/
theorem follows_hangUp (h : Begun t w x) :
    Follows (threadFrame providers env (.session t.ident)) (cleanup env providers t none false)
      (fun _ w' x' => Over t w' x') (fun _ w' x' => Over t w' x') w x := by
  have hkeeps : Follows (threadFrame providers env (.session t.ident)) (hangUp env)
      (fun _ w' x' => Begun t w' x') (fun _ w' x' => Begun t w' x') w x :=
    .of_keeps silent_hangUp (fun _ _ hs => h.silent hs) fun _ _ hs => h.silent hs
  exact hkeeps.before (fun _ _ _ h' => h'.over) fun _ _ _ h' => h'.over

/-- The thread, from the connection on. -/
theorem follows_run (env : Env Transport) (terminal : Terminal) (h : Stands t .connected w x) :
    Follows (threadFrame providers env (.session t.ident))
      (SocketHandle.run env providers t terminal) (fun _ w' x' => Over t w' x')
      (fun stop w' x' => Mirrors w' x' ∧ (stop ≠ .waiting → x'.1.phase t.ident = .ended)) w x := by
  have hhandler : ∀ {w₁ x₁}, Begun t w₁ x₁ →
      Follows (threadFrame providers env (.session t.ident)) (cleanup env providers t none false)
        (fun _ w' x' => Over t w' x')
        (fun stop w' x' => Mirrors w' x' ∧ (stop ≠ .waiting → x'.1.phase t.ident = .ended)) w₁ x₁ :=
    fun h₁ => (follows_hangUp h₁).mono (fun _ _ _ h' => h')
      fun _ _ _ h' => ⟨h'.toMirrors, fun _ => h'.phase⟩
  rw [run_eq]
  refine .tryCatch (Follows.mono (Q := fun _ w' x' => Over t w' x')
    (E := fun _ w' x' => Begun t w' x') ?_ (fun _ _ _ h => h) ?_)
  · refine Follows.bind ((follows_reachProxy h).mono ?_ fun _ _ _ h => h)
    intro reached w₁ x₁ h₁
    cases reached with
    | none =>
      refine (follows_hangUp h₁).mono (fun _ _ _ h' => h') ?_
      exact fun _ _ _ h' => begun_of_ended h'.toMirrors h'.phase
    | some m =>
      change Follows _ (afterProxy env providers t terminal m) _ _ _ _
      rw [afterProxy_eq]
      refine Stands.seq h₁ (by simp) (silent_inSession terminal m) fun _ w₂ h₂ => ?_
      exact follows_cleanup h₂
  · intro stop w₁ x₁ h₁
    cases stop with
    | waiting => exact .throw ⟨h₁.toMirrors, fun hstop => absurd rfl hstop⟩
    | raised e => exact hhandler h₁

end Session

/-! ### The killer -/

/-- The killer has these servers left in its round. -/
structure Patrols (ms : List LBServerMeta) (w : World Transport)
    (x : State × List LBServerMeta) : Prop extends Mirrors w x where
  round : x.1.round = ms
  verdict : x.1.verdict .killer = .none

section Killer

variable {providers : Providers} {env : Env Transport} {w w' : World Transport}
  {x : State × List LBServerMeta} {m : LBServerMeta} {ms : List LBServerMeta}

theorem Patrols.emit (h : Patrols ms w x) {e : Event} (he : destroyCalls [e] = []) :
    Patrols ms { w with log := w.log ++ [e] } x := by
  refine ⟨⟨h.records, h.table, ?_⟩, h.round, h.verdict⟩
  rw [destroyCalls_append, he, List.append_nil]
  exact h.calls

theorem follows_checkServer (h : Patrols (m :: ms) w x) :
    Follows (threadFrame providers env .killer) (checkServer env providers m)
      (fun _ w' x' => Patrols ms w' x') (fun _ w' x' => Mirrors w' x') w x := by
  unfold checkServer
  cases hp : providers.get? m.providerName with
  | none => exact .throw h.toMirrors
  | some provider =>
    have hjudge : x.1.toJudge .killer = some m := by
      simp only [State.toJudge, h.verdict, h.round, List.head?_cons]
    refine Follows.bind ((follows_needDestroyNow h.toMirrors hjudge hp).mono ?_ ?_)
    · rintro ⟨verdict, reason⟩ w₁ x₁ ⟨hmirrors, hmanage, hx₁⟩
      have hround : x₁.1.round = ms := by
        rw [hx₁]
        change x.1.round.tail = ms
        rw [h.round, List.tail_cons]
      have hverdict : x₁.1.verdict .killer = if verdict then .condemned m else .none := by
        rw [hx₁, State.setVerdict_verdict, if_pos rfl]
      refine Follows.bind (.still ?_)
      rw [wp_emit]
      cases verdict with
      | false =>
        have h₁ : Patrols ms w₁ x₁ := ⟨hmirrors, hround, hverdict⟩
        exact .pure (h₁.emit rfl)
      | true =>
        have hlogged : Mirrors { w₁ with log := w₁.log ++ [.judged m true] } x₁ := by
          refine ⟨hmirrors.records, hmirrors.table, ?_⟩
          rw [destroyCalls_append, List.map_append, hmirrors.calls]
          exact List.append_nil _
        refine (follows_destroy hlogged hverdict (hmanage rfl)).mono ?_ fun _ _ _ h' => h'.1
        rintro _ w₂ x₂ ⟨hmirrors₂, hnone, -, hround₂⟩
        exact ⟨hmirrors₂, hround₂.trans hround, hnone⟩
    · exact fun _ _ _ h' => h'.1

theorem follows_checkServers (ms : List LBServerMeta) (h : Patrols ms w x) :
    Follows (threadFrame providers env .killer) (checkServers env providers ms)
      (fun _ w' x' => Patrols [] w' x') (fun _ w' x' => Mirrors w' x') w x := by
  induction ms generalizing w x with
  | nil => exact .pure h
  | cons m ms ih =>
    exact .bind ((follows_checkServer h).mono (fun _ _ _ h' => ih h') fun _ _ _ h' => h')

theorem follows_checkAllLiveServers (h : Patrols [] w x) :
    Follows (threadFrame providers env .killer) (checkAllLiveServers env providers)
      (fun _ w' x' => Patrols [] w' x') (fun _ w' x' => Mirrors w' x') w x := by
  have hround : step providers x.1 .round = some { x.1 with round := x.1.db.values } := by
    simp only [step, h.round, h.verdict]
  refine .after (threadFrame_quiet (a := .round) rfl rfl hround) (.bind (.still ?_))
  rw [wp_loadServers]
  constructor
  · intro d hd
    cases (h.records _).symm.trans hd
    exact follows_checkServers _ ⟨⟨h.records, h.table, h.calls⟩, rfl, h.verdict⟩
  · intro e he
    cases (h.records _).symm.trans he

theorem follows_patrol (n : ℕ) (h : Patrols [] w x) :
    Follows (threadFrame providers env .killer) (patrol env providers n)
      (fun _ w' x' => Patrols [] w' x') (fun _ w' x' => Mirrors w' x') w x := by
  induction n generalizing w x with
  | zero => exact .pure h
  | succ n ih =>
    refine Follows.bind (.still ?_)
    rw [wp_emit]
    exact .bind ((follows_checkAllLiveServers (h.emit rfl)).mono (fun _ _ _ h' => ih h')
      fun _ _ _ h' => h')

end Killer

/-! ### Runs -/

/-- From `s` the thread's actions, with the others at the table in between, lead to `s'`; its
database and its table are those that the program has left, and the actions called
`destroy_server` for the servers for which the program has. -/
structure Explains (providers : Providers) (env : Env Transport) (t : Thread) (s : State)
    (w w' : World Transport) (as : List (Action ⊕ ℕ)) (s' : State) : Prop where
  thread : ∀ a ∈ as, ∀ b, a = .inl b → b.thread = t
  actions : run (amid (step providers) (State.moved env)) s as = some s'
  records : Records w'.db s'.db
  table : w'.activeSession = s'.activeSession
  calls : (destroyCalls w'.log).map Prod.fst = (destroyCalls w.log).map Prod.fst ++
    seen (amid (step providers) (State.moved env)) shows s as

section Runs

variable {providers : Providers} {env : Env Transport} {t : Thread} {s s' : State}
  {w w' : World Transport} {as : List (Action ⊕ ℕ)}

theorem explains_of_mirrors {x : State × List LBServerMeta}
    (hx : (threadFrame providers env t).rel (s, (destroyCalls w.log).map Prod.fst) x)
    (h : Mirrors w' x) : ∃ as, Explains providers env t s w w' as x.1 := by
  obtain ⟨as, hthread, hrun⟩ := hx
  obtain ⟨hrun, hseen⟩ := run_of_watched hrun
  exact ⟨as, hthread, hrun, h.records, h.table, h.calls.trans hseen⟩

/-- Where the others leave the table alone, the actions are a run of the threads. -/
theorem Explains.undisturbed (h : Explains providers env t s w w' as s')
    (hothers : ∀ n table, env.others n table = table) :
    run (step providers) s (as.filterMap Sum.getLeft?) = some s' :=
  run_of_amid (fun s n => by rw [State.moved, hothers]) h.actions

end Runs

/-- The patrol is a run of steps of the killer, whatever becomes of it; after a round that
has come to its end the killer can begin the next. -/
theorem patrol_refines (env : Env Transport) (providers : Providers) (n : ℕ)
    (w : World Transport) (s : State) (hrecords : Records w.db s.db)
    (htable : w.activeSession = s.activeSession) (hround : s.round = [])
    (hverdict : s.verdict .killer = .none) :
    wp (patrol env providers n)
      (fun _ w' => ∃ as s', Explains providers env .killer s w w' as s' ∧ s'.round = [] ∧
        s'.verdict .killer = .none)
      (fun _ w' => ∃ as s', Explains providers env .killer s w w' as s') w := by
  have hpatrols : Patrols [] w (s, (destroyCalls w.log).map Prod.fst) :=
    ⟨⟨hrecords, htable, rfl⟩, hround, hverdict⟩
  apply wp_mono (follows_patrol n hpatrols)
  · rintro _ w' ⟨x, hx, hpatrols'⟩
    obtain ⟨as, has⟩ := explains_of_mirrors hx hpatrols'.toMirrors
    exact ⟨as, x.1, has, hpatrols'.round, hpatrols'.verdict⟩
  · rintro _ w' ⟨x, hx, hmirrors⟩
    obtain ⟨as, has⟩ := explains_of_mirrors hx hmirrors
    exact ⟨as, x.1, has⟩

/-- Two rounds over a database of one server that is due. -/
theorem patrol_refines_two :
    let config : LBConfigProvider := { minLifeToLive := some "0s" }
    let providers : Providers :=
      .ofPairs [("ignite", ⟨"ignite", config, .parse "/data/ignite", .ignite {}⟩)]
    let a : LBServerMeta := { providerName := "ignite", workspace := .parse "/data/ignite/a",
                              serverName := "a", createdTimestamp := 0 }
    let w : World Transport := { db := some (storedServers (.ofPairs [("a", a)])).dumps }
    let s : State := { db := .ofPairs [("a", a)] }
    wp (patrol .smooth providers 2)
      (fun _ w' => ∃ as s', Explains providers .smooth .killer s w w' as s' ∧ s'.round = [] ∧
        s'.verdict .killer = .none)
      (fun _ w' => ∃ as s', Explains providers .smooth .killer s w w' as s') w := by
  intro config providers a w s
  exact patrol_refines .smooth providers 2 w s (records_dumps (keyed_empty.insert a)) rfl rfl rfl

end Lobbyboy.Daemon
