import Lobbyboy.Foundation.Transition
import Lobbyboy.Provider.Base
import Lobbyboy.ServerKiller.NeedDestroy
import Mathlib.Logic.Function.Basic

/-! The session threads and the killer thread over the servers database and the session
table. Choosing a server, starting the proxy process and appending the transport are
separate steps of a session; reading the session table, calling `destroy_server` and
deleting the record are separate steps of whoever judges a server, the killer or a
session that has left it. No lock is held from one step to the next. -/

namespace Lobbyboy.Daemon

open Foundation Utils Config Provider ServerKiller

/-- Where a session thread is. -/
inductive Phase
  | absent
  | connected
  | choosing (servers : ServerMap)
  | picked (server : LBServerMeta)
  | redirected (server : LBServerMeta)
  | registered (server : LBServerMeta)
  | left (server : LBServerMeta)
  | ended

namespace Phase

/-- The server of a session that has returned from `choose_server` and has not ended. -/
def uses : Phase → Option LBServerMeta
  | .picked m | .redirected m | .registered m => some m
  | _ => none

/-- The server of a session that `need_destroy` cannot see yet. -/
def unregistered : Phase → Option LBServerMeta
  | .picked m | .redirected m => some m
  | _ => none

/-- The connection is open and the session has not been removed from the table. -/
def isOpen : Phase → Bool
  | .connected | .choosing _ | .picked _ | .redirected _ | .registered _ => true
  | _ => false

theorem uses_of_unregistered {p : Phase} {m : LBServerMeta} (h : p.unregistered = some m) :
    p.uses = some m := by
  cases p <;> first | exact h | cases h

theorem uses_cases {p : Phase} {m : LBServerMeta} (h : p.uses = some m) :
    p.unregistered = some m ∨ p = .registered m := by
  cases p with
  | picked _ | redirected _ => exact .inl h
  | registered _ => exact .inr (congrArg _ (Option.some.inj h))
  | _ => cases h

end Phase

/-- A `True` verdict that is being carried out. A thread whose `destroy_server` or update
raises stays at `called`: the record is never deleted. -/
inductive Verdict
  | none
  | condemned (server : LBServerMeta)
  | called (server : LBServerMeta)

def Verdict.server : Verdict → Option LBServerMeta
  | .none => .none
  | .condemned m | .called m => some m

inductive Thread
  | killer
  | session (i : ℕ)
  deriving DecidableEq

inductive Action
  | connect (i : ℕ) (peer : String × ℕ)
  | load (i : ℕ)
  | pick (i : ℕ) (server : LBServerMeta)
  | create (i : ℕ) (server : LBServerMeta)
  | redirect (i : ℕ)
  | register (i : ℕ)
  | remove (i : ℕ)
  | fail (i : ℕ)
  | round
  | judge (t : Thread) (now₁ now₂ : ℤ)
  | callDestroy (t : Thread)
  | delete (t : Thread)

/-- Whose step it is. -/
def Action.thread : Action → Thread
  | .connect i _ | .load i | .pick i _ | .create i _ | .redirect i | .register i | .remove i
  | .fail i => .session i
  | .round => .killer
  | .judge t _ _ | .callDestroy t | .delete t => t

/-- `db` are the records, `round` what is left of the killer's round. `destroyed` are the
servers on which `destroy_server` was called; a server made anew is none of them. -/
structure State where
  db : ServerMap
  activeSession : ActiveSession Transport := .empty
  phase : ℕ → Phase := fun _ => .absent
  peer : ℕ → String × ℕ := fun _ => ("", 0)
  openPeers : List (String × ℕ) := []
  round : List LBServerMeta := []
  verdict : Thread → Verdict := fun _ => .none
  destroyed : List LBServerMeta := []

namespace State

variable (s : State)

def transport (i : ℕ) : Transport := ⟨i, s.peer i⟩

def setPhase (i : ℕ) (p : Phase) : State := { s with phase := Function.update s.phase i p }

def setVerdict (t : Thread) (v : Verdict) : State :=
  { s with verdict := Function.update s.verdict t v }

/-- The session gives up its address, if it still has it. -/
def leave (i : ℕ) (p : Phase) : State :=
  { s.setPhase i p with openPeers :=
      if (s.phase i).isOpen then s.openPeers.filter (· ≠ s.peer i) else s.openPeers }

/-- `remove_server_session`, when every `getpeername` returns. -/
def removeServerSession (i : ℕ) (serverName : String) : State :=
  match s.activeSession.sessions serverName with
  | [] => s
  | sessions => { s with activeSession :=
      s.activeSession.assign serverName (sessions.filter (·.peer ≠ s.peer i)) }

@[simp] theorem setPhase_phase (i j : ℕ) (p : Phase) :
    (s.setPhase i p).phase j = if j = i then p else s.phase j := Function.update_apply ..

@[simp] theorem setVerdict_verdict (t t' : Thread) (v : Verdict) :
    (s.setVerdict t v).verdict t' = if t' = t then v else s.verdict t' := Function.update_apply ..

@[simp] theorem leave_phase (i j : ℕ) (p : Phase) :
    (s.leave i p).phase j = if j = i then p else s.phase j := Function.update_apply ..

/-- Only the table changes, and only where the session was. -/
theorem removeServerSession_eq (i : ℕ) (serverName : String) :
    ∃ d : ActiveSession Transport,
      s.removeServerSession i serverName = { s with activeSession := d } ∧
      ∀ name, d.sessions name = if name = serverName then
        (s.activeSession.sessions name).filter (·.peer ≠ s.peer i)
      else s.activeSession.sessions name := by
  unfold removeServerSession
  split
  · next h =>
    refine ⟨s.activeSession, rfl, fun name => ?_⟩
    split_ifs with hn
    · rw [hn, h]; rfl
    · rfl
  · refine ⟨_, rfl, fun name => ?_⟩
    rw [ActiveSession.sessions_assign]
    split_ifs with hn
    · rw [hn]
    · rfl

/-- The server that the thread is to judge next. -/
def toJudge (t : Thread) : Option LBServerMeta :=
  match s.verdict t, t with
  | .none, .killer => s.round.head?
  | .none, .session i =>
    match s.phase i with
    | .left m => some m
    | _ => none
  | _, _ => none

/-- The thread has read what it judges by. -/
def judged : Thread → State
  | .killer => { s with round := s.round.tail }
  | .session i => s.setPhase i .ended

end State

/-- A thread that has a verdict to carry out judges nobody. -/
theorem toJudge_verdict {s : State} {t : Thread} {m : LBServerMeta} (h : s.toJudge t = some m) :
    s.verdict t = .none := by
  unfold State.toJudge at h
  split at h
  · next hv _ => assumption
  · assumption
  · cases h

/-- The verdict of `need_destroy` on `m`, if its provider is known and nothing raises. -/
def verdictOn (providers : Providers) (activeSession : ActiveSession Transport) (m : LBServerMeta)
    (now₁ now₂ : ℤ) : Option Bool :=
  match providers.get? m.providerName with
  | none => none
  | some provider =>
    match needDestroy activeSession provider.providerConfig m now₁ now₂ with
    | .ok (verdict, _) => some verdict
    | .error _ => none

theorem verdictOn_true {providers : Providers} {activeSession : ActiveSession Transport}
    {m : LBServerMeta} {now₁ now₂ : ℤ}
    (h : verdictOn providers activeSession m now₁ now₂ = some true) :
    activeSession.sessions m.serverName = [] := by
  unfold verdictOn at h
  split at h
  · cases h
  · split at h
    · next hd =>
      cases h
      exact (needDestroy_true hd).1
    · cases h

/-- One step of one thread; `none` when the thread is not there, or can go no further.
Two open connections never have the same peer. -/
def step (providers : Providers) (s : State) : Action → Option State
  | .connect i peer =>
    match s.phase i with
    | .absent =>
      if peer ∈ s.openPeers then none
      else some { s.setPhase i .connected with
        peer := Function.update s.peer i peer, openPeers := peer :: s.openPeers }
    | _ => none
  | .load i =>
    match s.phase i with
    | .connected => some (s.setPhase i (.choosing s.db))
    | _ => none
  | .pick i m =>
    match s.phase i with
    | .choosing servers => if m ∈ servers.values then some (s.setPhase i (.picked m)) else none
    | _ => none
  | .create i m =>
    match s.phase i with
    | .choosing _ => some { s.setPhase i (.picked m) with
        db := mergeServers s.db [m] [], destroyed := s.destroyed.filter (· ≠ m) }
    | _ => none
  | .redirect i =>
    match s.phase i with
    | .picked m =>
      if (providers.get? m.providerName).isSome then some (s.setPhase i (.redirected m)) else none
    | _ => none
  | .register i =>
    match s.phase i with
    | .redirected m => some { s.setPhase i (.registered m) with
        activeSession := s.activeSession.register m.serverName (s.transport i) }
    | _ => none
  | .remove i =>
    match s.phase i with
    | .registered m => some ((s.leave i (.left m)).removeServerSession i m.serverName)
    | _ => none
  | .fail i =>
    match s.phase i, s.verdict (.session i) with
    | .absent, _ => none
    | _, .called _ => none
    -- the table keeps the transport of a session that fails once it is registered
    | _, _ => some ((s.leave i .ended).setVerdict (.session i) .none)
  | .round =>
    match s.round, s.verdict .killer with
    | [], .none => some { s with round := s.db.values }
    | _, _ => none
  | .judge t now₁ now₂ => do
    let m ← s.toJudge t
    let verdict ← verdictOn providers s.activeSession m now₁ now₂
    return (s.judged t).setVerdict t (if verdict then .condemned m else .none)
  | .callDestroy t =>
    match s.verdict t with
    | .condemned m => some { s.setVerdict t (.called m) with destroyed := m :: s.destroyed }
    | _ => none
  | .delete t =>
    match s.verdict t with
    | .called m => some { s.setVerdict t .none with db := mergeServers s.db [] [m] }
    | _ => none

/-! ### What a step does -/

/-- The steps, each with its guard and the state it leads to. -/
inductive Stepped (providers : Providers) (s : State) : Action → State → Prop
  | connect {i peer} (phase : s.phase i = .absent) (fresh : peer ∉ s.openPeers) :
    Stepped providers s (.connect i peer) { s.setPhase i .connected with
      peer := Function.update s.peer i peer, openPeers := peer :: s.openPeers }
  | load {i} (phase : s.phase i = .connected) :
    Stepped providers s (.load i) (s.setPhase i (.choosing s.db))
  | pick {i m servers} (phase : s.phase i = .choosing servers) (mem : m ∈ servers.values) :
    Stepped providers s (.pick i m) (s.setPhase i (.picked m))
  | create {i m servers} (phase : s.phase i = .choosing servers) :
    Stepped providers s (.create i m) { s.setPhase i (.picked m) with
      db := mergeServers s.db [m] [], destroyed := s.destroyed.filter (· ≠ m) }
  | redirect {i m} (phase : s.phase i = .picked m) :
    Stepped providers s (.redirect i) (s.setPhase i (.redirected m))
  | register {i m} (phase : s.phase i = .redirected m) :
    Stepped providers s (.register i) { s.setPhase i (.registered m) with
      activeSession := s.activeSession.register m.serverName (s.transport i) }
  | remove {i m} (phase : s.phase i = .registered m) :
    Stepped providers s (.remove i) ((s.leave i (.left m)).removeServerSession i m.serverName)
  | fail {i} (notCalled : ∀ m, s.verdict (.session i) ≠ .called m) :
    Stepped providers s (.fail i) ((s.leave i .ended).setVerdict (.session i) .none)
  | round (verdict : s.verdict .killer = .none) :
    Stepped providers s .round { s with round := s.db.values }
  | keep {t m now₁ now₂} (toJudge : s.toJudge t = some m) :
    Stepped providers s (.judge t now₁ now₂) ((s.judged t).setVerdict t .none)
  | condemn {t m now₁ now₂} (toJudge : s.toJudge t = some m)
    (verdict : verdictOn providers s.activeSession m now₁ now₂ = some true) :
    Stepped providers s (.judge t now₁ now₂) ((s.judged t).setVerdict t (.condemned m))
  | callDestroy {t m} (verdict : s.verdict t = .condemned m) :
    Stepped providers s (.callDestroy t)
      { s.setVerdict t (.called m) with destroyed := m :: s.destroyed }
  | delete {t m} (verdict : s.verdict t = .called m) :
    Stepped providers s (.delete t)
      { s.setVerdict t .none with db := mergeServers s.db [] [m] }

theorem stepped_of_step {providers : Providers} {s s' : State} {a : Action}
    (h : step providers s a = some s') : Stepped providers s a s' := by
  cases a with
  | connect i peer =>
    simp only [step] at h
    split at h
    · next hp =>
      split_ifs at h with hf
      cases h
      exact .connect hp hf
    · cases h
  | load i =>
    simp only [step] at h
    split at h
    · next hp => cases h; exact .load hp
    · cases h
  | pick i m =>
    simp only [step] at h
    split at h
    · next hp =>
      split_ifs at h with hm
      cases h
      exact .pick hp hm
    · cases h
  | create i m =>
    simp only [step] at h
    split at h
    · next hp => cases h; exact .create hp
    · cases h
  | redirect i =>
    simp only [step] at h
    split at h
    · next hp =>
      split_ifs at h
      cases h
      exact .redirect hp
    · cases h
  | register i =>
    simp only [step] at h
    split at h
    · next hp => cases h; exact .register hp
    · cases h
  | remove i =>
    simp only [step] at h
    split at h
    · next hp => cases h; exact .remove hp
    · cases h
  | fail i =>
    simp only [step] at h
    split at h
    · cases h
    · cases h
    · next hv => cases h; exact .fail hv
  | round =>
    simp only [step] at h
    split at h
    · next hv => cases h; exact .round hv
    · cases h
  | judge t now₁ now₂ =>
    simp only [step, Option.bind_eq_bind, Option.bind_eq_some_iff, Option.pure_def,
      Option.some.injEq] at h
    obtain ⟨m, hm, verdict, hv, rfl⟩ := h
    cases verdict with
    | true => exact .condemn hm hv
    | false => exact .keep hm
  | callDestroy t =>
    simp only [step] at h
    split at h
    · next hv => cases h; exact .callDestroy hv
    · cases h
  | delete t =>
    simp only [step] at h
    split at h
    · next hv => cases h; exact .delete hv
    · cases h

end Lobbyboy.Daemon
