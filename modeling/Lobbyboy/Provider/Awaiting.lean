import Lobbyboy.Provider.Requests

/-! The steps of `create_server` from the request of a server on. Which of them fails
depends on the answers of the outside alone: whether a call raises, what a check answers,
and the return code of the process that creates the server. -/

namespace Lobbyboy.Provider

open Foundation Utils Config Prog BaseProvider

/-- What `time_process_action` asks. -/
inductive Check
  | ready
  | readyOrNot
  | ended
  | endedAndReady
  | succeeded

/-- A call that can only raise (`send_to_channel`, a call to the API, the saving of
`server.json`); the address of the server; the checks until the server is up; the return
code of the process, which must be zero by then. -/
inductive AwaitStep
  | call
  | address
  | wait (check : Check)
  | exitedZero

/-- What the steps depend on, and the host that is known so far. -/
structure Waiting where
  tick : ℕ
  returncode : Option ℤ
  host : String

namespace Waiting

variable {T : Type} (env : Env T) (t : Waiting)

def next : Waiting := { t with tick := t.tick + 1 }

def call : Option Waiting :=
  match env.raises t.tick with
  | none => some t.next
  | some _ => none

def poll : Waiting :=
  { t.next with returncode := t.returncode.or (env.returncode t.tick) }

def askReady : Option (Bool × Waiting) := do
  let t ← t.call env
  return (env.ready t.tick, t.next)

/-- The answer to one check, unless it raises. -/
def ask : Check → Option (Bool × Waiting)
  | .ready => t.askReady env
  | .readyOrNot => some ((t.askReady env).getD (false, t.next))
  | .ended => some ((t.poll env).returncode.isSome, t.poll env)
  | .endedAndReady =>
    if (t.poll env).returncode.isSome then (t.poll env).askReady env
    else some (false, t.poll env)
  | .succeeded => some ((t.poll env).returncode == some 0, t.poll env)

end Waiting

section Steps

variable {T : Type} (env : Env T)

/-- Whether one of the checks that are left says yes. -/
def checks (check : Check) : ℕ → Waiting → Option (Bool × Waiting)
  | 0, t => some (false, t)
  | n + 1, t => do
    let t ← t.call env
    let (done, t) ← t.ask env check
    if done then
      let t ← t.next.call env
      return (true, t)
    else checks check n t

/-- What comes after the step; there is nothing if it fails. -/
def AwaitStep.after (t : Waiting) : AwaitStep → Option Waiting
  | .call => t.call env
  | .address => some { t.next with host := env.address t.tick }
  | .wait check => do
    let t ← t.call env
    let (done, t) ← checks env check 20 t
    if done then return t else t.call env
  | .exitedZero => if t.returncode = some 0 then some t else none

/-- What comes after all the steps; there is nothing if one of them fails. -/
def afterAll : List AwaitStep → Waiting → Option Waiting
  | [], t => some t
  | step :: steps, t => do afterAll steps (← step.after env t)

end Steps

def bootSteps : List AwaitStep := [.call, .call, .call, .wait .ready, .call]

/-- The steps between the request of a server and the record of it. -/
def ProviderKind.awaitSteps : ProviderKind → List AwaitStep
  | .digitalOcean _ => [.call, .wait .ready, .call, .address] ++ bootSteps
  | .linode _ => [.call, .wait .readyOrNot, .call, .address, .address] ++ bootSteps
  | .vultr _ => [.call, .wait .readyOrNot, .call, .address] ++ bootSteps
  | .footloose | .ignite _ => [.wait .ended, .exitedZero]
  | .multipass _ => [.wait .endedAndReady, .exitedZero]
  | .vagrant => [.wait .succeeded, .call, .call]

/-! ### The programs take these steps -/

section Specs

variable {T : Type} {env : Env T} {host : String}

/-- What the steps see of the state. -/
def waiting (w : World T) (host : String) : Waiting := ⟨w.tick, w.returncode, host⟩

@[simp] theorem waiting_next (w : World T) : waiting w.next host = (waiting w host).next := rfl

/-- The program returns exactly if the step does not fail. -/
def Takes (host : String) (step : Waiting → Option Waiting) {α : Type} (program : Prog T α) :
    Prop :=
  ∀ w, wp program (fun _ w' => step (waiting w host) = some (waiting w' host))
    (fun _ _ => step (waiting w host) = none) w

/-- The action raises exactly if the check does, and answers the same. -/
def Answers (env : Env T) (check : Check) (action : Prog T Bool) : Prop :=
  ∀ host w, wp action
    (fun done w' => (waiting w host).ask env check = some (done, waiting w' host))
    (fun _ _ => (waiting w host).ask env check = none) w

theorem takes_call : Takes host (fun t => t.call env) (call env) := by
  intro w
  rw [wp_call]
  exact ⟨fun h => by simp [Waiting.call, waiting, h, Waiting.next],
    fun e h => by simp [Waiting.call, waiting, h]⟩

theorem takes_sendToChannel (host : String) (msg suffix : List UInt8) :
    Takes host (fun t => t.call env) (sendToChannel env msg suffix) := by
  intro w
  rw [wp_sendToChannel]
  exact ⟨fun h => by simp [Waiting.call, waiting, h, Waiting.next],
    fun e h => by simp [Waiting.call, waiting, h]⟩

/-- What `askReady` answers, and that it raises right away if it does. -/
theorem wp_askReady (host : String) (w : World T) :
    wp (askReady env)
      (fun done w' => (waiting w host).askReady env = some (done, waiting w' host))
      (fun stop w' => (waiting w host).askReady env = none ∧ w' = w.next ∧ ∃ e, stop = .raised e)
      w := by
  rw [askReady, wp_bind, wp_call]
  constructor
  · intro h
    simp [Waiting.askReady, Waiting.call, waiting, h, Waiting.next]
  · intro e h
    simp [Waiting.askReady, Waiting.call, waiting, h]

theorem wp_poll {Q : Option ℤ → World T → Prop} {E : Stop → World T → Prop} (w : World T) :
    wp (poll env) Q E w ↔ Q (w.returncode.or (env.returncode w.tick))
      { w.next with returncode := w.returncode.or (env.returncode w.tick) } := by
  simp [poll]

theorem answers_askReady : Answers env .ready (askReady env) :=
  fun _ w => wp_mono (wp_askReady _ w) (fun _ _ h => h) fun _ _ h => h.1

theorem answers_askReadyOrNot : Answers env .readyOrNot (askReadyOrNot env) := by
  intro host w
  rw [askReadyOrNot, wp_handle]
  refine wp_mono (wp_askReady host w) ?_ ?_
  · intro done w' h
    simp [Waiting.ask, h]
  · rintro _ w' ⟨h, rfl, e, rfl⟩
    simp [Waiting.ask, h]

theorem answers_createDone : Answers env .ended (createDone env) := by
  intro host w
  rw [createDone, wp_bind, wp_poll]
  exact (wp_pure _).mpr rfl

theorem answers_multipassCreateDone : Answers env .endedAndReady (multipassCreateDone env) := by
  intro host w
  rw [multipassCreateDone, wp_bind, wp_poll]
  by_cases hended : (w.returncode.or (env.returncode w.tick)).isSome = true
  · have hask : (waiting w host).ask env .endedAndReady =
        ((waiting w host).poll env).askReady env := if_pos hended
    rw [if_pos hended, hask]
    exact wp_mono (wp_askReady _ _) (fun _ _ h => h) fun _ _ h => h.1
  · have hask : (waiting w host).ask env .endedAndReady =
        some (false, (waiting w host).poll env) := if_neg hended
    rw [if_neg hended, hask]
    exact (wp_pure _).mpr rfl

theorem answers_vagrantUp : Answers env .succeeded (vagrantUp env) := by
  intro host w
  rw [vagrantUp, wp_bind, wp_poll]
  exact (wp_pure _).mpr rfl

theorem timeChecks_spec {check : Check} {action : Prog T Bool} (h : Answers env check action)
    (host : String) (n : ℕ) (w : World T) :
    wp (timeChecks env action n)
      (fun done w' => checks env check n (waiting w host) = some (done, waiting w' host))
      (fun _ _ => checks env check n (waiting w host) = none) w := by
  induction n generalizing w with
  | zero => exact (wp_pure _).mpr rfl
  | succ n ih =>
    rw [timeChecks, wp_bind]
    refine wp_mono (takes_sendToChannel host _ _ w) ?_ fun _ _ hcall => by simp [checks, hcall]
    intro _ w₁ hcall
    rw [wp_bind]
    refine wp_mono (h host w₁) ?_ fun _ _ hask => by simp [checks, hcall, hask]
    intro done w₂ hask
    cases done with
    | false =>
      refine wp_mono (ih w₂) ?_ ?_
      · intro done w' hrest
        simp [checks, hcall, hask, hrest]
      · intro _ w' hrest
        simp [checks, hcall, hask, hrest]
    | true =>
      simp only [if_true, wp_bind, wp_tick]
      refine wp_mono (takes_sendToChannel host _ _ w₂.next) ?_ ?_
      · intro _ w₃ hok
        simp [checks, hcall, hask, ← waiting_next, hok]
      · intro _ w₃ hok
        simp [checks, hcall, hask, ← waiting_next, hok]

theorem takes_timeProcessAction {check : Check} {action : Prog T Bool}
    (h : Answers env check action) (actionName : String) :
    Takes host (fun t => AwaitStep.after env t (.wait check))
      (timeProcessAction env actionName action) := by
  intro w
  simp only [timeProcessAction, AwaitStep.after]
  rw [wp_bind]
  refine wp_mono (takes_sendToChannel host _ _ w) ?_ fun _ _ hcall => by simp [hcall]
  intro _ w₁ hcall
  rw [wp_bind]
  refine wp_mono (timeChecks_spec h host 20 w₁) ?_ fun _ _ hchecks => by simp [hcall, hchecks]
  intro done w₂ hchecks
  cases done with
  | true => simp [hcall, hchecks]
  | false =>
    simp only [Bool.false_eq_true, if_false, wp_bind]
    refine wp_mono (takes_sendToChannel host _ _ w₂) ?_ ?_
    · intro _ w₃ hgive
      simp [hcall, hchecks, hgive]
    · intro _ w₃ hgive
      simp [hcall, hchecks, hgive]

/-- From a host that is known so far, the program takes these steps and returns the host that
is known then; it raises exactly if one of them fails. -/
def TakesAll (env : Env T) (host : String) (steps : List AwaitStep) (program : Prog T String) :
    Prop :=
  ∀ w, wp program (fun host' w' => afterAll env steps (waiting w host) = some (waiting w' host'))
    (fun _ _ => afterAll env steps (waiting w host) = none) w

theorem takesAll_nil : TakesAll env host [] (pure host) := fun _ => (wp_pure host).mpr rfl

theorem TakesAll.cons {step : AwaitStep} {steps : List AwaitStep} {α : Type} {first : Prog T α}
    {rest : α → Prog T String} (hfirst : Takes host (fun t => step.after env t) first)
    (hrest : ∀ a, TakesAll env host steps (rest a)) :
    TakesAll env host (step :: steps) (first >>= rest) := by
  intro w
  rw [wp_bind]
  refine wp_mono (hfirst w) ?_ fun _ _ hfails => by simp [afterAll, hfails]
  intro a w₁ hafter
  refine wp_mono (hrest a w₁) ?_ ?_
  · intro host' w' hall
    simp [afterAll, hafter, hall]
  · intro _ w' hall
    simp [afterAll, hafter, hall]

theorem TakesAll.address {steps : List AwaitStep} {rest : ℕ → Prog T String}
    (hrest : ∀ n, TakesAll env (env.address n) steps (rest n)) :
    TakesAll env host (.address :: steps) (tick >>= rest) := by
  intro w
  rw [wp_bind, wp_tick]
  exact hrest w.tick w.next

theorem takesAll_bootServer (serverName shown : String) :
    TakesAll env host bootSteps (bootServer env serverName shown host) :=
  .cons (takes_sendToChannel _ _ _) fun _ => .cons takes_call fun _ =>
    .cons (takes_sendToChannel _ _ _) fun _ =>
    .cons (takes_timeProcessAction answers_askReady _) fun _ =>
    .cons (takes_sendToChannel _ _ _) fun _ => takesAll_nil

theorem takesAll_awaitCommand {check : Check} {done : Prog T Bool} (h : Answers env check done)
    (actionName : String) (failure : PyExc) :
    TakesAll env "127.0.0.1" [.wait check, .exitedZero]
      (awaitCommand env actionName done failure) := by
  refine .cons (takes_timeProcessAction h _) fun _ w => ?_
  rw [wp_bind, wp_get, wp_ite]
  split_ifs with hexit
  · have hfails : (waiting w "127.0.0.1").returncode ≠ some 0 := hexit
    exact (wp_raise _).mpr (by simp [afterAll, AwaitStep.after, hfails])
  · have hzero : (waiting w "127.0.0.1").returncode = some 0 := not_not.mp hexit
    exact (wp_pure _).mpr (by simp [afterAll, AwaitStep.after, hzero])

/-- What follows the request returns exactly if no step of it fails. -/
theorem takesAll_awaitServer (p : BaseProvider) (serverName : String) :
    TakesAll env "127.0.0.1" p.kind.awaitSteps (awaitServer env p serverName) := by
  unfold awaitServer
  cases p.kind with
  | digitalOcean favorites =>
    exact .cons takes_call fun _ => .cons (takes_timeProcessAction answers_askReady _) fun _ =>
      .cons takes_call fun _ => .address fun _ => takesAll_bootServer _ _
  | linode favorites =>
    exact .cons takes_call fun _ =>
      .cons (takes_timeProcessAction answers_askReadyOrNot _) fun _ =>
      .cons takes_call fun _ => .address fun _ => .address fun _ => takesAll_bootServer _ _
  | vultr favorites =>
    exact .cons takes_call fun _ =>
      .cons (takes_timeProcessAction answers_askReadyOrNot _) fun _ =>
      .cons takes_call fun _ => .address fun _ => takesAll_bootServer _ _
  | footloose | ignite config => exact takesAll_awaitCommand answers_createDone _ _
  | multipass config => exact takesAll_awaitCommand answers_multipassCreateDone _ _
  | vagrant =>
    exact .cons (takes_timeProcessAction answers_vagrantUp _) fun _ =>
      .cons (takes_sendToChannel _ _ _) fun _ => .cons takes_call fun _ => takesAll_nil

end Specs

end Lobbyboy.Provider
