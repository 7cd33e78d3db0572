import Lobbyboy.Provider.Creation

/-! What `create_server` leaves behind, for every shipped provider and every way its steps
may go: at most one server is requested, under the first free name of the provider, and
the database and the session table are left alone. -/

namespace Lobbyboy.Provider

open Foundation Utils Config Prog BaseProvider

variable {T : Type} {env : Env T} {p : BaseProvider}

/-! ### Steps that request nothing -/

theorem silent_timeChecks {action : Prog T Bool} (h : Keeps silent action) (n : ℕ) :
    Keeps silent (timeChecks env action n) := by
  induction n with
  | zero => exact .pure _
  | succ n ih =>
    refine .bind (silent_sendToChannel _ _) fun _ => .bind h fun done => .ite ?_ ih
    exact .bind silent_tick fun _ => .bind (silent_sendToChannel _ _) fun _ => .pure _

theorem silent_timeProcessAction {action : Prog T Bool} (h : Keeps silent action)
    (actionName : String) (maxCheck : ℕ) :
    Keeps silent (timeProcessAction env actionName action maxCheck) := by
  refine .bind (silent_sendToChannel _ _) fun _ => .bind (silent_timeChecks h _) fun done => ?_
  exact .ite (.pure _) (.bind (silent_sendToChannel _ _) fun _ => .pure _)

theorem silent_askReady : Keeps silent (askReady env) :=
  .bind silent_call fun _ => .bind silent_tick fun _ => .pure _

theorem silent_askReadyOrNot : Keeps silent (askReadyOrNot env) :=
  silent_handle silent_askReady fun _ => .pure _

theorem silent_popen : Keeps silent (popen env) :=
  .bind silent_call fun _ => .modify fun _ => ⟨rfl, rfl, rfl, rfl⟩

theorem silent_poll : Keeps silent (poll env) :=
  .bind silent_tick fun _ => .bind (.modify fun _ => ⟨rfl, rfl, rfl, rfl⟩) fun _ =>
    .bind .get fun _ => .pure _

theorem silent_chooseListed (askPrompt : String) (listed : List (String × String)) :
    Keeps silent (chooseListed env askPrompt listed) :=
  .bind (silent_chooseOption _ _ _ _) fun _ => .pure _

theorem silent_fetch : Keeps silent (fetch env) :=
  .bind silent_call fun _ => .bind silent_tick fun _ => .pure _

theorem silent_manuallyCreate (service size image : String) :
    Keeps silent (manuallyCreate env service size image) :=
  .bind (silent_sendToChannel _ _) fun _ => .bind silent_fetch fun _ =>
    .bind silent_fetch fun _ => .bind silent_fetch fun _ => .bind (silent_chooseListed _ _) fun _ =>
    .bind (silent_chooseListed _ _) fun _ => .bind (silent_chooseListed _ _) fun _ => .pure _

theorem silent_askUserCustomizeServer (what service size image : String)
    (favoriteInstanceTypes : List String) :
    Keeps silent (askUserCustomizeServer env what favoriteInstanceTypes
      (manuallyCreate env service size image)) := by
  refine .bind (silent_chooseOption _ _ _ _) fun idx => .ite (silent_manuallyCreate _ _ _) ?_
  split
  · exact .pure _
  · exact silent_raise _

theorem silent_collectionSshKeys : Keeps silent (collectionSshKeys env p) :=
  .bind silent_call fun _ => .bind silent_tick fun _ => .pure _

theorem silent_prepareKeys : Keeps silent (do
    let _ ← collectionSshKeys env p
    sendToChannel env (utf8 "Waiting for server to created...")) :=
  .bind silent_collectionSshKeys fun _ => silent_sendToChannel _ _

theorem silent_createKeys (keys : List String) : Keeps silent (createKeys env keys) := by
  induction keys with
  | nil => exact .pure _
  | cons key keys ih => exact .bind silent_call fun _ => ih

theorem silent_bootServer (serverName shown ip : String) :
    Keeps silent (bootServer env serverName shown ip) :=
  .bind (silent_sendToChannel _ _) fun _ => .bind silent_call fun _ =>
    .bind (silent_sendToChannel _ _) fun _ =>
    .bind (silent_timeProcessAction silent_askReady _ _) fun _ =>
    .bind (silent_sendToChannel _ _) fun _ => .pure _

theorem silent_awaitCommand {done : Prog T Bool} (h : Keeps silent done) (actionName : String)
    (failure : PyExc) : Keeps silent (awaitCommand env actionName done failure) :=
  .bind (silent_timeProcessAction h _ _) fun _ => .bind .get fun _ =>
    .ite (silent_raise _) (.pure _)

theorem silent_createDone : Keeps silent (createDone env) :=
  .bind silent_poll fun _ => .pure _

theorem silent_multipassCreateDone : Keeps silent (multipassCreateDone env) :=
  .bind silent_poll fun _ => .ite silent_askReady (.pure _)

/-! ### One request -/

/-- That server has been requested, under the first free name, and has its workspace. -/
structure Requested (p : BaseProvider) (serverName : String) (w w' : World T) : Prop where
  db : w'.db = w.db
  activeSession : w'.activeSession = w.activeSession
  dirs : ∃ made, w'.dirs = p.getServerWorkspace serverName :: (made ++ w.dirs)
  log : ∃ order, w'.log = w.log ++ [.requested p.name serverName order]
  named : ∃ now, p.firstFree w.dirs now = some serverName

theorem Requested.of_silent {serverName : String} {w w₁ w' : World T}
    (h : Requested p serverName w w₁) (hs : Silent w₁ w') : Requested p serverName w w' where
  db := hs.db.trans h.db
  activeSession := hs.activeSession.trans h.activeSession
  dirs := by rw [hs.dirs]; exact h.dirs
  log := by rw [hs.log]; exact h.log
  named := h.named

theorem Requested.after_silent {serverName : String} {w w₁ w' : World T} (hs : Silent w w₁)
    (h : Requested p serverName w₁ w') : Requested p serverName w w' where
  db := h.db.trans hs.db
  activeSession := h.activeSession.trans hs.activeSession
  dirs := by rw [← hs.dirs]; exact h.dirs
  log := by rw [← hs.log]; exact h.log
  named := by rw [← hs.dirs]; exact h.named

/-- The record that is returned is that of the requested server. -/
structure Created (p : BaseProvider) (m : LBServerMeta) (w w' : World T) : Prop where
  new : ∃ host now, m = p.newServer m.serverName host now
  requested : Requested p m.serverName w w'

/-- Nothing was requested, or one server was. -/
def Stopped (p : BaseProvider) (w w' : World T) : Prop :=
  Made w w' ∨ ∃ serverName, Requested p serverName w w'

theorem Stopped.after_silent {w w₁ w' : World T} (hs : Silent w w₁) (h : Stopped p w₁ w') :
    Stopped p w w' := by
  rcases h with hmade | ⟨n, hreq⟩
  · exact .inl ((Made.of_silent hs).trans hmade)
  · exact .inr ⟨n, .after_silent hs hreq⟩

/-- A `create_server` that meets this requests what it records. -/
def Creates (p : BaseProvider) (create : Prog T LBServerMeta) : Prop :=
  ∀ w, wp create (fun m w' => Created p m w w') (fun _ w' => Stopped p w w') w

/-- A program that requests a server of the provider, unless it raises before. -/
def RequestsOne (p : BaseProvider) (requested : Prog T String) : Prop :=
  ∀ w, wp requested (fun serverName w' => Requested p serverName w w') (fun _ w' => Made w w') w

theorem requestsOne_request {generate : Prog T String} {prepare : String → Prog T Unit}
    {order : String → List String} (hname : Names p generate)
    (hprepare : ∀ serverName, Keeps silent (prepare serverName)) :
    RequestsOne p (request env p generate prepare order) := by
  intro w
  rw [request, wp_bind]
  apply wp_mono (hname w)
  · rintro serverName w₁ ⟨hmade, hfree⟩
    rw [wp_bind, wp_makeDir]
    constructor
    · intro _
      have hmade₂ := hmade.trans (.makeDir w₁ (p.getServerWorkspace serverName))
      have hstopped : ∀ w', Silent _ w' → Made w w' := fun w' h => hmade₂.trans (.of_silent h)
      apply (silent_sendToChannel _ _).seq (silent.refl _) fun _ => hstopped
      intro _ w₃ h₃
      apply (hprepare serverName).seq h₃ fun _ => hstopped
      intro _ w₄ h₄
      have hmade₄ := hmade₂.trans (.of_silent h₄)
      obtain ⟨made, hdirs⟩ := hmade.dirs
      rw [wp_bind, wp_emit, wp_pure]
      exact ⟨hmade₄.db, hmade₄.activeSession, ⟨made, by rw [← hdirs]; exact h₄.dirs⟩,
        ⟨_, by rw [hmade₄.log]⟩, hfree⟩
    · exact fun e _ => hmade.trans (.of_silent ⟨rfl, rfl, rfl, rfl⟩)
  · exact fun _ w' hmade => hmade

theorem RequestsOne.bind {α : Type} {ask : Prog T α} {requested : α → Prog T String}
    (hask : Keeps silent ask) (hrequested : ∀ a, RequestsOne p (requested a)) :
    RequestsOne p (ask >>= requested) := by
  intro w
  apply hask.seq (silent.refl w) fun _ w' h => .of_silent h
  intro a w₁ h₁
  apply wp_mono (hrequested a w₁)
  · exact fun m w' h => h.after_silent h₁
  · exact fun _ w' h => (Made.of_silent h₁).trans h

theorem creates_provision {requested : Prog T String} {await : String → Prog T String}
    (hrequested : RequestsOne p requested)
    (hawait : ∀ serverName, Keeps silent (await serverName)) :
    Creates p (provision env p requested await) := by
  intro w
  rw [provision, wp_bind]
  apply wp_mono (hrequested w)
  · intro serverName w₁ hreq
    apply (hawait serverName).seq (silent.refl _)
      fun _ w' h => .inr ⟨serverName, hreq.of_silent h⟩
    intro host w₂ h₂
    rw [wp_bind, wp_now, wp_pure]
    exact ⟨⟨host, _, rfl⟩, (hreq.of_silent h₂).of_silent ⟨rfl, rfl, rfl, rfl⟩⟩
  · exact fun _ w' hmade => .inl hmade

/-! ### The shipped providers -/

theorem silent_prepareVultr (image : String) : Keeps silent (do
    let sshKeys ← collectionSshKeys env p
    sendToChannel env (utf8 "Waiting for server to created...")
    createKeys env sshKeys
    match pyInt image with
    | none => raise ⟨.valueError, s!"invalid literal for int() with base 10: '{image}'"⟩
    | some _ => pure ()) := by
  refine .bind silent_collectionSshKeys fun keys => .bind (silent_sendToChannel _ _) fun _ =>
    .bind (silent_createKeys _) fun _ => ?_
  split
  · exact silent_raise _
  · exact .pure _

theorem requestsOne_requestServer : RequestsOne p (requestServer env p : Prog T String) := by
  have hname : p.kind ≠ .vagrant → Names p (generateDefaultServerName env p) := names_default
  unfold requestServer
  split
  · next favorites hk =>
    exact .bind (silent_askUserCustomizeServer _ _ _ _ _) fun order =>
      requestsOne_request (hname (by simp [hk])) fun _ => silent_prepareKeys
  · next favorites hk =>
    exact .bind (silent_askUserCustomizeServer _ _ _ _ _) fun order =>
      requestsOne_request (hname (by simp [hk])) fun _ => silent_prepareKeys
  · next favorites hk =>
    exact .bind (silent_askUserCustomizeServer _ _ _ _ _) fun order =>
      requestsOne_request (hname (by simp [hk])) fun _ => silent_prepareVultr _
  · next hk =>
    exact requestsOne_request (hname (by simp [hk]))
      fun _ => .bind silent_call fun _ => silent_popen
  · next config hk => exact requestsOne_request (hname (by simp [hk])) fun _ => silent_popen
  · next config hk => exact requestsOne_request (hname (by simp [hk])) fun _ => silent_popen
  · next hk =>
    exact requestsOne_request (names_vagrant hk) fun _ => .bind silent_call fun _ => silent_popen

theorem silent_awaitCloud {up : Prog T Bool} (hup : Keeps silent up) (actionName : String)
    {boot : Prog T String} (hboot : Keeps silent boot) : Keeps silent (do
      call env
      let _ ← timeProcessAction env actionName up
      call env
      boot) :=
  .bind silent_call fun _ => .bind (silent_timeProcessAction hup _ _) fun _ =>
    .bind silent_call fun _ => hboot

theorem silent_awaitServer (serverName : String) :
    Keeps silent (awaitServer env p serverName : Prog T String) := by
  unfold awaitServer
  split
  · exact silent_awaitCloud silent_askReady _ (.bind silent_tick fun _ => silent_bootServer _ _ _)
  · exact silent_awaitCloud silent_askReadyOrNot _
      (.bind silent_tick fun _ => .bind silent_tick fun _ => silent_bootServer _ _ _)
  · exact silent_awaitCloud silent_askReadyOrNot _
      (.bind silent_tick fun _ => silent_bootServer _ _ _)
  · exact silent_awaitCommand silent_createDone _ _
  · exact silent_awaitCommand silent_createDone _ _
  · exact silent_awaitCommand silent_multipassCreateDone _ _
  · have hup : Keeps silent (vagrantUp env) := .bind silent_poll fun _ => .pure _
    exact .bind (silent_timeProcessAction hup _ _) fun _ =>
      .bind (silent_sendToChannel _ _) fun _ => .bind silent_call fun _ => .pure _

/-- Every shipped provider requests what it records, and at most that. -/
theorem creates_createServer : Creates p (createServer env p : Prog T LBServerMeta) := by
  rw [createServer_eq]
  exact creates_provision requestsOne_requestServer silent_awaitServer

end Lobbyboy.Provider
