import Lobbyboy.SocketHandle.Session

/-! Whether a session that has ended is still in the table. It is put there by
`_create_proxy_process` and taken out by the cleanup that is given the server, which an
exception in between leads past. -/

namespace Lobbyboy.SocketHandle

open Foundation Utils Config Provider ServerKiller Prog

variable {env : Env Transport} {providers : Providers} {t : Transport} {terminal : Terminal}
  {w w' : World Transport}

/-- The transport is under no name. -/
def Out (t : Transport) (w : World Transport) : Prop :=
  ∀ serverName, t ∉ w.activeSession.sessions serverName

/-- The transport is where it was. -/
def unmoved (t : Transport) : Frame (World Transport) where
  rel w w' := ∀ serverName,
    t ∈ w'.activeSession.sessions serverName ↔ t ∈ w.activeSession.sessions serverName
  refl _ _ := Iff.rfl
  trans h h' serverName := (h' serverName).trans (h serverName)

theorem unmoved_of_eq (h : w'.activeSession = w.activeSession) : (unmoved t).rel w w' :=
  fun serverName => by rw [h]

theorem Out.of_unmoved (h : Out t w) (hu : (unmoved t).rel w w') : Out t w' :=
  fun serverName hmem => h serverName ((hu serverName).mp hmem)

theorem unmoved_of_silent {α : Type} {p : Prog Transport α} (h : Keeps silent p) :
    Keeps (unmoved t) p := h.mono fun hs => unmoved_of_eq hs.activeSession

theorem unmoved_fromExcept {α : Type} (x : Except PyExc α) :
    Keeps (unmoved t) (fromExcept x : Prog Transport α) := by
  cases x with
  | ok a => exact .pure a
  | error e => exact .throw _

/-! ### Steps between the registration and the cleanup -/

/-- The table and the number of the next call are what they were. -/
structure Same (w w' : World Transport) : Prop where
  activeSession : w'.activeSession = w.activeSession
  tick : w'.tick = w.tick

theorem Same.trans {w₁ : World Transport} (h : Same w w₁) (h' : Same w₁ w') : Same w w' :=
  ⟨h'.activeSession.trans h.activeSession, h'.tick.trans h.tick⟩

/-- A step that returns exactly when `ok`, and raises otherwise. -/
def Tries (ok : Prop) {α : Type} (p : Prog Transport α) : Prop :=
  ∀ w, wp p (fun _ w' => Same w w' ∧ ok)
    (fun s w' => Same w w' ∧ (∃ e, s = .raised e) ∧ ¬ ok) w

theorem Tries.bind {α β : Type} {ok₁ ok₂ : Prop} {p : Prog Transport α}
    {f : α → Prog Transport β} (hp : Tries ok₁ p) (hf : ∀ a, Tries ok₂ (f a)) :
    Tries (ok₁ ∧ ok₂) (p >>= f) := by
  intro w
  rw [wp_bind]
  apply wp_mono (hp w)
  · rintro a w₁ ⟨hsame, hok₁⟩
    apply wp_mono (hf a w₁)
    · rintro _ w' ⟨hsame', hok₂⟩
      exact ⟨hsame.trans hsame', hok₁, hok₂⟩
    · rintro s w' ⟨hsame', hraised, hnot⟩
      exact ⟨hsame.trans hsame', hraised, fun hok => hnot hok.2⟩
  · rintro s w' ⟨hsame, hraised, hnot⟩
    exact ⟨hsame, hraised, fun hok => hnot hok.1⟩

theorem Tries.congr {α : Type} {ok ok' : Prop} {p : Prog Transport α} (hp : Tries ok p)
    (h : ok ↔ ok') : Tries ok' p := propext h ▸ hp

theorem tries_pure {α : Type} (a : α) : Tries True (pure a : Prog Transport α) :=
  fun _ => (wp_pure a).mpr ⟨⟨rfl, rfl⟩, trivial⟩

theorem tries_modify {f : World Transport → World Transport} (h : ∀ w, Same w (f w)) :
    Tries True (modify f : Prog Transport Unit) := fun w => (wp_modify f).mpr ⟨h w, trivial⟩

theorem tries_raise {α : Type} (e : PyExc) : Tries False (raise e : Prog Transport α) :=
  fun _ => (wp_raise e).mpr ⟨⟨rfl, rfl⟩, ⟨e, rfl⟩, id⟩

theorem tries_attempt (failure : Option PyExc) : Tries (failure = none) (attempt failure) := by
  cases failure with
  | none => exact (tries_pure ()).congr (by simp)
  | some e => exact (tries_raise e).congr (by simp)

theorem tries_fromExcept {α : Type} (x : Except PyExc α) :
    Tries (∃ a, x = .ok a) (fromExcept x : Prog Transport α) := by
  cases x with
  | ok a => exact (tries_pure a).congr (by simp)
  | error e => exact (tries_raise e).congr (by simp)

theorem tries_deliver (bytes : List UInt8) (failure : Option PyExc) :
    Tries (failure = none) (deliver bytes failure) := by
  have h := (tries_attempt failure).bind fun _ =>
    tries_modify (f := fun w => { w with output := w.output ++ [bytes] }) fun _ => ⟨rfl, rfl⟩
  exact h.congr (and_iff_left trivial)

/-- Neither the transfer nor `select` raises. -/
def Turn.Smooth : Turn → Prop
  | .idle => True
  | .fromProxy read sent => (∃ bytes, read = .ok bytes) ∧ sent = none
  | .fromClient received written => (∃ bytes, received = .ok bytes) ∧ written = none
  | .noSelect _ => False

theorem tries_takeTurn (turn : Turn) : Tries turn.Smooth (takeTurn turn) := by
  cases turn with
  | idle => exact tries_pure ()
  | fromProxy read sent => exact (tries_fromExcept read).bind fun _ => tries_deliver _ sent
  | fromClient received written =>
    exact (tries_fromExcept received).bind fun _ => tries_attempt written
  | noSelect e => exact tries_raise e

theorem tries_takeTurns (turns : List Turn) :
    Tries (∀ turn ∈ turns, turn.Smooth) (takeTurns turns) := by
  induction turns with
  | nil => exact (tries_pure ()).congr (by simp)
  | cons turn turns ih => exact ((tries_takeTurn turn).bind fun _ => ih).congr (by simp)

theorem tries_userUsing (terminal : Terminal) :
    Tries (terminal.fileno = none ∧ ∀ turn ∈ terminal.turns, turn.Smooth)
      (userUsing terminal) :=
  (tries_attempt _).bind fun _ => tries_takeTurns _

/-! ### Removal -/

theorem filterSessions_eq (n : ℕ) (peerName : String × ℕ) (xs : List Transport) :
    (∀ x ∈ xs, env.lost n x = none) ∧
        filterSessions env n peerName xs = .ok (xs.filter (·.peer ≠ peerName)) ∨
      (¬ ∀ x ∈ xs, env.lost n x = none) ∧ ∃ e, filterSessions env n peerName xs = .error e := by
  induction xs with
  | nil => exact .inl ⟨by simp, rfl⟩
  | cons x xs ih =>
    cases hx : env.lost n x with
    | some e =>
      refine .inr ⟨fun hall => by simp [hx] at hall, e, ?_⟩
      simp [filterSessions, getpeername, hx, bind, Except.bind]
    | none =>
      rcases ih with ⟨hall, heq⟩ | ⟨hnot, e, heq⟩
      · refine .inl ⟨by simpa [hx] using hall, ?_⟩
        simp only [filterSessions, getpeername, hx, heq, bind, Except.bind, pure, Except.pure]
        by_cases hp : x.peer = peerName <;> simp [hp]
      · refine .inr ⟨fun hall => hnot fun y hy => hall y (List.mem_cons_of_mem _ hy), e, ?_⟩
        simp [filterSessions, getpeername, hx, heq, bind, Except.bind]

/-- `getpeername` returns for the transport and, under the lock, for every transport of
that server. -/
def Removable (env : Env Transport) (t : Transport) (serverName : String)
    (w : World Transport) : Prop :=
  env.lost w.tick t = none ∧
    ∀ x ∈ (env.others (w.tick + 1) w.activeSession).sessions serverName,
      env.lost (w.tick + 2) x = none

/-- The other threads put in and take out their own transports only. -/
def Alone (env : Env Transport) (t : Transport) : Prop :=
  ∀ n (d : ActiveSession Transport) serverName,
    t ∈ (env.others n d).sessions serverName ↔ t ∈ d.sessions serverName

section Removal

variable (halone : Alone env t)
include halone

theorem unmoved_readSessions : Keeps (unmoved t) (readSessions env) := by
  intro w
  rw [wp_readSessions]
  exact halone _ _

/-- The transport is taken out, or nobody is. -/
theorem removeServerSession_spec {serverName : String} (w : World Transport)
    (hin : t ∈ w.activeSession.sessions serverName)
    (honly : ∀ name, name ≠ serverName → t ∉ w.activeSession.sessions name) :
    wp (removeServerSession env t serverName) (fun _ w' => Removable env t serverName w ∧ Out t w')
      (fun s w' => ¬ Removable env t serverName w ∧ (∃ e, s = .raised e) ∧ (unmoved t).rel w w')
      w := by
  simp only [removeServerSession, wp_bind, wp_tick, wp_fromExcept]
  constructor
  · intro peerName hpeer
    have hlost : env.lost w.tick t = none := by
      cases hl : env.lost w.tick t with
      | none => rfl
      | some e => rw [getpeername, hl] at hpeer; cases hpeer
    rw [getpeername, hlost] at hpeer
    cases hpeer
    have hin' := (halone (w.tick + 1) w.activeSession serverName).mpr hin
    rw [wp_readSessions]
    cases hs : (env.others (w.tick + 1) w.activeSession).sessions serverName with
    | nil => rw [hs] at hin'; cases hin'
    | cons x xs =>
      simp only [World.next_tick, World.next_activeSession, hs, wp_bind, wp_tick, wp_fromExcept,
        wp_modify]
      rcases filterSessions_eq (w.tick + 2) t.peer (x :: xs) with ⟨hall, heq⟩ | ⟨hnot, e, heq⟩
      · have hrem : Removable env t serverName w := ⟨hlost, by rwa [hs]⟩
        constructor
        · intro rest hrest
          cases heq.symm.trans hrest
          refine ⟨hrem, fun name hmem => ?_⟩
          rw [ActiveSession.sessions_assign] at hmem
          split_ifs at hmem with hn
          · simpa using (List.mem_filter.mp hmem).2
          · exact honly name hn ((halone _ _ _).mp hmem)
        · intro e he
          cases heq.symm.trans he
      · have hrem : ¬ Removable env t serverName w := fun h => hnot (hs ▸ h.2)
        constructor
        · intro rest hrest
          cases heq.symm.trans hrest
        · intro e _
          exact ⟨hrem, ⟨e, rfl⟩, halone _ _⟩
  · intro e he
    have hrem : ¬ Removable env t serverName w := by
      intro h
      rw [getpeername, h.1] at he
      cases he
    exact ⟨hrem, ⟨e, rfl⟩, fun _ => Iff.rfl⟩

end Removal

/-! ### Steps that leave the transport where it is -/

section Unmoved

theorem unmoved_loadServers : Keeps (unmoved t) (loadServers env) := fun _ =>
  wp_loadServers.mpr ⟨fun _ _ => unmoved_of_eq rfl, fun _ _ => unmoved_of_eq rfl⟩

theorem unmoved_updateServers (new deleted : List LBServerMeta) :
    Keeps (unmoved t) (updateServers env new deleted) := fun _ =>
  (wp_updateServers new deleted).mpr ⟨fun _ _ => unmoved_of_eq rfl, fun _ _ => unmoved_of_eq rfl⟩

theorem unmoved_destroyServer (m : LBServerMeta) : Keeps (unmoved t) (destroyServer env m) :=
  fun _ => (wp_destroyServer m).mpr ⟨fun _ _ => unmoved_of_eq rfl, fun _ _ => unmoved_of_eq rfl⟩

theorem unmoved_destroy (provider : BaseProvider) (m : LBServerMeta) :
    Keeps (unmoved t) (destroy env provider m) :=
  .ite (.throw _) (.bind (unmoved_destroyServer m) fun _ => unmoved_updateServers _ _)

theorem unmoved_sendToChannel (msg suffix : List UInt8) :
    Keeps (unmoved t) (sendToChannel env msg suffix) :=
  unmoved_of_silent (silent_sendToChannel _ _)

theorem unmoved_askUserToCreateServer :
    Keeps (unmoved t) (askUserToCreateServer env providers) := by
  intro w
  refine wp_mono (askUserToCreateServer_spec w) ?_ fun _ w' h => unmoved_of_eq h.activeSession
  rintro m w' ⟨p, -, d, ⟨w₁, hcreated, -, -, hsessions⟩, -, -⟩
  exact unmoved_of_eq (hsessions.trans hcreated.requested.activeSession)

theorem unmoved_prepareServer : Keeps (unmoved t) (prepareServer env) := by
  refine unmoved_of_silent (.bind silent_call fun _ => .bind silent_call fun _ => .bind ?_ ?_)
  · exact silent_handle (.bind silent_call fun _ => .pure _) fun e =>
      .ite (.pure _) (silent_raise _)
  · refine fun started => .ite (.bind silent_call fun _ => .bind silent_tick fun _ => ?_) (.pure _)
    exact .bind (.modify fun _ => ⟨rfl, rfl, rfl, rfl⟩) fun _ => .pure _

theorem unmoved_hangUp : Keeps (unmoved t) (hangUp env) :=
  unmoved_of_silent (.bind .get fun _ => .ite (.bind silent_call fun _ => silent_call) silent_call)

variable (halone : Alone env t)
include halone

theorem unmoved_destroyServerIfNeeded (m : LBServerMeta) :
    Keeps (unmoved t) (destroyServerIfNeeded env providers m) := by
  unfold destroyServerIfNeeded
  split
  · exact .throw _
  · refine .bind (.bind (unmoved_readSessions halone) fun _ =>
      .bind (unmoved_of_silent silent_now) fun _ => .bind (unmoved_of_silent silent_now) fun _ =>
      unmoved_fromExcept _) fun verdict => ?_
    refine .bind (unmoved_sendToChannel _ _) fun _ => .ite ?_ (.pure _)
    exact .bind (unmoved_sendToChannel _ _) fun _ => .bind (unmoved_destroy _ _) fun _ =>
      unmoved_sendToChannel _ _

theorem unmoved_describeServers (ms : List LBServerMeta) :
    Keeps (unmoved t) (describeServers env ms) := by
  induction ms with
  | nil => exact .pure _
  | cons m ms ih =>
    exact .bind (unmoved_readSessions halone) fun _ => .bind ih fun _ => .pure _

theorem unmoved_chooseServer : Keeps (unmoved t) (chooseServer env providers) := by
  refine .bind unmoved_loadServers fun d => .ite ?_ ?_
  · exact .bind (unmoved_sendToChannel _ _) fun _ => unmoved_askUserToCreateServer
  · refine .bind (unmoved_describeServers halone _) fun described =>
      .bind (unmoved_of_silent (silent_chooseOption _ _ _ _)) fun i => ?_
    cases i with
    | zero => exact unmoved_askUserToCreateServer
    | succ i =>
      dsimp only
      split
      · exact .pure _
      · exact .throw _

end Unmoved

/-! ### The registration -/

/-- The transport has been put under the name of that server, and nowhere else. -/
def JoinedAt (t : Transport) (serverName : String) (w w' : World Transport) : Prop :=
  t ∈ w'.activeSession.sessions serverName ∧
    ∀ name, name ≠ serverName →
      (t ∈ w'.activeSession.sessions name ↔ t ∈ w.activeSession.sessions name)

theorem JoinedAt.after_unmoved {serverName : String} {w₁ : World Transport}
    (h : JoinedAt t serverName w₁ w') (hu : (unmoved t).rel w w₁) : JoinedAt t serverName w w' :=
  ⟨h.1, fun name hname => (h.2 name hname).trans (hu name)⟩

section Registration

variable (halone : Alone env t)
include halone

theorem createProxyProcess_spec (w : World Transport) :
    wp (createProxyProcess env providers t) (fun m w' => JoinedAt t m.serverName w w')
      (fun _ w' => (unmoved t).rel w w') w := by
  apply (unmoved_chooseServer halone).seq ((unmoved t).refl w) fun _ _ h => h
  intro m w₁ h₁
  split
  · exact (wp_raise _).mpr h₁
  · apply (unmoved_sendToChannel _ _).seq h₁ fun _ _ h => h
    intro _ w₂ h₂
    apply (unmoved_of_silent silent_call).seq h₂ fun _ _ h => h
    intro _ w₃ h₃
    simp only [wp_bind, wp_readSessions, wp_modify, wp_pure]
    constructor
    · rw [ActiveSession.sessions_register, if_pos rfl]
      simp
    · intro name hname
      rw [ActiveSession.sessions_register, if_neg hname, halone]
      exact h₃ name

/-- How a session stands once there is a proxy process, or there is none. -/
def Started (t : Transport) (w : World Transport) :
    Option LBServerMeta → World Transport → Prop
  | some m, w' => JoinedAt t m.serverName w w'
  | none, w' => (unmoved t).rel w w'

theorem startShell_spec (w : World Transport) :
    wp (startShell env providers t) (fun r w' => Started t w r w')
      (fun _ w' => (unmoved t).rel w w') w := by
  rw [startShell, wp_bind, wp_tick]
  have hsend : ∀ msg (w₁ : World Transport), (unmoved t).rel w w₁ →
      wp (do sendToChannel env msg; return none : Prog Transport (Option LBServerMeta))
        (fun r w' => Started t w r w') (fun _ w' => (unmoved t).rel w w') w₁ := by
    intro msg w₁ h₁
    apply (unmoved_sendToChannel _ _).seq h₁ fun _ _ h => h
    intro _ w₂ h₂
    exact (wp_pure _).mpr h₂
  have hnext : (unmoved t).rel w w.next := unmoved_of_eq rfl
  rw [wp_ite]
  split_ifs
  · rw [wp_bind, wp_tick]
    have hnext₂ : (unmoved t).rel w w.next.next := hnext
    apply (unmoved_fromExcept _).seq hnext₂ fun _ _ h => h
    intro _ w₁ h₁
    rw [wp_handle, wp_bind]
    apply wp_mono (createProxyProcess_spec halone w₁)
    · intro m w₂ h₂
      exact (wp_pure _).mpr (h₂.after_unmoved h₁)
    · intro s w₂ h₂
      have h := (unmoved t).trans h₁ h₂
      cases s with
      | waiting => exact h
      | raised e =>
        dsimp only
        rw [wp_ite, wp_ite]
        split_ifs
        · exact hsend _ w₂ h
        · exact hsend _ w₂ h
        · apply (unmoved_sendToChannel _ _).seq h fun _ _ h => h
          intro _ w₃ h₃
          exact (wp_raise e).mpr h₃
  · exact hsend _ w.next hnext

/-- Everything that `run` does up to the proxy process. -/
def reachProxy (env : Env Transport) (providers : Providers) (t : Transport) :
    Prog Transport (Option LBServerMeta) := do
  call env
  if ← prepareServer env then do
    sendToChannel env (utf8 "Welcome to LobbyBoy 0.4.0!")
    startShell env providers t
  else return none

theorem reachProxy_spec (w : World Transport) :
    wp (reachProxy env providers t) (fun r w' => Started t w r w')
      (fun _ w' => (unmoved t).rel w w') w := by
  apply (unmoved_of_silent silent_call).seq ((unmoved t).refl w) fun _ _ h => h
  intro _ w₁ h₁
  apply unmoved_prepareServer.seq h₁ fun _ _ h => h
  intro opened w₂ h₂
  rw [wp_ite]
  split_ifs
  · apply (unmoved_sendToChannel _ _).seq h₂ fun _ _ h => h
    intro _ w₃ h₃
    apply wp_mono (startShell_spec halone w₃)
    · intro r w₄ h₄
      cases r with
      | none => exact (unmoved t).trans h₃ h₄
      | some m => exact h₄.after_unmoved h₃
    · exact fun _ _ h => (unmoved t).trans h₃ h
  · exact (wp_pure _).mpr h₂

end Registration

/-! ### The thread -/

/-- The session from the registration on. -/
def afterProxy (env : Env Transport) (providers : Providers) (t : Transport)
    (terminal : Terminal) (m : LBServerMeta) : Prog Transport Unit := do
  deliver (List.replicate terminal.windowWidth 61 ++ crlf) terminal.line
  userUsing terminal
  deliver (utf8 s!"LobbyBoy: SSH to remote server {m.serverName} closed." ++ crlf) terminal.closing
  cleanup env providers t (some m) true

theorem run_eq : run env providers t terminal =
    handle (do
      match ← reachProxy env providers t with
      | none => cleanup env providers t none false
      | some m => afterProxy env providers t terminal m)
      fun _ => cleanup env providers t none false := by
  rw [run, reachProxy]
  congr 1
  simp only [bind_assoc]
  refine bind_congr fun _ => bind_congr fun opened => ?_
  cases opened with
  | false => simp
  | true =>
    simp only [if_true, bind_assoc, prepareShellEnv]
    refine bind_congr fun _ => bind_congr fun r => ?_
    cases r <;> simp [afterProxy]

/-- The session from the registration to the cleanup. -/
def inSession (terminal : Terminal) (m : LBServerMeta) : Prog Transport Unit := do
  deliver (List.replicate terminal.windowWidth 61 ++ crlf) terminal.line
  userUsing terminal
  deliver (utf8 s!"LobbyBoy: SSH to remote server {m.serverName} closed." ++ crlf) terminal.closing

theorem afterProxy_eq (m : LBServerMeta) : afterProxy env providers t terminal m =
    inSession terminal m >>= fun _ => cleanup env providers t (some m) true := by
  simp only [afterProxy, inSession, bind_assoc]

theorem tries_inSession (terminal : Terminal) (m : LBServerMeta) :
    Tries (terminal.line = none ∧ (terminal.fileno = none ∧ ∀ turn ∈ terminal.turns, turn.Smooth) ∧
      terminal.closing = none) (inSession terminal m) :=
  (tries_deliver _ _).bind fun _ => (tries_userUsing terminal).bind fun _ => tries_deliver _ _

/-- From the registration to the removal nothing raises: not the line below the
redirection, not the reads and writes of the session, not the closing message, and not
`getpeername`, of the session or of any other one of that server. -/
structure Unbroken (env : Env Transport) (t : Transport) (terminal : Terminal)
    (m : LBServerMeta) (w : World Transport) : Prop where
  line : terminal.line = none
  session : terminal.fileno = none ∧ ∀ turn ∈ terminal.turns, turn.Smooth
  closing : terminal.closing = none
  removable : Removable env t m.serverName w

theorem Same.removable {serverName : String} (h : Same w w') :
    Removable env t serverName w' ↔ Removable env t serverName w := by
  rw [Removable, Removable, h.activeSession, h.tick]

/-- The handler only closes the connection, so the transport stays where it is. -/
theorem handler_spec {P : Prop} {w₁ : World Transport}
    (h : ∀ w', (unmoved t).rel w₁ w' → (Out t w' ↔ P)) :
    wp (cleanup env providers t none false) (fun _ w' => Out t w' ↔ P)
      (fun s w' => s = .waiting ∨ (Out t w' ↔ P)) w₁ := by
  apply wp_mono (unmoved_hangUp w₁)
  · exact fun _ w' hu => h w' hu
  · exact fun _ w' hu => .inr (h w' hu)

/-- A thread that has registered nothing leaves nothing, also when closing raises. -/
theorem unregistered_spec {P : Prop} {w₁ : World Transport} (hP : P) (hout : Out t w₁) :
    wp (cleanup env providers t none false) (fun _ w' => Out t w' ↔ P)
      (fun s w' => match s with
        | .raised _ => wp (cleanup env providers t none false) (fun _ w' => Out t w' ↔ P)
            (fun s w' => s = .waiting ∨ (Out t w' ↔ P)) w'
        | .waiting => True) w₁ := by
  have hstay : ∀ w', (unmoved t).rel w₁ w' → (Out t w' ↔ P) :=
    fun w' hu => iff_of_true (hout.of_unmoved hu) hP
  apply wp_mono (unmoved_hangUp w₁)
  · exact fun _ w' hu => hstay w' hu
  · intro s w₂ hu
    cases s with
    | waiting => trivial
    | raised e => exact handler_spec fun w' h => hstay w' ((unmoved t).trans hu h)

section Run

variable (halone : Alone env t)
include halone

/-- An unbroken session takes its transport out; a broken one leaves it in. -/
theorem afterProxy_spec {m : LBServerMeta} (w : World Transport)
    (hin : t ∈ w.activeSession.sessions m.serverName)
    (honly : ∀ name, name ≠ m.serverName → t ∉ w.activeSession.sessions name) :
    wp (afterProxy env providers t terminal m)
      (fun _ w' => Unbroken env t terminal m w ∧ Out t w')
      (fun s w' => Unbroken env t terminal m w ∧ Out t w' ∨
        ¬ Unbroken env t terminal m w ∧ (∃ e, s = .raised e) ∧
          t ∈ w'.activeSession.sessions m.serverName) w := by
  rw [afterProxy_eq, wp_bind]
  apply wp_mono (tries_inSession terminal m w)
  · rintro _ w₁ ⟨hsame, hline, hsession, hclosing⟩
    have hunbroken : Removable env t m.serverName w₁ ↔ Unbroken env t terminal m w :=
      ⟨fun h => ⟨hline, hsession, hclosing, hsame.removable.mp h⟩,
        fun h => hsame.removable.mpr h.removable⟩
    rw [← hsame.activeSession] at hin honly
    rw [cleanup, wp_bind]
    apply wp_mono (removeServerSession_spec halone w₁ hin honly)
    · rintro _ w₂ ⟨hrem, hout⟩
      have hunbroken := hunbroken.mp hrem
      have hrest : Keeps (unmoved t) (do
          if true then destroyServerIfNeeded env providers m else pure ()
          hangUp env) :=
        .bind (unmoved_destroyServerIfNeeded halone m) fun _ => unmoved_hangUp
      apply wp_mono (hrest w₂)
      · exact fun _ _ h => ⟨hunbroken, hout.of_unmoved h⟩
      · exact fun _ _ h => .inl ⟨hunbroken, hout.of_unmoved h⟩
    · rintro s w₂ ⟨hrem, hraised, hmoved⟩
      exact .inr ⟨mt hunbroken.mpr hrem, hraised, (hmoved m.serverName).mpr hin⟩
  · rintro s w₁ ⟨hsame, hraised, hnot⟩
    have hbroken : ¬ Unbroken env t terminal m w := fun h => hnot ⟨h.line, h.session, h.closing⟩
    rw [← hsame.activeSession] at hin
    exact .inr ⟨hbroken, hraised, hin⟩

theorem run_spec (providers : Providers) (terminal : Terminal) (w : World Transport)
    (hnew : Out t w) :
    wp (run env providers t terminal)
      (fun _ w' => Out t w' ↔ ∀ m w₁, reachProxy env providers t w = .ok (some m) w₁ →
        Unbroken env t terminal m w₁)
      (fun s w' => s = .waiting ∨ (Out t w' ↔ ∀ m w₁,
        reachProxy env providers t w = .ok (some m) w₁ → Unbroken env t terminal m w₁)) w := by
  rw [run_eq, wp_handle, wp_bind]
  cases hr : reachProxy env providers t w with
  | error s w₁ =>
    have hu := wp_of_error (reachProxy_spec halone w) hr
    rw [wp_eq_error hr]
    cases s with
    | waiting => exact .inl rfl
    | raised e =>
      refine handler_spec fun w' h => iff_of_true ?_ fun _ _ h => by cases h
      exact hnew.of_unmoved ((unmoved t).trans hu h)
  | ok r w₁ =>
    have hstarted := wp_of_ok (reachProxy_spec halone w) hr
    rw [wp_eq_ok hr]
    cases r with
    | none =>
      have hnever : ∀ m w₂, (.ok none w₁ : EStateM.Result Stop _ _) = .ok (some m) w₂ →
          Unbroken env t terminal m w₂ := fun _ _ h => by cases h
      apply wp_mono (unregistered_spec hnever (hnew.of_unmoved hstarted))
      · exact fun _ _ h => h
      · intro s w₂ h
        cases s with
        | waiting => exact .inl rfl
        | raised e => exact h
    | some m =>
      have honly : ∀ name, name ≠ m.serverName → t ∉ w₁.activeSession.sessions name :=
        fun name hname => mt (hstarted.2 name hname).mp (hnew name)
      have hthis : Unbroken env t terminal m w₁ → ∀ m' w₁',
          (.ok (some m) w₁ : EStateM.Result Stop _ _) = .ok (some m') w₁' →
          Unbroken env t terminal m' w₁' := fun hunbroken m' w₁' h => by cases h; exact hunbroken
      apply wp_mono (afterProxy_spec halone w₁ hstarted.1 honly)
      · rintro _ w' ⟨hunbroken, hout⟩
        exact iff_of_true hout (hthis hunbroken)
      · rintro s w₂ (⟨hunbroken, hout⟩ | ⟨hbroken, ⟨e, rfl⟩, hin⟩)
        · cases s with
          | waiting => exact .inl rfl
          | raised e =>
            exact handler_spec fun w' h => iff_of_true (hout.of_unmoved h) (hthis hunbroken)
        · refine handler_spec fun w' h => iff_of_false ?_ fun hall => hbroken (hall m w₁ rfl)
          exact fun hout => hout m.serverName ((h m.serverName).mpr hin)

end Run

/-- However the thread ends, its transport is out of the table exactly when it was never
registered, or nothing raised from then on until it was taken out. -/
theorem run_out_iff (env : Env Transport) (providers : Providers) (t : Transport)
    (terminal : Terminal) (w w' : World Transport) (halone : Alone env t) (hnew : Out t w)
    (hend : run env providers t terminal w = .ok () w' ∨
      ∃ e, run env providers t terminal w = .error (.raised e) w') :
    Out t w' ↔ ∀ m w₁, reachProxy env providers t w = .ok (some m) w₁ →
      Unbroken env t terminal m w₁ := by
  have hspec := run_spec halone providers terminal w hnew
  rcases hend with hr | ⟨e, hr⟩
  · exact (wp_eq_ok hr).mp hspec
  · rcases (wp_eq_error hr).mp hspec with h | h
    · cases h
    · exact h

/-- A user creates a container and works in it until the proxy process exits. -/
theorem run_out_container :
    let t : Transport := ⟨0, ("10.0.0.2", 50022)⟩
    let providers : Providers := .ofPairs [("f", ⟨"f", {}, .parse "/data/f", .footloose⟩)]
    let terminal : Terminal := { turns := [.fromProxy (.ok [36, 32]) none, .idle] }
    ∃ w', run Env.smooth providers t terminal { input := [13] } = .ok () w' ∧ Out t w' := by
  intro t providers terminal
  have hends : returnsWith (run Env.smooth providers t terminal { input := [13] })
      (fun _ _ => true) = true := by decide +kernel
  obtain ⟨_, w', hr, -⟩ := of_returnsWith hends
  have halone : Alone Env.smooth t := fun _ _ _ => Iff.rfl
  have hnew : Out t { input := [13] } := fun _ => List.not_mem_nil
  refine ⟨w', hr, (run_out_iff _ providers t terminal _ w' halone hnew (.inl hr)).mpr ?_⟩
  exact fun m w₁ _ => ⟨rfl, ⟨rfl, by simp [terminal, Turn.Smooth]⟩, rfl, rfl, fun _ _ => rfl⟩

/-- The user has closed the connection when the closing message is sent: the thread
returns, and its transport stays in the table. -/
theorem left_in_after_closing :
    let t : Transport := ⟨0, ("10.0.0.2", 50022)⟩
    let providers : Providers := .ofPairs [("f", ⟨"f", {}, .parse "/data/f", .footloose⟩)]
    let terminal : Terminal := { closing := some ⟨.osError, "Socket is closed"⟩ }
    ∃ w', run Env.smooth providers t terminal { input := [13] } = .ok () w' ∧
      w'.activeSession.sessions "2012-01-14-1200" = [t] := by
  intro t providers terminal
  have hends : returnsWith (run Env.smooth providers t terminal { input := [13] }) (fun _ w' =>
      decide (w'.activeSession.sessions "2012-01-14-1200" = [t])) = true := by decide +kernel
  obtain ⟨_, w', hr, hw'⟩ := of_returnsWith hends
  exact ⟨w', hr, by simpa using hw'⟩

end Lobbyboy.SocketHandle
