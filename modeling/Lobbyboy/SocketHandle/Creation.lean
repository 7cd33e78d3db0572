import Lobbyboy.Config.Recording
import Lobbyboy.Provider.Awaiting

/-! A user creates a server: chooses a provider, which requests the server and waits for
it, and then the server is recorded. The record is the last step; whatever raises between
the request and the record leaves a server that the database does not know. -/

namespace Lobbyboy.SocketHandle

open Foundation Utils Config Provider Prog

section Program

variable {T : Type} (env : Env T) (providers : Providers)

def chooseProviders : Prog T BaseProvider := do
  if providers.entries = [] then do
    sendToChannel env (utf8 "There is no available providers.")
    raise ⟨.noProviderException, "Do not have available providers to provision a new server!"⟩
  else do
    let ask := "Please choose a provider to create a new server"
    let (default, askPrompt) := match providers.keys with
      | [defaultProvider] => (some 0, s!"{ask} [default: {defaultProvider}]: ")
      | _ => (none, s!"{ask}: ")
    let userInput ← chooseOption env providers.keys (some "Available VPS providers:")
      (some askPrompt) default
    match providers.values[userInput]? with
    | some provider => return provider
    | none => raise ⟨.exception, "list index out of range"⟩

def askUserToCreateServer (os : FileAnswers := {}) : Prog T LBServerMeta := do
  let provider ← chooseProviders env providers
  let m ← provider.createServer env
  updateServers env [m] [] os
  return m

/-- The call, as far as the server is requested. -/
def requestNewServer : Prog T (BaseProvider × String) := do
  let provider ← chooseProviders env providers
  let serverName ← provider.requestServer env
  return (provider, serverName)

/-- The call from there on. -/
def finishNewServer (os : FileAnswers) (provider : BaseProvider) (serverName : String) :
    Prog T LBServerMeta := do
  let host ← provider.awaitServer env serverName
  let m := provider.newServer serverName host (← now env)
  updateServers env [m] [] os
  return m

end Program

/-! ### What is left when the call ends -/

section Specs

variable {T : Type} {env : Env T} {providers : Providers}

theorem chooseProviders_spec (w : World T) :
    wp (chooseProviders env providers) (fun p w' => Silent w w' ∧ p ∈ providers.values)
      (fun _ w' => Silent w w') w := by
  rw [chooseProviders, wp_ite]
  split_ifs
  · apply (silent_sendToChannel _ _).seq (silent.refl w) fun _ _ h => h
    intro _ w₁ h
    exact (wp_raise _).mpr h
  · apply (silent_chooseOption _ _ _ _).seq (silent.refl w) fun _ _ h => h
    intro i w₁ h
    split
    · next p hp => exact (wp_pure p).mpr ⟨h, List.mem_of_getElem? hp⟩
    · exact (wp_raise _).mpr h

/-- `d` is what was loaded for the update. The server that is returned was requested, and
its record added. -/
structure Recorded (p : BaseProvider) (m : LBServerMeta) (d : ServerMap) (w w' : World T) :
    Prop where
  created : ∃ w₁, Created p m w w₁ ∧ w'.dirs = w₁.dirs ∧ w'.log = w₁.log ∧
    w'.activeSession = w₁.activeSession
  loaded : ∃ now, loadLocalServers now w.db = .ok d
  records : Records w'.db (d.insert m.serverName m)

/-- At most one server was requested; besides that, directories may have been made. -/
structure Abandoned (w w' : World T) : Prop where
  requested : w'.log = w.log ∨
    ∃ provider serverName order, w'.log = w.log ++ [.requested provider serverName order]
  db : w'.db = w.db
  activeSession : w'.activeSession = w.activeSession
  dirs : ∃ made, w'.dirs = made ++ w.dirs

theorem Abandoned.of_requested {p : BaseProvider} {serverName : String} {w w' : World T}
    (h : Requested p serverName w w') : Abandoned w w' := by
  obtain ⟨order, hlog⟩ := h.log
  obtain ⟨made, hdirs⟩ := h.dirs
  exact ⟨.inr ⟨_, _, order, hlog⟩, h.db, h.activeSession, ⟨_ :: made, hdirs⟩⟩

theorem Abandoned.of_stopped {p : BaseProvider} {w w' : World T} (h : Stopped p w w') :
    Abandoned w w' := by
  rcases h with hmade | ⟨serverName, hreq⟩
  · exact ⟨.inl hmade.log, hmade.db, hmade.activeSession, hmade.dirs⟩
  · exact .of_requested hreq

theorem askUserToCreateServer_spec (w : World T) :
    wp (askUserToCreateServer env providers)
      (fun m w' => ∃ p ∈ providers.values, ∃ d, Recorded p m d w w')
      (fun _ w' => Abandoned w w') w := by
  rw [askUserToCreateServer, wp_bind]
  apply wp_mono (chooseProviders_spec w)
  · rintro p w₁ ⟨h₁, hp⟩
    rw [wp_bind]
    apply wp_mono (creates_createServer w₁)
    · intro m w₂ h₂
      have hreq := h₂.requested.after_silent h₁
      rw [wp_bind, wp_updateServers]
      constructor
      · intro r hr
        rw [hreq.db] at hr
        cases hload : loadLocalServers (env.time w₂.tick) w.db with
        | error e => rw [updateLocalServers_of_load_error hload] at hr; cases hr
        | ok d =>
          obtain ⟨file, hu, hrec⟩ := records_update hload [m] []
          cases hu.symm.trans hr
          rw [mergeServers_new] at hrec
          rw [wp_pure]
          exact ⟨p, hp, d, ⟨w₂, ⟨h₂.new, hreq⟩, rfl, rfl, rfl⟩, ⟨_, hload⟩, hrec⟩
      · intro e _
        exact .of_requested (hreq.of_silent ⟨rfl, rfl, rfl, rfl⟩)
    · exact fun _ w' h => .of_stopped (h.after_silent h₁)
  · exact fun _ w' h => ⟨.inl h.log, h.db, h.activeSession, [], h.dirs⟩

theorem askUserToCreateServer_eq (os : FileAnswers) :
    askUserToCreateServer env providers os =
      requestNewServer env providers >>= fun r => finishNewServer env os r.1 r.2 := by
  simp only [askUserToCreateServer, requestNewServer, finishNewServer, BaseProvider.createServer_eq,
    provision, bind_assoc, pure_bind]

/-- What was requested is in the log, and nothing else has changed there or in the database. -/
theorem requestNewServer_spec (w : World T) :
    wp (requestNewServer env providers)
      (fun r w' => w'.db = w.db ∧ ∃ order, w'.log = w.log ++ [.requested r.1.name r.2 order])
      (fun _ w' => w'.log = w.log) w := by
  rw [requestNewServer, wp_bind]
  refine wp_mono (chooseProviders_spec w) ?_ fun _ _ h => h.log
  rintro p w₁ ⟨hsilent, -⟩
  rw [wp_bind]
  refine wp_mono (requestsOne_requestServer w₁) ?_ fun _ _ h => h.log.trans hsilent.log
  intro serverName w₂ hrequested
  have hreq := hrequested.after_silent hsilent
  exact (wp_pure _).mpr ⟨hreq.db, hreq.log⟩

end Specs

/-! ### What becomes of the server that was requested -/

section Accounted

variable {T : Type} (env : Env T) (key : PyVal → Option String)

/-- Every server that was requested between `w` and `w'` and comes up is recorded, or
destroyed again. -/
def Accounted (comesUp : String → String → Prop) (w w' : World T) : Prop :=
  ∀ provider serverName order, .requested provider serverName order ∈ w'.log.drop w.log.length →
    comesUp provider serverName → RecordedAs key w'.db provider serverName ∨
      ∃ m, m.providerName = provider ∧ m.serverName = serverName ∧
        .destroyServer m (.ok true) ∈ w'.log.drop w.log.length

/-- None of the steps after the request fails, and the record arrives in the file. -/
def NoneFails (os : FileAnswers) (p : BaseProvider) (serverName : String) (w : World T) : Prop :=
  ∃ t, afterAll env p.kind.awaitSteps (waiting w "127.0.0.1") = some t ∧
    Arrives key os (env.time (t.tick + 1)) w.db (p.newServer serverName t.host (env.time t.tick))

/-- None of them fails up to the writing of the file, which is cut short. -/
def WriteFails (os : FileAnswers) (p : BaseProvider) (serverName : String) (w : World T) : Prop :=
  ∃ t, afterAll env p.kind.awaitSteps (waiting w "127.0.0.1") = some t ∧
    Breaks key os (env.time (t.tick + 1)) w.db (p.newServer serverName t.host (env.time t.tick))

variable {env key}

theorem finishNewServer_spec (hkey : ∀ s, key (.str s) = some s) (os : FileAnswers)
    (p : BaseProvider) (serverName : String) (w : World T) (htyped : DeclaredTypes w.db) :
    let recorded := NoneFails env key os p serverName w ∨
      RecordedAs key w.db p.name serverName ∧ ¬ WriteFails env key os p serverName w
    wp (finishNewServer env os p serverName)
      (fun _ w' => w'.log = w.log ∧ (RecordedAs key w'.db p.name serverName ↔ recorded))
      (fun _ w' => w'.log = w.log ∧ (RecordedAs key w'.db p.name serverName ↔ recorded)) w := by
  intro recorded
  rw [finishNewServer, wp_bind]
  refine wp_mono (wp_and (takesAll_awaitServer p serverName w) (silent_awaitServer serverName w))
    ?_ ?_
  · rintro host w₁ ⟨hafter, hsilent⟩
    set m := p.newServer serverName host (env.time w₁.tick)
    have harrives : NoneFails env key os p serverName w ↔
        Arrives key os (env.time (w₁.tick + 1)) w.db m := by
      constructor
      · rintro ⟨t, ht, h⟩
        cases hafter.symm.trans ht
        exact h
      · exact fun h => ⟨_, hafter, h⟩
    have hbreaks : WriteFails env key os p serverName w ↔
        Breaks key os (env.time (w₁.tick + 1)) w.db m := by
      constructor
      · rintro ⟨t, ht, h⟩
        cases hafter.symm.trans ht
        exact h
      · exact fun h => ⟨_, hafter, h⟩
    have hiff : RecordedAs key (updateObjects key os (env.time (w₁.tick + 1)) w.db [m.toObj] []).2
        p.name serverName ↔ recorded := by
      have h := recordedAs_updateObjects_iff hkey os (env.time (w₁.tick + 1)) htyped m
      rwa [← harrives, ← hbreaks] at h
    rw [wp_bind, wp_now, wp_bind]
    have hdb : w₁.next.db = w.db := hsilent.db
    refine wp_mono (updateServers_updateObjects hkey os [m] [] w₁.next (hdb ▸ htyped)) ?_ ?_
    · rintro _ w' ⟨rfl, -⟩
      rw [wp_pure, hdb]
      exact ⟨hsilent.log, hiff⟩
    · rintro _ w' ⟨rfl, -⟩
      rw [hdb]
      exact ⟨hsilent.log, hiff⟩
  · rintro stop w' ⟨hfails, hsilent⟩
    have hnone : ∀ t, afterAll env p.kind.awaitSteps (waiting w "127.0.0.1") ≠ some t := by
      intro t ht
      cases hfails.symm.trans ht
    have harrives : ¬ NoneFails env key os p serverName w := fun ⟨t, ht, _⟩ => hnone t ht
    have hbreaks : ¬ WriteFails env key os p serverName w := fun ⟨t, ht, _⟩ => hnone t ht
    rw [hsilent.db]
    exact ⟨hsilent.log, fun h => .inr ⟨h, hbreaks⟩, fun h => (h.resolve_left harrives).1⟩

/-- The server that a call requests, if it comes up, is accounted for when the call ends
exactly if none of the steps after the request fails, or it was recorded before and the
file is not lost. -/
theorem askUserToCreateServer_accounted_iff (hkey : ∀ s, key (.str s) = some s)
    (providers : Providers) (os : FileAnswers) (comesUp : String → String → Prop) (w : World T)
    (htyped : DeclaredTypes w.db) :
    let holds := ∀ p serverName w₁, requestNewServer env providers w = .ok (p, serverName) w₁ →
      comesUp p.name serverName → NoneFails env key os p serverName w₁ ∨
        RecordedAs key w.db p.name serverName ∧ ¬ WriteFails env key os p serverName w₁
    wp (askUserToCreateServer env providers os)
      (fun _ w' => Accounted key comesUp w w' ↔ holds)
      (fun _ w' => Accounted key comesUp w w' ↔ holds) w := by
  intro holds
  rw [askUserToCreateServer_eq, wp_bind]
  refine wp_mono (wp_and (requestNewServer_spec w) (wp_self _ w)) ?_ ?_
  · rintro ⟨p, serverName⟩ w₁ ⟨⟨hdb, order, hlog⟩, hrun⟩
    have haccounted : ∀ w' : World T, w'.log = w₁.log →
        (RecordedAs key w'.db p.name serverName ↔ NoneFails env key os p serverName w₁ ∨
          RecordedAs key w₁.db p.name serverName ∧ ¬ WriteFails env key os p serverName w₁) →
        (Accounted key comesUp w w' ↔ holds) := by
      intro w' hw' hrecorded
      have hnew : w'.log.drop w.log.length = [.requested p.name serverName order] := by
        rw [hw', hlog, List.drop_left]
      rw [hdb] at hrecorded
      constructor
      · intro hacc p' serverName' w₁' hrun' hup
        cases hrun.symm.trans hrun'
        refine hrecorded.mp ((hacc p.name serverName order (by simp [hnew]) hup).resolve_right ?_)
        rintro ⟨m, -, -, hm⟩
        simp [hnew] at hm
      · intro hholds provider serverName' order' hmem hup
        rw [hnew, List.mem_singleton] at hmem
        cases hmem
        exact .inl (hrecorded.mpr (hholds p serverName w₁ hrun hup))
    refine wp_mono (finishNewServer_spec hkey os p serverName w₁ (hdb ▸ htyped)) ?_ ?_
    · exact fun _ w' h => haccounted w' h.1 h.2
    · exact fun _ w' h => haccounted w' h.1 h.2
  · rintro stop w' ⟨hlog, hrun⟩
    refine iff_of_true ?_ ?_
    · intro provider serverName order hmem
      rw [hlog, List.drop_length] at hmem
      cases hmem
    · intro p serverName w₁ hrun'
      cases hrun.symm.trans hrun'

end Accounted

/-- The call returns, and what it returns and leaves passes the check. -/
def returnsWith {α : Type} (r : EStateM.Result Stop (World Transport) α)
    (check : α → World Transport → Bool) : Bool :=
  match r with
  | .ok a w' => check a w'
  | _ => false

theorem of_returnsWith {α : Type} {r : EStateM.Result Stop (World Transport) α}
    {check : α → World Transport → Bool} (h : returnsWith r check = true) :
    ∃ a w', r = .ok a w' ∧ check a w' = true := by
  cases r with
  | ok a w' => exact ⟨a, w', rfl, h⟩
  | error _ _ => cases h

/-- The call raises, and what it leaves passes the check. -/
def raisesWith {α : Type} (r : EStateM.Result Stop (World Transport) α)
    (check : World Transport → Bool) : Bool :=
  match r with
  | .error (.raised _) w' => check w'
  | _ => false

theorem of_raisesWith {α : Type} {r : EStateM.Result Stop (World Transport) α}
    {check : World Transport → Bool} (h : raisesWith r check = true) :
    ∃ e w', r = .error (.raised e) w' ∧ check w' = true := by
  cases r with
  | ok _ _ => cases h
  | error s w' =>
    cases s with
    | raised e => exact ⟨e, w', rfl, h⟩
    | waiting => cases h

/-- The only provider is a footloose, of which every step goes well: the container is
recorded. -/
theorem askUserToCreateServer_accounted_smooth :
    let key : PyVal → Option String := fun
      | .str s => some s
      | _ => none
    let containers : Providers := .ofPairs [("f", ⟨"f", {}, .parse "/data/f", .footloose⟩)]
    let w : World Transport := { input := [13] }
    ∃ m w', askUserToCreateServer .smooth containers {} w = .ok m w' ∧
      w'.log = [.requested "f" "2012-01-14-1200" ["footloose", "create"]] ∧
      Accounted key (fun _ _ => True) w w' := by
  intro key containers w
  have hkey : ∀ s, key (.str s) = some s := fun _ => rfl
  have hreturns : returnsWith (askUserToCreateServer .smooth containers {} w) (fun _ w' =>
      decide (w'.log = [.requested "f" "2012-01-14-1200" ["footloose", "create"]])) = true := by
    decide +kernel
  have hsteps : returnsWith (requestNewServer .smooth containers w) (fun r w₁ =>
      (afterAll (.smooth : Env Transport) r.1.kind.awaitSteps (waiting w₁ "127.0.0.1")).isSome &&
        decide (w₁.db = none)) = true := by decide +kernel
  obtain ⟨m, w', hr, hlog⟩ := of_returnsWith hreturns
  obtain ⟨r, w₁, hrequest, hgoes⟩ := of_returnsWith hsteps
  rw [Bool.and_eq_true, decide_eq_true_eq, Option.isSome_iff_exists] at hgoes
  obtain ⟨⟨t, ht⟩, hdb⟩ := hgoes
  have htyped : DeclaredTypes w.db := by
    constructor
    · intro content is h
      cases h
    · intro content h
      cases h
  have hiff := (wp_iff.mp (askUserToCreateServer_accounted_iff hkey containers {}
    (fun _ _ => True) w htyped)).1 m w' hr
  refine ⟨m, w', hr, of_decide_eq_true hlog, hiff.mpr fun p serverName w₂ hrun _ => .inl ?_⟩
  cases hrequest.symm.trans hrun
  refine ⟨t, ht, rfl, rfl, .empty, _, by rw [hdb]; rfl, objectsText_insert .empty _, ?_⟩
  intro n e h
  cases h

/-- A user who asks for a favorite droplet is gone once the droplet has been requested;
`footloose create` still runs after twenty checks; and the database is opened, but the disk
is full. The server is left behind. -/
theorem unaccounted_after_request :
    let key : PyVal → Option String := fun
      | .str s => some s
      | _ => none
    let gone : Env Transport :=
      { Env.smooth with
        raises := fun n => if 23 ≤ n then some ⟨.osError, "Socket is closed"⟩ else none }
    let slow : Env Transport := { Env.smooth with returncode := fun _ => none }
    let full : FileAnswers := { writing := some (0, ⟨.osError, "No space left on device"⟩) }
    let droplets : Providers :=
      .ofPairs [("do", ⟨"do", {}, .parse "/data/do", .digitalOcean ["nyc1:s-1vcpu-1gb:ubuntu"]⟩)]
    let containers : Providers := .ofPairs [("f", ⟨"f", {}, .parse "/data/f", .footloose⟩)]
    let w₁ : World Transport := { input := [13, 49, 13] }
    let w₂ : World Transport := { input := [13] }
    let unaccounted (create : Prog Transport LBServerMeta) (w : World Transport) : Prop :=
      ∃ e w', create w = .error (.raised e) w' ∧ ¬ Accounted key (fun _ _ => True) w w'
    unaccounted (askUserToCreateServer gone droplets) w₁ ∧
      unaccounted (askUserToCreateServer slow containers) w₂ ∧
      unaccounted (askUserToCreateServer .smooth containers full) w₂ := by
  intro key gone slow full droplets containers w₁ w₂ unaccounted
  have hleft : ∀ {create : Prog Transport LBServerMeta} {w : World Transport} (provider order),
      w.log = [] → raisesWith (create w) (fun w' =>
        decide (w'.log = [.requested provider "2012-01-14-1200" order]) &&
          (decide (w'.db = none) || decide (w'.db = some ""))) = true → unaccounted create w := by
    intro create w provider order hw hraises
    obtain ⟨e, w', hr, hw'⟩ := of_raisesWith hraises
    simp only [Bool.and_eq_true, Bool.or_eq_true, decide_eq_true_eq] at hw'
    refine ⟨e, w', hr, fun hacc => ?_⟩
    have hnew : w'.log.drop w.log.length = [.requested provider "2012-01-14-1200" order] := by
      rw [hw'.1, hw]
      rfl
    have hempty : Records w'.db .empty := by
      rcases hw'.2 with hdb | hdb
      · rw [hdb]
        exact records_absent
      · rw [hdb]
        exact records_blank
    rcases hacc provider "2012-01-14-1200" order (by simp [hnew]) trivial with hrec | ⟨m, -, -, hm⟩
    · exact not_recordedAs_of_records (fun _ => rfl) hempty _ _ hrec
    · simp [hnew] at hm
  refine ⟨?_, ?_, ?_⟩
  · exact hleft "do" ["nyc1", "s-1vcpu-1gb", "ubuntu"] rfl
      (by decide +kernel)
  · exact hleft "f" ["footloose", "create"] rfl (by decide +kernel)
  · exact hleft "f" ["footloose", "create"] rfl (by decide +kernel)

end Lobbyboy.SocketHandle
