import Lobbyboy.Provider.Base
import Lobbyboy.ServerKiller.NeedDestroy

/-! The killer: a round over the servers of the database, and the patrol that starts one
round after another. Neither has a handler, so the first server whose work fails ends
its round, and with it the patrol; what was done before stays done. -/

namespace Lobbyboy.ServerKiller

open Foundation Utils Config Provider Prog

section Program

variable {T : Type} (env : Env T) (watchedProviders : Providers)

/-- `need_destroy`, with the session table and the clock of the moment. -/
def needDestroyNow (config : LBConfigProvider) (m : LBServerMeta) : Prog T (Bool × String) := do
  let activeSession ← readSessions env
  let now₁ ← now env
  let now₂ ← now env
  fromExcept (needDestroy activeSession config m now₁ now₂)

/-- The answer of `destroy_server` is not looked at. -/
def destroy (provider : BaseProvider) (m : LBServerMeta) : Prog T Unit := do
  if m.manage = false then
    raise ⟨.exception,
      s!"destroy failed, provider {provider.name} server {m.serverName} not manage by me!"⟩
  else
    let _ ← destroyServer env m
    updateServers env [] [m]

/-- One turn of the loop over the servers. -/
def checkServer (m : LBServerMeta) : Prog T Unit := do
  match watchedProviders.get? m.providerName with
  | none => raise ⟨.exception, ""⟩
  | some provider =>
    let verdict ← needDestroyNow env provider.providerConfig m
    emit (.judged m verdict.1)
    if verdict.1 then destroy env provider m else pure ()

def checkServers : List LBServerMeta → Prog T Unit
  | [] => pure ()
  | m :: ms => do
    checkServer env watchedProviders m
    checkServers ms

def checkAllLiveServers : Prog T Unit := do
  let metas ← loadServers env
  checkServers env watchedProviders metas.values

/-- The first `n` rounds of the endless loop. -/
def patrol : ℕ → Prog T Unit
  | 0 => pure ()
  | n + 1 => do
    emit .round
    checkAllLiveServers env watchedProviders
    patrol n

end Program

/-! ### Reading the log -/

/-- The servers that were judged, and how. -/
def judgements (log : List Event) : List (LBServerMeta × Bool) :=
  log.filterMap fun
    | .judged m verdict => some (m, verdict)
    | _ => none

/-- The calls of `destroy_server` and their answers. -/
def destroyCalls (log : List Event) : List (LBServerMeta × Except PyExc Bool) :=
  log.filterMap fun
    | .destroyServer m answer => some (m, answer)
    | _ => none

def rounds (log : List Event) : ℕ := log.count .round

theorem judgements_append (l l' : List Event) :
    judgements (l ++ l') = judgements l ++ judgements l' :=
  List.filterMap_append

theorem destroyCalls_append (l l' : List Event) :
    destroyCalls (l ++ l') = destroyCalls l ++ destroyCalls l' := List.filterMap_append

theorem rounds_append (l l' : List Event) : rounds (l ++ l') = rounds l + rounds l' :=
  List.count_append

theorem rounds_round (l : List Event) : rounds (l ++ [.round]) = rounds l + 1 :=
  rounds_append l [.round]

/-! ### One server -/

section Server

variable {T : Type} {env : Env T} {watchedProviders : Providers} {w w' : World T} {m : LBServerMeta}

/-- The verdict is one of `need_destroy`, and so is the exception; besides that, only time
passes. -/
theorem wp_needDestroyNow {config : LBConfigProvider} {Q : Bool × String → World T → Prop}
    {E : Stop → World T → Prop}
    (hQ : ∀ r w' now₁ now₂, needDestroy w'.activeSession config m now₁ now₂ = .ok r →
      w'.log = w.log → w'.db = w.db → Q r w')
    (hE : ∀ e w' now₁ now₂, needDestroy w'.activeSession config m now₁ now₂ = .error e →
      w'.log = w.log → w'.db = w.db → E (.raised e) w') :
    wp (needDestroyNow env config m) Q E w := by
  simp only [needDestroyNow, wp_bind, wp_readSessions, wp_now, wp_fromExcept]
  exact ⟨fun r hr => hQ r _ _ _ hr rfl rfl, fun e he => hE e _ _ _ he rfl rfl⟩

/-- Deleting a record takes its name out and keeps the others in their order. -/
theorem recordedNames_delete {now : ℤ} {file : DbFile} {r : ServerMap × DbFile}
    (h : updateLocalServers now file [] [m] = .ok r) :
    recordedNames r.2 = (recordedNames file).filter (· ≠ m.serverName) := by
  cases hload : loadLocalServers now file with
  | error e => rw [updateLocalServers_of_load_error hload] at h; cases h
  | ok d =>
    obtain ⟨file', hu, hrec⟩ := records_update hload [] [m]
    rw [hu] at h
    cases h
    rw [recordedNames_of_load (hrec 0), recordedNames_of_load hload, mergeServers_eq]
    exact OrderedDict.keys_erase d m.serverName

theorem recordedNames_of_update_error {now : ℤ} {file : DbFile} {new deleted : List LBServerMeta}
    {e : PyExc} (h : updateLocalServers now file new deleted = .error e) :
    recordedNames file = [] := by
  cases hload : loadLocalServers 0 file with
  | error e => rw [recordedNames, hload]
  | ok d =>
    obtain ⟨d', hload', -⟩ := loadLocalServers_time hload now
    rw [updateLocalServers_eq hload'] at h
    cases h

/-- What the work on one server has done when it returns. -/
inductive Handled (m : LBServerMeta) (w w' : World T) : Prop
  | kept (log : w'.log = w.log ++ [.judged m false])
      (names : recordedNames w'.db = recordedNames w.db)
  | destroyed (answer : Bool)
      (log : w'.log = w.log ++ [.judged m true, .destroyServer m (.ok answer)])
      (names : recordedNames w'.db = (recordedNames w.db).filter (· ≠ m.serverName))

/-- With which exception it fails and what it has done by then: there is no provider of that
name, or `need_destroy` raises, or `destroy_server`, or the update after it. -/
inductive Failed (watchedProviders : Providers) (m : LBServerMeta) (w : World T) :
    Stop → World T → Prop
  | noProvider {w' : World T} (get : watchedProviders.get? m.providerName = none)
      (log : w'.log = w.log) (db : w'.db = w.db) :
      Failed watchedProviders m w (.raised ⟨.exception, ""⟩) w'
  | notJudged {e : PyExc} {w' : World T} (provider : BaseProvider) (now₁ now₂ : ℤ)
      (get : watchedProviders.get? m.providerName = some provider)
      (judging : needDestroy w'.activeSession provider.providerConfig m now₁ now₂ = .error e)
      (log : w'.log = w.log) (db : w'.db = w.db) : Failed watchedProviders m w (.raised e) w'
  | notDestroyed {e : PyExc} {w' : World T}
      (log : w'.log = w.log ++ [.judged m true, .destroyServer m (.error e)])
      (db : w'.db = w.db) : Failed watchedProviders m w (.raised e) w'
  | notForgotten {e : PyExc} {w' : World T} (answer : Bool) (now : ℤ)
      (log : w'.log = w.log ++ [.judged m true, .destroyServer m (.ok answer)])
      (db : w'.db = w.db) (update : updateLocalServers now w.db [] [m] = .error e) :
      Failed watchedProviders m w (.raised e) w'

theorem checkServer_spec (m : LBServerMeta) (w : World T) :
    wp (checkServer env watchedProviders m) (fun _ w' => Handled m w w')
      (Failed watchedProviders m w) w := by
  unfold checkServer
  cases hp : watchedProviders.get? m.providerName with
  | none => simpa using .noProvider hp rfl rfl
  | some provider =>
    rw [wp_bind]
    apply wp_needDestroyNow
    · intro verdict w₁ now₁ now₂ hv hlog hdb
      obtain ⟨verdict, reason⟩ := verdict
      cases verdict with
      | false => simpa using .kept (by rw [hlog]) (by rw [hdb])
      | true =>
        have hm := (needDestroy_true hv).2
        simp only [destroy, hm, if_true, Bool.true_eq_false, if_false, wp_bind, wp_emit,
          wp_destroyServer, wp_updateServers]
        constructor
        · intro answer _
          constructor
          · intro r hr
            exact .destroyed answer (by simp [hlog]) (hdb ▸ recordedNames_delete hr)
          · intro e he
            exact .notForgotten answer _ (by simp [hlog]) hdb (hdb ▸ he)
        · intro e _
          exact .notDestroyed (by simp [hlog]) hdb
    · exact fun e w₁ now₁ now₂ he hlog hdb => .notJudged provider now₁ now₂ hp he hlog hdb

end Server

/-! ### Rounds -/

section Round

variable {T : Type} {env : Env T} {watchedProviders : Providers}

/-- The servers one after another, each with its work done. -/
inductive AllHandled : List LBServerMeta → World T → World T → Prop
  | nil (w : World T) : AllHandled [] w w
  | cons {m ms} {w w₁ w' : World T} (head : Handled m w w₁) (tail : AllHandled ms w₁ w') :
    AllHandled (m :: ms) w w'

/-- The work is done up to some server, fails there, and the others are not looked at. -/
def FailedAt (watchedProviders : Providers) (ms : List LBServerMeta) (w : World T) (s : Stop)
    (w' : World T) : Prop :=
  ∃ before m after w₁, ms = before ++ m :: after ∧ AllHandled before w w₁ ∧
    Failed watchedProviders m w₁ s w'

theorem checkServers_spec (ms : List LBServerMeta) (w : World T) :
    wp (checkServers env watchedProviders ms) (fun _ w' => AllHandled ms w w')
      (FailedAt watchedProviders ms w) w := by
  induction ms generalizing w with
  | nil => simpa [checkServers] using .nil w
  | cons m ms ih =>
    rw [checkServers, wp_bind]
    apply wp_mono (checkServer_spec m w)
    · intro _ w₁ h₁
      apply wp_mono (ih w₁)
      · exact fun _ w' h => .cons h₁ h
      · rintro _ w' ⟨before, m', after, w₂, rfl, hall, hfail⟩
        exact ⟨m :: before, m', after, w₂, rfl, .cons h₁ hall, hfail⟩
    · exact fun _ w' h => ⟨[], m, ms, w, rfl, .nil w, h⟩

/-- Each server was judged, in order; `destroy_server` was called once and returned for
each one whose verdict was yes, and for no other; their records are gone and no others. -/
def Done (ms : List LBServerMeta) (w w' : World T) : Prop :=
  ∃ js ds, judgements w'.log = judgements w.log ++ js ∧ js.map Prod.fst = ms ∧
    destroyCalls w'.log = destroyCalls w.log ++ ds ∧
    ds.map Prod.fst = (js.filter Prod.snd).map Prod.fst ∧ (∀ c ∈ ds, ∃ answer, c.2 = .ok answer) ∧
    recordedNames w'.db =
      (recordedNames w.db).filter (· ∉ ds.map fun c => c.1.serverName) ∧
    rounds w'.log = rounds w.log

theorem AllHandled.done {ms : List LBServerMeta} {w w' : World T} (h : AllHandled ms w w') :
    Done ms w w' := by
  induction h with
  | nil w => exact ⟨[], [], by simp⟩
  | @cons m ms w w₁ w' head tail ih =>
    obtain ⟨js, ds, hjs, hms, hds, hyes, hok, hnames, hrounds⟩ := ih
    rcases head with ⟨hlog, hdb⟩ | ⟨answer, hlog, hdb⟩
    · refine ⟨(m, false) :: js, ds, ?_, ?_, ?_, ?_, hok, ?_, ?_⟩
      · rw [hjs, hlog, judgements_append, List.append_assoc]; rfl
      · rw [List.map_cons, hms]
      · rw [hds, hlog, destroyCalls_append, List.append_assoc]; rfl
      · rw [hyes]; rfl
      · rw [hnames, hdb]
      · rw [hrounds, hlog, rounds_append]; rfl
    · refine ⟨(m, true) :: js, (m, .ok answer) :: ds, ?_, ?_, ?_, ?_, ?_, ?_, ?_⟩
      · rw [hjs, hlog, judgements_append, List.append_assoc]; rfl
      · rw [List.map_cons, hms]
      · rw [hds, hlog, destroyCalls_append, List.append_assoc]; rfl
      · rw [List.map_cons, hyes]; rfl
      · rintro c hc
        rcases List.mem_cons.mp hc with rfl | hc
        · exact ⟨answer, rfl⟩
        · exact hok c hc
      · rw [hnames, hdb, List.filter_filter, List.map_cons]
        refine List.filter_congr fun name _ => ?_
        rw [Bool.and_comm, ← Bool.decide_and, decide_eq_decide, List.mem_cons, not_or]
      · rw [hrounds, hlog, rounds_append]; rfl

theorem Failed.rounds {m : LBServerMeta} {w w' : World T} {s : Stop}
    (h : Failed watchedProviders m w s w') : rounds w'.log = rounds w.log := by
  cases h with
  | noProvider _ log => rw [log]
  | notJudged _ _ _ _ _ log => rw [log]
  | notDestroyed log => rw [log, rounds_append]; rfl
  | notForgotten _ _ log => rw [log, rounds_append]; rfl

/-- How a round ends: with every server done, or at the first one whose work fails. -/
theorem checkAllLiveServers_spec (w : World T) :
    wp (checkAllLiveServers env watchedProviders)
      (fun _ w' => ∃ d, loadLocalServers (env.time w.tick) w.db = .ok d ∧ Done d.values w w')
      (fun s w' => (∃ e, loadLocalServers (env.time w.tick) w.db = .error e ∧ s = .raised e ∧
          w' = w.next) ∨
        ∃ d before m after w₁, loadLocalServers (env.time w.tick) w.db = .ok d ∧
          d.values = before ++ m :: after ∧ Done before w w₁ ∧
          Failed watchedProviders m w₁ s w') w := by
  rw [checkAllLiveServers, wp_bind, wp_loadServers]
  constructor
  · intro d hd
    apply wp_mono (checkServers_spec d.values w.next)
    · exact fun _ w' h => ⟨d, hd, h.done⟩
    · rintro s w' ⟨before, m, after, w₁, hms, hall, hfail⟩
      exact .inr ⟨d, before, m, after, w₁, hd, hms, hall.done, hfail⟩
  · exact fun e he => .inl ⟨e, he, rfl, rfl⟩

theorem rounds_checkAllLiveServers (w : World T) :
    wp (checkAllLiveServers env watchedProviders) (fun _ w' => rounds w'.log = rounds w.log)
      (fun _ w' => rounds w'.log = rounds w.log) w := by
  apply wp_mono (checkAllLiveServers_spec w)
  · rintro _ w' ⟨d, -, js, ds, -, -, -, -, -, -, h⟩
    exact h
  · rintro _ w' (⟨e, -, -, rfl⟩ |
      ⟨d, before, m, after, w₁, -, -, ⟨js, ds, -, -, -, -, -, -, h⟩, hfail⟩)
    · rfl
    · rw [hfail.rounds, h]

theorem patrol_succ (n : ℕ) (w : World T) :
    patrol env watchedProviders (n + 1) w =
      match checkAllLiveServers env watchedProviders { w with log := w.log ++ [.round] } with
      | .ok _ w₁ => patrol env watchedProviders n w₁
      | .error s w' => .error s w' := by
  rw [patrol, bind_apply]
  change (checkAllLiveServers env watchedProviders >>= fun _ => patrol env watchedProviders n) _ = _
  rw [bind_apply]
  split <;> rename_i h <;> rw [h]

/-- The patrol starts a round after each round that returned, and the first that raises is
its last. -/
theorem patrol_spec (n : ℕ) (w : World T) :
    wp (patrol env watchedProviders n) (fun _ w' => rounds w'.log = rounds w.log + n)
      (fun s w' => ∃ k w₁, k < n ∧ patrol env watchedProviders k w = .ok () w₁ ∧
        checkAllLiveServers env watchedProviders { w₁ with log := w₁.log ++ [.round] } =
          .error s w' ∧ rounds w'.log = rounds w.log + (k + 1)) w := by
  induction n generalizing w with
  | zero => simp [patrol]
  | succ n ih =>
    have hround := @rounds_checkAllLiveServers _ env watchedProviders
      { w with log := w.log ++ [.round] }
    rw [rounds_round] at hround
    cases h : checkAllLiveServers env watchedProviders { w with log := w.log ++ [.round] } with
    | error s w' =>
      have hcount := wp_of_error hround h
      have hstep : patrol env watchedProviders (n + 1) w = .error s w' := by
        rw [patrol_succ, h]
      rw [wp_eq_error hstep]
      exact ⟨0, w, by omega, rfl, h, hcount⟩
    | ok u w₁ =>
      have hcount := wp_of_ok hround h
      have hstep : patrol env watchedProviders (n + 1) w = patrol env watchedProviders n w₁ := by
        rw [patrol_succ, h]
      rw [wp_congr hstep]
      apply wp_mono (ih w₁)
      · intro _ w' hn
        omega
      · rintro s w' ⟨k, w₂, hk, hpatrol, hfail, hn⟩
        have hpatrol' : patrol env watchedProviders (k + 1) w = .ok () w₂ := by
          rw [patrol_succ, h]
          exact hpatrol
        exact ⟨k + 1, w₂, by omega, hpatrol', hfail, by omega⟩

/-- A round that meets a record without a provider first does nothing but raise. -/
theorem unknown_provider_first {w : World T} {d : ServerMap} {m : LBServerMeta}
    {ms : List LBServerMeta} (hd : loadLocalServers (env.time w.tick) w.db = .ok d)
    (hms : d.values = m :: ms) (hp : watchedProviders.get? m.providerName = none) :
    wp (checkAllLiveServers env watchedProviders) (fun _ _ => False)
      (fun _ w' => w'.log = w.log) w := by
  rw [checkAllLiveServers, wp_bind, wp_loadServers, hd]
  refine ⟨fun d' hd' => ?_, fun e he => by cases he⟩
  cases hd'
  rw [hms, checkServers, wp_bind, checkServer, hp]
  simp

end Round

end Lobbyboy.ServerKiller
