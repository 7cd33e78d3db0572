import Lobbyboy.SocketHandle.Cleanup

/-! How records leave the database through `ServerKiller.destroy`, over runs of killer
rounds and session cleanups. A record stays when `destroy_server` raises; it goes when
`destroy_server` returns, and `destroy` does not look at what it returned. -/

namespace Lobbyboy.ServerKiller

open Foundation Utils Config Provider SocketHandle Prog

variable {T : Type}

/-- Between `w` and `w'`, `destroy_server` was called as listed, for distinct names, and of
the records exactly those of the calls that returned are gone. -/
structure Calls (w w' : World T) (calls : List (LBServerMeta × Except PyExc Bool)) : Prop where
  log : destroyCalls w'.log = destroyCalls w.log ++ calls
  names : ∀ name ∈ recordedNames w.db, name ∈ recordedNames w'.db ↔
    ∀ m answer, (m, .ok answer) ∈ calls → m.serverName ≠ name
  distinct : (calls.map fun c => c.1.serverName).Nodup

theorem Calls.refl {w w' : World T} (hlog : w'.log = w.log)
    (hnames : ∀ name ∈ recordedNames w.db, name ∈ recordedNames w'.db) : Calls w w' [] :=
  ⟨by simp [hlog], fun name h => by simp [hnames name h], by simp⟩

theorem Calls.of_eq {w₀ w w' : World T} {calls : List (LBServerMeta × Except PyExc Bool)}
    (h : Calls w w' calls) (hlog : w.log = w₀.log) (hdb : w.db = w₀.db) : Calls w₀ w' calls :=
  ⟨by rw [← hlog, h.log], by rw [← hdb]; exact h.names, h.distinct⟩

theorem Calls.to_eq {w w' w₁ : World T} {calls : List (LBServerMeta × Except PyExc Bool)}
    (h : Calls w w' calls) (hlog : w₁.log = w'.log) (hdb : w₁.db = w'.db) : Calls w w₁ calls :=
  ⟨by rw [hlog, h.log], by rw [hdb]; exact h.names, h.distinct⟩

/-! ### Rounds -/

theorem names_values {d : ServerMap} (h : Keyed d) :
    d.values.map (·.serverName) = d.keys := by
  rw [OrderedDict.keys, ← h.pairs_values, List.map_map]
  rfl

theorem Done.calls {ms : List LBServerMeta} {w w' : World T} (h : Done ms w w')
    (hms : (ms.map (·.serverName)).Nodup) :
    ∃ ds, Calls w w' ds ∧ (ds.map fun c => c.1.serverName).Sublist (ms.map (·.serverName)) := by
  obtain ⟨js, ds, -, rfl, hds, hyes, hok, hnames, -⟩ := h
  have hsub : (ds.map fun c => c.1.serverName).Sublist ((js.map Prod.fst).map (·.serverName)) := by
    rw [show (ds.map fun c => c.1.serverName) = (ds.map Prod.fst).map (·.serverName) by simp, hyes]
    exact (List.filter_sublist.map _).map _
  refine ⟨ds, ⟨hds, fun name hname => ?_, hms.sublist hsub⟩, hsub⟩
  rw [hnames, List.mem_filter, decide_eq_true_eq, List.mem_map]
  constructor
  · rintro ⟨-, hnot⟩ m answer hm rfl
    exact hnot ⟨_, hm, rfl⟩
  · rintro h
    refine ⟨hname, ?_⟩
    rintro ⟨c, hc, rfl⟩
    obtain ⟨answer, hanswer⟩ := hok c hc
    exact h c.1 answer (by rwa [← hanswer]) rfl

/-- The server at which a round fails adds at most one call. -/
theorem Calls.failed {watchedProviders : Providers} {m : LBServerMeta} {w w₁ w' : World T}
    {ds : List (LBServerMeta × Except PyExc Bool)} (h : Calls w w₁ ds)
    {s : Stop} (hm : m.serverName ∉ ds.map fun c => c.1.serverName)
    (hf : Failed watchedProviders m w₁ s w') : ∃ calls, Calls w w' calls := by
  have hdistinct : ∀ answer : Except PyExc Bool,
      ((ds ++ [(m, answer)]).map fun c => c.1.serverName).Nodup := by
    intro answer
    rw [List.map_append]
    exact h.distinct.append (List.nodup_singleton _) (by simpa using hm)
  cases hf with
  | noProvider _ hlog hdb => exact ⟨ds, h.to_eq hlog hdb⟩
  | notJudged _ _ _ _ _ hlog hdb => exact ⟨ds, h.to_eq hlog hdb⟩
  | @notDestroyed e _ hlog hdb =>
    refine ⟨ds ++ [(m, .error e)], ?_, fun name hn => ?_, hdistinct _⟩
    · rw [hlog, destroyCalls_append, h.log, List.append_assoc]; rfl
    · rw [hdb, h.names name hn]
      simp
  | notForgotten answer _ hlog hdb update =>
    have hnone := recordedNames_of_update_error update
    refine ⟨ds ++ [(m, .ok answer)], ?_, fun name hn => ?_, hdistinct _⟩
    · rw [hlog, destroyCalls_append, h.log, List.append_assoc]; rfl
    · have hgone := h.names name hn
      rw [hnone] at hgone
      rw [hdb, hnone]
      simp only [List.not_mem_nil, false_iff] at hgone ⊢
      exact fun hall => hgone fun m' a ha => hall m' a (List.mem_append_left _ ha)

theorem checkAllLiveServers_calls (env : Env T) (watchedProviders : Providers) (w : World T) :
    wp (checkAllLiveServers env watchedProviders) (fun _ w' => ∃ calls, Calls w w' calls)
      (fun _ w' => ∃ calls, Calls w w' calls) w := by
  apply wp_mono (checkAllLiveServers_spec w)
  · rintro _ w' ⟨d, hd, hdone⟩
    have hnodup : (d.values.map (·.serverName)).Nodup := by
      rw [names_values (keyed_of_load hd)]
      exact d.nodup
    obtain ⟨ds, hcalls, -⟩ := hdone.calls hnodup
    exact ⟨ds, hcalls⟩
  · rintro _ w' (⟨e, -, -, rfl⟩ | ⟨d, before, m, after, w₁, hd, hms, hdone, hfail⟩)
    · exact ⟨[], .refl rfl fun _ h => h⟩
    · have hnodup : ((before ++ m :: after).map (·.serverName)).Nodup := by
        rw [← hms, names_values (keyed_of_load hd)]
        exact d.nodup
      rw [List.map_append, List.map_cons, List.nodup_append'] at hnodup
      obtain ⟨ds, hcalls, hsub⟩ := hdone.calls hnodup.1
      exact hcalls.failed (fun hm => hnodup.2.2 (hsub.subset hm) (by simp)) hfail

/-! ### Session cleanups -/

theorem destroy_calls {env : Env T} {provider : BaseProvider} {m : LBServerMeta} (w : World T) :
    wp (destroy env provider m) (fun _ w' => ∃ calls, Calls w w' calls)
      (fun _ w' => ∃ calls, Calls w w' calls) w := by
  rw [destroy, wp_ite]
  split_ifs
  · simp only [wp_raise]
    exact ⟨[], .refl rfl fun _ h => h⟩
  · simp only [wp_bind, wp_destroyServer, wp_updateServers]
    refine ⟨fun answer _ => ⟨fun r hr => ?_, fun e he => ?_⟩, fun e _ => ?_⟩
    · refine ⟨[(m, .ok answer)], by simp [destroyCalls], fun name hn => ?_, by simp⟩
      simp only [recordedNames_delete hr, World.next_db, List.mem_filter, decide_eq_true_eq]
      simp [hn, eq_comm]
    · have hnone := recordedNames_of_update_error he
      refine ⟨[(m, .ok answer)], by simp [destroyCalls], fun name hn => ?_, by simp⟩
      rw [World.next_db] at hnone
      rw [hnone] at hn
      cases hn
    · exact ⟨[(m, .error e)], by simp [destroyCalls], fun name hn => by simp [hn], by simp⟩

theorem destroyServerIfNeeded_calls (env : Env Transport) (providers : Providers)
    (server : LBServerMeta) (w : World Transport) :
    wp (destroyServerIfNeeded env providers server) (fun _ w' => ∃ calls, Calls w w' calls)
      (fun _ w' => ∃ calls, Calls w w' calls) w := by
  unfold destroyServerIfNeeded
  cases providers.get? server.providerName with
  | none =>
    simp only [wp_raise]
    exact ⟨[], .refl rfl fun _ h => h⟩
  | some provider =>
    rw [wp_bind]
    apply wp_needDestroyNow
    · intro verdict w₁ now₁ now₂ _ hlog hdb
      have hquiet : ∀ w₂ : World Transport, w₂.log = w₁.log → w₂.db = w₁.db →
          ∃ calls, Calls w w₂ calls :=
        fun w₂ hlog' hdb' => ⟨[], .refl (hlog'.trans hlog) fun _ h => by rwa [hdb', hdb]⟩
      simp only [wp_bind, wp_ite, wp_pure, wp_sendToChannel]
      constructor
      · intro _
        split_ifs
        · constructor
          · intro _
            apply wp_mono (destroy_calls _)
            · rintro _ w' ⟨calls, h⟩
              have h' : Calls w w' calls := h.of_eq hlog hdb
              exact ⟨fun _ => ⟨calls, h'.to_eq rfl rfl⟩, fun e _ => ⟨calls, h'.to_eq rfl rfl⟩⟩
            · rintro _ w' ⟨calls, h⟩
              exact ⟨calls, h.of_eq hlog hdb⟩
          · exact fun e _ => hquiet _ rfl rfl
        · exact hquiet _ rfl rfl
      · exact fun e _ => hquiet _ rfl rfl
    · exact fun _ w₁ _ _ _ hlog hdb => ⟨[], .refl hlog fun _ h => hdb ▸ h⟩

/-! ### Runs -/

/-- What threads do to the database: a round of the killer, the end of a session on a
server, and the recording of a new server. -/
inductive KillerOp
  | round
  | cleanup (server : LBServerMeta)
  | record (server : LBServerMeta)
  deriving DecidableEq

variable (env : Env Transport) (providers : Providers)

def KillerOp.prog : KillerOp → Prog Transport Unit
  | .round => checkAllLiveServers env providers
  | .cleanup server => destroyServerIfNeeded env providers server
  | .record server => updateServers env [server] []

/-- The world after the operation, whether it returned or raised. -/
def KillerOp.run (op : KillerOp) (w : World Transport) : World Transport :=
  match op.prog env providers w with
  | .ok _ w' => w'
  | .error _ w' => w'

theorem KillerOp.of_wp {op : KillerOp} {w : World Transport} {Q : World Transport → Prop}
    (h : wp (op.prog env providers) (fun _ w' => Q w') (fun _ w' => Q w') w) :
    Q (op.run env providers w) := by
  obtain ⟨hok, herror⟩ := wp_iff.mp h
  unfold KillerOp.run
  split
  · next h' => exact hok _ _ h'
  · next h' => exact herror _ _ h'

def runOps (w : World Transport) (ops : List KillerOp) : World Transport :=
  ops.foldl (fun w op => op.run env providers w) w

/-- The calls of `destroy_server` between two worlds. -/
def newCalls (w w' : World T) : List (LBServerMeta × Except PyExc Bool) :=
  (destroyCalls w'.log).drop (destroyCalls w.log).length

/-- A record leaves only after a call that reported success, and stays after a call that
reported failure or raised. -/
def OnlyOnSuccess (w w' : World T) : Prop :=
  (∀ name ∈ recordedNames w.db, name ∉ recordedNames w'.db →
    ∃ m, m.serverName = name ∧ (m, .ok true) ∈ newCalls w w') ∧
  ∀ m answer, (m, answer) ∈ newCalls w w' → answer ≠ .ok true →
    m.serverName ∈ recordedNames w.db → m.serverName ∈ recordedNames w'.db

theorem Calls.newCalls {w w' : World T} {calls : List (LBServerMeta × Except PyExc Bool)}
    (h : Calls w w' calls) : newCalls w w' = calls := by
  rw [ServerKiller.newCalls, h.log, List.drop_left]

theorem Calls.onlyOnSuccess_iff {w w' : World T}
    {calls : List (LBServerMeta × Except PyExc Bool)} (h : Calls w w' calls) :
    OnlyOnSuccess w w' ↔
      ∀ m, (m, .ok false) ∈ calls → m.serverName ∉ recordedNames w.db := by
  rw [OnlyOnSuccess, h.newCalls]
  constructor
  · rintro ⟨-, hstay⟩ m hm hrec
    have hstill := hstay m _ hm (by decide) hrec
    exact (h.names _ hrec).mp hstill m false hm rfl
  · intro hfalse
    refine ⟨fun name hrec hgone => ?_, fun m answer hm hne hrec => ?_⟩
    · rw [h.names name hrec] at hgone
      push Not at hgone
      obtain ⟨m, answer, hm, rfl⟩ := hgone
      cases answer with
      | true => exact ⟨m, rfl, hm⟩
      | false => exact absurd hrec (hfalse m hm)
    · rw [h.names _ hrec]
      intro m' answer' hm' hname
      have hsame := List.inj_on_of_nodup_map h.distinct hm' hm hname
      cases hsame
      cases answer' with
      | true => exact hne rfl
      | false => exact hfalse m hm hrec

theorem KillerOp.calls (op : KillerOp) (w : World Transport) :
    ∃ calls, Calls w (op.run env providers w) calls := by
  refine KillerOp.of_wp env providers (Q := fun w' => ∃ calls, Calls w w' calls) ?_
  cases op with
  | round => exact checkAllLiveServers_calls env providers w
  | cleanup server => exact destroyServerIfNeeded_calls env providers server w
  | record server =>
    simp only [KillerOp.prog, wp_updateServers]
    refine ⟨fun r hr => ⟨[], .refl rfl ?_⟩, fun e _ => ⟨[], .refl rfl fun _ h => h⟩⟩
    exact fun name hn => (mem_recordedNames_update hr).mpr ⟨.inl hn, by simp⟩

/-- Over any run, a record leaves only on success exactly when no call of
`destroy_server` for a recorded server returns `False`. -/
theorem onlyOnSuccess_run_iff (w : World Transport) (ops : List KillerOp) :
    (∀ before op after, ops = before ++ op :: after →
      OnlyOnSuccess (runOps env providers w before)
        (op.run env providers (runOps env providers w before))) ↔
    ∀ before op after, ops = before ++ op :: after → ∀ m,
      (m, .ok false) ∈ newCalls (runOps env providers w before)
        (op.run env providers (runOps env providers w before)) →
      m.serverName ∉ recordedNames (runOps env providers w before).db := by
  refine forall_congr' fun before => forall_congr' fun op => forall_congr' fun after =>
    forall_congr' fun _ => ?_
  obtain ⟨calls, h⟩ := op.calls env providers (runOps env providers w before)
  rw [h.onlyOnSuccess_iff, h.newCalls]

/-- An idle server without a minimum life is destroyed when the killer comes by, and
forgotten whatever `destroy_server` answers. -/
theorem checkServer_of_idle {env : Env T} {providers : Providers} {provider : BaseProvider}
    {m : LBServerMeta} {w : World T} {d : ServerMap} {answer : Bool}
    (hp : providers.get? m.providerName = some provider)
    (hs : (env.others w.tick w.activeSession).sessions m.serverName = []) (hm : m.manage = true)
    (hL : toSeconds provider.providerConfig.minLifeToLive = .ok 0)
    (hd : env.destroyServer (w.tick + 3) = .ok answer)
    (hload : loadLocalServers (env.time (w.tick + 4)) w.db = .ok d) :
    wp (checkServer env providers m)
      (fun _ w' => w'.log = w.log ++ [.judged m true, .destroyServer m (.ok answer)] ∧
        recordedNames w'.db = (recordedNames w.db).filter (· ≠ m.serverName))
      (fun _ _ => False) w := by
  have hup := updateLocalServers_eq hload [] [m]
  have hnames := recordedNames_delete hup
  rw [checkServer, hp]
  simp only [needDestroyNow, wp_bind, wp_readSessions, wp_now, wp_fromExcept, World.next_tick,
    World.next_activeSession, needDestroy_of_no_min_life hs hm hL, Except.ok.injEq, forall_eq',
    reduceCtorEq, IsEmpty.forall_iff, implies_true, and_true, wp_emit, if_true, destroy, hm,
    Bool.true_eq_false, if_false, wp_destroyServer, hd, wp_updateServers, World.next_db, hup]
  exact ⟨by simp, hnames⟩

/-- `ignite rm` fails for the only server, which is idle: the round forgets it. -/
theorem forgotten_after_failed_destroy :
    let config : LBConfigProvider := { minLifeToLive := some "0s" }
    let providers : Providers :=
      .ofPairs [("ignite", ⟨"ignite", config, .parse "/data/ignite", .ignite {}⟩)]
    let env : Env Transport :=
      { Env.smooth with destroyServer := fun _ => .ok (IgniteProvider.destroyServer 1) }
    let a : LBServerMeta := { providerName := "ignite", workspace := .parse "/data/ignite/a",
                              serverName := "a", createdTimestamp := 0 }
    let w : World Transport := { db := some (storedServers (.ofPairs [("a", a)])).dumps }
    recordedNames w.db = ["a"] ∧ recordedNames (KillerOp.round.run env providers w).db = [] ∧
      destroyCalls (KillerOp.round.run env providers w).log = [(a, .ok false)] ∧
      ¬ OnlyOnSuccess w (KillerOp.round.run env providers w) := by
  intro config providers env a w
  have hload := loadLocalServers_dumps 0 (keyed_empty.insert a)
  have hrec : recordedNames w.db = ["a"] := recordedNames_of_load hload
  have hround : wp (checkAllLiveServers env providers)
      (fun _ w' => destroyCalls w'.log = [(a, .ok false)] ∧ recordedNames w'.db = [])
      (fun _ _ => False) w := by
    rw [checkAllLiveServers, wp_bind, wp_loadServers]
    refine ⟨fun d hd => ?_, fun e he => by cases hload.symm.trans he⟩
    cases hload.symm.trans hd
    rw [show (OrderedDict.insert .empty a.serverName a).values = [a] from rfl, checkServers,
      wp_bind]
    have hanswer : env.destroyServer (w.tick + 1 + 3) = .ok false := rfl
    refine wp_mono (checkServer_of_idle rfl rfl rfl rfl hanswer hload) ?_ fun _ _ h => h
    rintro _ w' ⟨hlog, hnames⟩
    rw [World.next_db, hrec] at hnames
    simp only [checkServers, wp_pure]
    exact ⟨by rw [hlog]; rfl, hnames⟩
  have hboth : wp (KillerOp.round.prog env providers)
      (fun _ w' => destroyCalls w'.log = [(a, .ok false)] ∧ recordedNames w'.db = [])
      (fun _ w' => destroyCalls w'.log = [(a, .ok false)] ∧ recordedNames w'.db = []) w :=
    wp_mono hround (fun _ _ h => h) fun _ _ h => h.elim
  have hrun := KillerOp.of_wp env providers hboth
  refine ⟨hrec, hrun.2, hrun.1, ?_⟩
  rintro ⟨hleave, -⟩
  obtain ⟨m, -, hm⟩ := hleave "a" (by rw [hrec]; simp) (by rw [hrun.2]; simp)
  rw [newCalls, hrun.1] at hm
  revert hm
  simp [w, destroyCalls]

end Lobbyboy.ServerKiller
