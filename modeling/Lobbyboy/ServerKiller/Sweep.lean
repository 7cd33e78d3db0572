import Lobbyboy.ServerKiller.Records

/-! A round that nothing disturbs: every provider is known, every `destroy_server` answers
that it worked, and no other thread acts. Each destroyed server is deleted from the file
by an update of its own while the loop goes on over what was loaded at the start; file
and loop stay in step because the names are distinct. -/

namespace Lobbyboy.ServerKiller

open Foundation Utils Config Provider Prog

section Sweep

variable {T : Type} (env : Env T) (watchedProviders : Providers)

/-- No thread touches the session table. -/
def Alone (env : Env T) : Prop := ∀ n table, env.others n table = table

/-- Every call of `destroy_server` answers `True`. -/
def AlwaysDestroys (env : Env T) : Prop := ∀ n, env.destroyServer n = .ok true

/-- `need_destroy` answers `r` for the server at two consecutive readings of the clock,
taken since call `first` and before call `last`. -/
def JudgedDuring (table : ActiveSession T) (first last : ℕ) (m : LBServerMeta)
    (r : Except PyExc Bool) : Prop :=
  ∃ provider n, watchedProviders.get? m.providerName = some provider ∧ first ≤ n ∧ n + 1 < last ∧
    r = Prod.fst <$> needDestroy table provider.providerConfig m (env.time n) (env.time (n + 1))

/-- The servers of `ms` were judged one after another, in their order; those with the
verdict yes were destroyed, each once, and their records deleted from `d`. -/
structure Sweep (ms : List LBServerMeta) (d : ServerMap) (w w' : World T)
    (js : List (LBServerMeta × Bool)) : Prop where
  servers : js.map Prod.fst = ms
  verdicts : ∀ j ∈ js,
    JudgedDuring env watchedProviders w.activeSession w.tick w'.tick j.1 (.ok j.2)
  judged : judgements w'.log = judgements w.log ++ js
  calls : destroyCalls w'.log =
    destroyCalls w.log ++ (js.filter Prod.snd).map fun j => (j.1, .ok true)
  left : Records w'.db (d.eraseAll ((js.filter Prod.snd).map fun j => j.1.serverName))
  table : w'.activeSession = w.activeSession
  later : w.tick ≤ w'.tick

/-- The round ended because `need_destroy` raised for one of its servers. -/
def NotJudged (ms : List LBServerMeta) (w : World T) (s : Stop) (w' : World T) : Prop :=
  ∃ m ∈ ms, ∃ e, s = .raised e ∧
    JudgedDuring env watchedProviders w.activeSession w.tick w'.tick m (.error e)

variable {env watchedProviders} {ms : List LBServerMeta} {m : LBServerMeta} {d : ServerMap}
  {w w₁ w' : World T} {js : List (LBServerMeta × Bool)}

theorem JudgedDuring.mono {table : ActiveSession T} {first first' last last' : ℕ}
    {r : Except PyExc Bool} (h : JudgedDuring env watchedProviders table first last m r)
    (hfirst : first' ≤ first) (hlast : last ≤ last') :
    JudgedDuring env watchedProviders table first' last' m r := by
  obtain ⟨provider, n, hp, hn, hn', hr⟩ := h
  exact ⟨provider, n, hp, by omega, by omega, hr⟩

theorem JudgedDuring.managed {table : ActiveSession T} {first last : ℕ}
    (h : JudgedDuring env watchedProviders table first last m (.ok true)) : m.manage = true := by
  obtain ⟨provider, n, -, -, -, hr⟩ := h
  cases hv : needDestroy table provider.providerConfig m (env.time n) (env.time (n + 1)) with
  | error e =>
    rw [hv] at hr
    cases hr
  | ok r =>
    obtain ⟨verdict, reason⟩ := r
    rw [hv] at hr
    cases hr
    exact (needDestroy_true hv).2

theorem Sweep.nil (h : Records w.db d) : Sweep env watchedProviders [] d w w [] where
  servers := rfl
  verdicts := by simp
  judged := by simp
  calls := by simp
  left := h
  table := rfl
  later := le_rfl

/-- What the work on one server does. -/
theorem checkServer_sweep (hothers : Alone env) (hdestroys : AlwaysDestroys env)
    (hdb : Records w.db d) {provider : BaseProvider}
    (hp : watchedProviders.get? m.providerName = some provider) :
    wp (checkServer env watchedProviders m)
      (fun _ w' => ∃ verdict, Sweep env watchedProviders [m] d w w' [(m, verdict)])
      (NotJudged env watchedProviders [m] w) w := by
  have htable : env.others w.tick w.activeSession = w.activeSession := hothers _ _
  simp only [checkServer, hp, needDestroyNow, wp_bind, wp_readSessions, wp_now, wp_fromExcept,
    htable, World.next_tick]
  constructor
  · rintro ⟨verdict, reason⟩ hv
    have hjudged : ∀ {last : ℕ}, w.tick + 3 ≤ last →
        JudgedDuring env watchedProviders w.activeSession w.tick last m (.ok verdict) := by
      intro last hlast
      exact ⟨provider, w.tick + 1, hp, by omega, by omega, by rw [hv]; rfl⟩
    cases verdict with
    | false =>
      rw [if_neg (by simp), wp_emit, wp_pure]
      exact ⟨false, rfl, by simpa using hjudged le_rfl, by simp [judgements],
        by simp [destroyCalls], hdb, rfl, by simp; omega⟩
    | true =>
      have hm : m.manage = true := (needDestroy_true hv).2
      simp only [destroy, hm, if_true, Bool.true_eq_false, if_false, wp_bind, wp_emit,
        wp_destroyServer, wp_updateServers]
      constructor
      · intro answer hanswer
        cases (hdestroys _).symm.trans hanswer
        constructor
        · intro r hr
          obtain ⟨file', hu, hrec⟩ := records_update (hdb _) [] [m]
          rw [mergeServers_deleted] at hrec
          cases hu.symm.trans hr
          exact ⟨true, rfl, by simpa using hjudged (by simp), by simp [judgements],
            by simp [destroyCalls], hrec, rfl, by simp; omega⟩
        · intro e he
          obtain ⟨file', hu, -⟩ := records_update (hdb _) [] [m]
          cases hu.symm.trans he
      · intro e he
        cases (hdestroys _).symm.trans he
  · intro e he
    exact ⟨m, List.mem_singleton_self m, e, rfl, provider, w.tick + 1, hp, by omega, by simp,
      by rw [he]; rfl⟩

/-- First one server, then the others. -/
theorem Sweep.cons {verdict : Bool} {js : List (LBServerMeta × Bool)}
    (head : Sweep env watchedProviders [m] d w w₁ [(m, verdict)])
    (tail : Sweep env watchedProviders ms
      (d.eraseAll (([(m, verdict)].filter Prod.snd).map fun j => j.1.serverName)) w₁ w' js) :
    Sweep env watchedProviders (m :: ms) d w w' ((m, verdict) :: js) where
  servers := by rw [List.map_cons, tail.servers]
  verdicts := by
    intro j hj
    rcases List.mem_cons.mp hj with rfl | hj
    · exact (head.verdicts _ (List.mem_singleton_self _)).mono le_rfl tail.later
    · have htail := tail.verdicts j hj
      rw [head.table] at htail
      exact htail.mono head.later le_rfl
  judged := by rw [tail.judged, head.judged, List.append_assoc]; rfl
  calls := by
    rw [tail.calls, head.calls, List.append_assoc, ← List.map_append, ← List.filter_append]
    rfl
  left := by
    have hleft := tail.left
    rw [OrderedDict.eraseAll_eraseAll, ← List.map_append, ← List.filter_append] at hleft
    exact hleft
  table := tail.table.trans head.table
  later := head.later.trans tail.later

theorem checkServers_sweep (hothers : Alone env) (hdestroys : AlwaysDestroys env)
    (hdb : Records w.db d)
    (hknown : ∀ m ∈ ms, ∃ provider, watchedProviders.get? m.providerName = some provider) :
    wp (checkServers env watchedProviders ms)
      (fun _ w' => ∃ js, Sweep env watchedProviders ms d w w' js)
      (NotJudged env watchedProviders ms w) w := by
  induction ms generalizing w d with
  | nil => simpa [checkServers] using ⟨[], .nil hdb⟩
  | cons m ms ih =>
    obtain ⟨provider, hp⟩ := hknown m List.mem_cons_self
    rw [checkServers, wp_bind]
    apply wp_mono (checkServer_sweep hothers hdestroys hdb hp)
    · rintro _ w₁ ⟨verdict, head⟩
      apply wp_mono (ih head.left fun m' hm' => hknown m' (List.mem_cons_of_mem m hm'))
      · rintro _ w' ⟨js, tail⟩
        exact ⟨_, head.cons tail⟩
      · rintro s w' ⟨m', hm', e, rfl, hraised⟩
        rw [head.table] at hraised
        exact ⟨m', List.mem_cons_of_mem m hm', e, rfl, hraised.mono head.later le_rfl⟩
    · rintro s w' ⟨m', hm', e, rfl, hraised⟩
      rw [List.mem_singleton.mp hm'] at hraised
      exact ⟨m, List.mem_cons_self, e, rfl, hraised⟩

theorem Sweep.names_nodup (h : Sweep env watchedProviders d.values d w w' js) (hd : Keyed d) :
    (js.map fun j => j.1.serverName).Nodup := by
  have hkeys : d.keys.Nodup := d.nodup
  rw [← names_values hd, ← h.servers, List.map_map] at hkeys
  exact hkeys

/-- Erasing the servers with the verdict yes leaves those with the verdict no. -/
theorem Sweep.values_left (h : Sweep env watchedProviders d.values d w w' js) (hd : Keyed d) :
    (d.eraseAll ((js.filter Prod.snd).map fun j => j.1.serverName)).values =
      (js.filter fun j => !j.2).map Prod.fst := by
  have hnames := h.names_nodup hd
  have hentries : d.entries = js.map fun j => (j.1.serverName, j.1) := by
    rw [← hd.pairs_values, ← h.servers, List.map_map]
    rfl
  have hyes : ∀ j ∈ js, (j.1.serverName ∉ (js.filter Prod.snd).map fun j => j.1.serverName) ↔
      j.2 = false := by
    intro j hj
    rw [← Bool.not_eq_true, not_iff_not, List.mem_map]
    constructor
    · rintro ⟨j', hj', hname⟩
      obtain ⟨hmem, hyes⟩ := List.mem_filter.mp hj'
      cases List.inj_on_of_nodup_map hnames hmem hj hname
      exact hyes
    · exact fun hyes => ⟨j, List.mem_filter.mpr ⟨hj, hyes⟩, rfl⟩
  rw [OrderedDict.values, OrderedDict.entries_eraseAll, hentries, List.filter_map, List.map_map]
  refine congrArg (List.map _) (List.filter_congr fun j hj => ?_)
  rw [Function.comp_apply, Bool.eq_iff_iff, decide_eq_true_eq, hyes j hj, Bool.not_eq_true']

/-- When nothing disturbs it, a round judges every server of the database once, destroys
exactly those with the verdict yes, all of them managed, and leaves the others recorded as
they were; only a `need_destroy` that raises ends it before. -/
theorem checkAllLiveServers_sweep (env : Env T) (watchedProviders : Providers) (w : World T)
    (d : ServerMap) (hdb : Records w.db d)
    (hknown : ∀ m ∈ d.values, ∃ provider, watchedProviders.get? m.providerName = some provider)
    (hdestroys : ∀ n, env.destroyServer n = .ok true)
    (hothers : ∀ n table, env.others n table = table) :
    wp (checkAllLiveServers env watchedProviders)
      (fun _ w' => ∃ js : List (LBServerMeta × Bool),
        js.map Prod.fst = d.values ∧ (js.map fun j => j.1.serverName).Nodup ∧
        (∀ j ∈ js, JudgedDuring env watchedProviders w.activeSession w.tick w'.tick j.1 (.ok j.2)) ∧
        judgements w'.log = judgements w.log ++ js ∧
        destroyCalls w'.log =
          destroyCalls w.log ++ (js.filter Prod.snd).map (fun j => (j.1, .ok true)) ∧
        (∀ j ∈ js, j.2 = true → j.1.manage = true) ∧
        ∃ d', Records w'.db d' ∧ d'.values = (js.filter fun j => !j.2).map Prod.fst)
      (NotJudged env watchedProviders d.values w) w := by
  rw [checkAllLiveServers, wp_bind, wp_loadServers]
  constructor
  · intro d' hd'
    cases (hdb _).symm.trans hd'
    apply wp_mono (checkServers_sweep (w := w.next) hothers hdestroys hdb hknown)
    · rintro _ w' ⟨js, h⟩
      have hverdicts : ∀ j ∈ js,
          JudgedDuring env watchedProviders w.activeSession w.tick w'.tick j.1 (.ok j.2) :=
        fun j hj => (h.verdicts j hj).mono (by simp) le_rfl
      refine ⟨js, h.servers, h.names_nodup hdb.keyed, hverdicts, h.judged, h.calls, ?_, _, h.left,
        h.values_left hdb.keyed⟩
      intro j hj hyes
      have hv := hverdicts j hj
      rw [hyes] at hv
      exact hv.managed
    · rintro s w' ⟨m, hm, e, rfl, hraised⟩
      exact ⟨m, hm, e, rfl, hraised.mono (by simp) le_rfl⟩
  · intro e he
    cases (hdb _).symm.trans he

/-- A due server is destroyed and forgotten; the one that is not managed stays. -/
theorem checkAllLiveServers_sweep_two :
    let config : LBConfigProvider := { minLifeToLive := some "0s" }
    let watchedProviders : Providers :=
      .ofPairs [("ignite", ⟨"ignite", config, .parse "/data/ignite", .ignite {}⟩)]
    let a : LBServerMeta := { providerName := "ignite", workspace := .parse "/data/ignite/a",
                              serverName := "a", createdTimestamp := 0 }
    let b : LBServerMeta := { a with serverName := "b", manage := false }
    let w : World Unit := { db := some (storedServers (.ofPairs [("a", a), ("b", b)])).dumps }
    wp (checkAllLiveServers .smooth watchedProviders)
      (fun _ w' => destroyCalls w'.log = [(a, .ok true)] ∧
        ∃ d', Records w'.db d' ∧ d'.values = [b]) (fun _ _ => False) w := by
  intro config watchedProviders a b w
  have hkeyed : Keyed (.ofPairs [("a", a), ("b", b)]) := (keyed_empty.insert a).insert b
  have hvalues : (OrderedDict.ofPairs [("a", a), ("b", b)]).values = [a, b] := by decide +kernel
  have hp : watchedProviders.get? "ignite" =
      some ⟨"ignite", config, .parse "/data/ignite", .ignite {}⟩ := by decide +kernel
  have hverdict : ∀ {m : LBServerMeta} {first last : ℕ} {r : Except PyExc Bool},
      m = a ∨ m = b → JudgedDuring .smooth watchedProviders w.activeSession first last m r →
        r = .ok m.manage := by
    rintro m first last r hm ⟨provider, n, hget, -, -, rfl⟩
    have hname : m.providerName = "ignite" := by rcases hm with rfl | rfl <;> rfl
    rw [hname, hp] at hget
    cases hget
    rcases hm with rfl | rfl <;> rfl
  refine wp_mono (checkAllLiveServers_sweep .smooth watchedProviders w _ (records_dumps hkeyed) ?_
    (fun _ => rfl) (fun _ _ => rfl)) ?_ ?_
  · intro m hm
    rw [hvalues] at hm
    simp only [List.mem_cons, List.not_mem_nil, or_false] at hm
    rcases hm with rfl | rfl <;> exact ⟨_, hp⟩
  · rintro _ w' ⟨js, hjs, -, hverdicts, -, hcalls, -, d', hrec, hleft⟩
    rw [hvalues] at hjs
    obtain ⟨⟨a', va⟩, js, rfl, ha', hjs⟩ := List.map_eq_cons_iff.mp hjs
    obtain ⟨⟨b', vb⟩, js, rfl, hb', hjs⟩ := List.map_eq_cons_iff.mp hjs
    obtain rfl := List.map_eq_nil_iff.mp hjs
    change a' = a at ha'
    change b' = b at hb'
    subst ha' hb'
    cases hverdict (.inl rfl) (hverdicts (a, va) (by simp))
    cases hverdict (.inr rfl) (hverdicts (b, vb) (by simp))
    exact ⟨hcalls, d', hrec, hleft⟩
  · rintro s w' ⟨m, hm, e, rfl, hraised⟩
    rw [hvalues] at hm
    simp only [List.mem_cons, List.not_mem_nil, or_false] at hm
    rcases hm with rfl | rfl
    · cases hverdict (.inl rfl) hraised
    · cases hverdict (.inr rfl) hraised

end Sweep

end Lobbyboy.ServerKiller
