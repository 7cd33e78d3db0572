import Lobbyboy.ServerKiller.BillingRule
import Lobbyboy.ServerKiller.Records

/-! The patrol against the end of a billing cycle. A round takes as long as its providers
take, and a pause lies between two rounds; a server is looked at once in each round. An idle
server is destroyed before the cycle ends, in every patrol, if and only if the safe time
covers the time from the start of a round to the end of the next one. -/

namespace Lobbyboy.ServerKiller

open Foundation Utils Config Provider Prog

variable {T : Type} {env : Env T} {watchedProviders : Providers} {provider : BaseProvider}
  {m : LBServerMeta} {ms : List LBServerMeta} {d : ServerMap} {w w₁ w' : World T}

/-! ### One server -/

/-- The look at a server: the verdict, at two readings of the clock, and what followed. -/
inductive Looked (env : Env T) (config : LBConfigProvider) (m : LBServerMeta) (d : ServerMap)
    (w w' : World T) : Prop
  | kept (i : ℕ) (table : ActiveSession T) (reason : String) (first : w.tick ≤ i)
      (last : i + 2 < w'.tick)
      (verdict : needDestroy (env.others i table) config m (env.time (i + 1)) (env.time (i + 2)) =
        .ok (false, reason))
      (calls : destroyCalls w'.log = destroyCalls w.log) (left : Records w'.db d)
  | destroyed (answer : Bool) (later : w.tick < w'.tick)
      (calls : destroyCalls w'.log = destroyCalls w.log ++ [(m, .ok answer)])
      (left : Records w'.db (d.erase m.serverName))

theorem checkServer_looked (hdb : Records w.db d)
    (hp : watchedProviders.get? m.providerName = some provider) :
    wp (checkServer env watchedProviders m)
      (fun _ w' => Looked env provider.providerConfig m d w w') (fun _ _ => True) w := by
  simp only [checkServer, hp, needDestroyNow, wp_bind, wp_readSessions, wp_now, wp_fromExcept,
    World.next_tick]
  constructor
  · rintro ⟨verdict, reason⟩ hv
    cases verdict with
    | false =>
      rw [if_neg (by simp), wp_emit, wp_pure]
      exact .kept w.tick w.activeSession reason (Nat.le_refl _) (by simp) hv
        (by simp [destroyCalls]) hdb
    | true =>
      have hm : m.manage = true := (needDestroy_true hv).2
      simp only [destroy, hm, if_true, Bool.true_eq_false, if_false, wp_bind, wp_emit,
        wp_destroyServer, wp_updateServers]
      constructor
      · intro answer _
        refine ⟨fun r hr => ?_, fun _ _ => trivial⟩
        obtain ⟨file', hu, hrec⟩ := records_update (hdb _) [] [m]
        rw [mergeServers_deleted] at hrec
        cases hu.symm.trans hr
        exact .destroyed answer (by simp; omega) (by simp [destroyCalls]) hrec
      · exact fun _ _ => trivial
  · exact fun _ _ => trivial

/-! ### One round -/

/-- Servers were worked on; the record under that name is what it was. -/
structure Passed (name : String) (d : ServerMap) (w w' : World T) : Prop where
  left : ∃ d', Records w'.db d' ∧ d'.get? name = d.get? name
  calls : ∃ ds, destroyCalls w'.log = destroyCalls w.log ++ ds
  later : w.tick ≤ w'.tick

theorem Passed.refl (h : Records w.db d) (name : String) : Passed name d w w where
  left := ⟨d, h, rfl⟩
  calls := ⟨[], (List.append_nil _).symm⟩
  later := Nat.le_refl _

theorem Passed.trans {name : String} {d' : ServerMap} (h : Passed name d w w₁)
    (hget : d'.get? name = d.get? name) (h' : Passed name d' w₁ w') : Passed name d w w' where
  left := by
    obtain ⟨d'', hrec, hsame⟩ := h'.left
    exact ⟨d'', hrec, hsame.trans hget⟩
  calls := by
    obtain ⟨ds, hds⟩ := h.calls
    obtain ⟨ds', hds'⟩ := h'.calls
    exact ⟨ds ++ ds', by rw [hds', hds, List.append_assoc]⟩
  later := Nat.le_trans h.later h'.later

theorem Looked.passed {config : LBConfigProvider} (h : Looked env config m d w w') {name : String}
    (hne : m.serverName ≠ name) : Passed name d w w' := by
  cases h with
  | kept i table reason first last verdict calls left =>
    exact ⟨⟨d, left, rfl⟩, ⟨[], by rw [calls, List.append_nil]⟩, by omega⟩
  | destroyed answer later calls left =>
    exact ⟨⟨_, left, OrderedDict.get?_erase_of_ne hne.symm⟩, ⟨_, calls⟩, by omega⟩

theorem checkServer_passed {name : String} (hne : m.serverName ≠ name) (hdb : Records w.db d) :
    wp (checkServer env watchedProviders m) (fun _ w' => Passed name d w w')
      (fun _ _ => True) w := by
  cases hp : watchedProviders.get? m.providerName with
  | none => simp [checkServer, hp]
  | some provider =>
    apply wp_mono (checkServer_looked hdb hp)
    · exact fun _ w' hlooked => hlooked.passed hne
    · exact fun _ _ => id

/-- A server of that name is not among them. -/
theorem checkServers_passed {name : String} (hname : name ∉ ms.map (·.serverName))
    (hdb : Records w.db d) :
    wp (checkServers env watchedProviders ms) (fun _ w' => Passed name d w w')
      (fun _ _ => True) w := by
  induction ms generalizing w d with
  | nil => simpa [checkServers] using Passed.refl hdb name
  | cons m ms ih =>
    rw [List.map_cons, List.mem_cons, not_or] at hname
    rw [checkServers, wp_bind]
    apply wp_mono (checkServer_passed (Ne.symm hname.1) hdb)
    · intro _ w₁ hpassed
      obtain ⟨d₁, hdb₁, hget⟩ := hpassed.left
      apply wp_mono (ih hname.2 hdb₁)
      · exact fun _ w' h => hpassed.trans hget h
      · exact fun _ _ => id
    · exact fun _ _ => id

/-- The database has that very record. -/
def IsRecorded (m : LBServerMeta) (file : DbFile) : Prop :=
  ∃ d, Records file d ∧ d.get? m.serverName = some m

/-- The database can be read, and nobody has that name. -/
def IsForgotten (m : LBServerMeta) (file : DbFile) : Prop :=
  ∃ d, Records file d ∧ d.get? m.serverName = none

/-- A call of `destroy_server` for the server has returned, and its record is gone. -/
structure Destroyed (m : LBServerMeta) (w w' : World T) : Prop where
  call : ∃ ds answer, destroyCalls w'.log = destroyCalls w.log ++ ds ∧ (m, .ok answer) ∈ ds
  gone : IsForgotten m w'.db

/-- What a round that has returned did for a server in the database. -/
inductive Judged (env : Env T) (config : LBConfigProvider) (m : LBServerMeta) (w w' : World T) :
    Prop
  | kept (i : ℕ) (table : ActiveSession T) (reason : String) (first : w.tick ≤ i)
      (last : i + 2 < w'.tick)
      (verdict : needDestroy (env.others i table) config m (env.time (i + 1)) (env.time (i + 2)) =
        .ok (false, reason))
      (recorded : IsRecorded m w'.db)
  | destroyed (h : Destroyed m w w')

theorem Judged.before {config : LBConfigProvider} (h : Judged env config m w₁ w')
    (hcalls : ∃ ds, destroyCalls w₁.log = destroyCalls w.log ++ ds) (hlater : w.tick ≤ w₁.tick) :
    Judged env config m w w' := by
  cases h with
  | kept i table reason first last verdict recorded =>
    exact .kept i table reason (by omega) last verdict recorded
  | destroyed h =>
    obtain ⟨ds, hds⟩ := hcalls
    obtain ⟨ds', answer, hds', hmem⟩ := h.call
    refine .destroyed ⟨⟨ds ++ ds', answer, ?_, List.mem_append_right _ hmem⟩, h.gone⟩
    rw [hds', hds, List.append_assoc]

/-- The look at the server, and then the servers behind it. -/
theorem Looked.judged {config : LBConfigProvider} (h : Looked env config m d w w₁)
    (hget : d.get? m.serverName = some m)
    (hrest : ∀ {d'}, Records w₁.db d' → Passed m.serverName d' w₁ w') :
    Judged env config m w w' := by
  cases h with
  | kept i table reason first last verdict calls left =>
    obtain ⟨d', hrec, hsame⟩ := (hrest left).left
    have hlater := (hrest left).later
    exact .kept i table reason first (by omega) verdict ⟨d', hrec, hsame.trans hget⟩
  | destroyed answer later calls left =>
    obtain ⟨d', hrec, hsame⟩ := (hrest left).left
    obtain ⟨ds, hds⟩ := (hrest left).calls
    refine .destroyed ⟨⟨(m, .ok answer) :: ds, answer, ?_, List.mem_cons_self⟩, ?_⟩
    · rw [hds, calls, List.append_assoc]
      rfl
    · refine ⟨d', hrec, ?_⟩
      rw [hsame, OrderedDict.get?_eq_none_iff, OrderedDict.mem_keys_erase]
      exact fun hmem => hmem.2 rfl

theorem checkServers_judged (hmem : m ∈ ms) (hnodup : (ms.map (·.serverName)).Nodup)
    (hdb : Records w.db d) (hget : d.get? m.serverName = some m)
    (hp : watchedProviders.get? m.providerName = some provider) :
    wp (checkServers env watchedProviders ms)
      (fun _ w' => Judged env provider.providerConfig m w w') (fun _ _ => True) w := by
  induction ms generalizing w d with
  | nil => cases hmem
  | cons m₁ ms ih =>
    rw [List.map_cons, List.nodup_cons] at hnodup
    rw [checkServers, wp_bind]
    rcases List.mem_cons.mp hmem with rfl | hmem
    · apply wp_mono (checkServer_looked hdb hp)
      · intro _ w₁ hlooked
        apply wp_mono (wp_self _ w₁)
        · intro _ w' hrun
          refine hlooked.judged hget fun {d'} hrec => ?_
          have hrest : wp (checkServers env watchedProviders ms)
              (fun _ w' => Passed m.serverName d' w₁ w') (fun _ _ => True) w₁ :=
            checkServers_passed hnodup.1 hrec
          exact (wp_iff.mp hrest).1 _ w' hrun
        · exact fun _ _ _ => trivial
      · exact fun _ _ => id
    · have hne : m₁.serverName ≠ m.serverName := fun heq =>
        hnodup.1 (heq ▸ List.mem_map_of_mem hmem)
      apply wp_mono (checkServer_passed hne hdb)
      · intro _ w₁ hpassed
        obtain ⟨d₁, hdb₁, hsame⟩ := hpassed.left
        apply wp_mono (ih hmem hnodup.2 hdb₁ (hsame.trans hget))
        · exact fun _ w' h => h.before hpassed.calls hpassed.later
        · exact fun _ _ => id
      · exact fun _ _ => id

/-- The round starts. -/
def startRound (w : World T) : World T := { w with log := w.log ++ [.round] }

theorem destroyCalls_startRound (w : World T) :
    destroyCalls (startRound w).log = destroyCalls w.log := by
  rw [startRound, destroyCalls_append]
  exact List.append_nil _

theorem checkAllLiveServers_judged (hrec : IsRecorded m w.db)
    (hp : watchedProviders.get? m.providerName = some provider)
    (hrun : checkAllLiveServers env watchedProviders (startRound w) = .ok () w') :
    Judged env provider.providerConfig m w w' := by
  obtain ⟨d, hdb, hget⟩ := hrec
  have hnodup : (d.values.map (·.serverName)).Nodup := by
    rw [names_values hdb.keyed]
    exact d.nodup
  have hround : wp (checkAllLiveServers env watchedProviders)
      (fun _ w' => Judged env provider.providerConfig m (startRound w).next w')
      (fun _ _ => True) (startRound w) := by
    rw [checkAllLiveServers, wp_bind, wp_loadServers]
    refine ⟨fun d' hd' => ?_, fun _ _ => trivial⟩
    cases (hdb _).symm.trans hd'
    exact checkServers_judged (OrderedDict.mem_values_iff.mpr ⟨_, hget⟩) hnodup hdb hget hp
  refine (wp_of_ok hround hrun).before ⟨[], ?_⟩ (Nat.le_succ _)
  rw [List.append_nil]
  exact destroyCalls_startRound w

theorem checkAllLiveServers_forgotten (hgone : IsForgotten m w.db)
    (hrun : checkAllLiveServers env watchedProviders (startRound w) = .ok () w') :
    IsForgotten m w'.db ∧ w.tick < w'.tick := by
  obtain ⟨d, hdb, hget⟩ := hgone
  have hname : m.serverName ∉ d.values.map (·.serverName) := by
    rw [names_values hdb.keyed, ← OrderedDict.get?_eq_none_iff]
    exact hget
  have hround : wp (checkAllLiveServers env watchedProviders)
      (fun _ w' => Passed m.serverName d (startRound w).next w') (fun _ _ => True)
      (startRound w) := by
    rw [checkAllLiveServers, wp_bind, wp_loadServers]
    refine ⟨fun d' hd' => ?_, fun _ _ => trivial⟩
    cases (hdb _).symm.trans hd'
    exact checkServers_passed hname hdb
  have hpassed := (wp_iff.mp hround).1 _ w' hrun
  obtain ⟨d', hrec, hsame⟩ := hpassed.left
  exact ⟨⟨d', hrec, hsame.trans hget⟩, hpassed.later⟩

/-! ### One round after another -/

/-- The last round is a round from where the others end. -/
theorem patrol_succ_of_ok {n : ℕ} (h : patrol env watchedProviders n w = .ok () w₁) :
    patrol env watchedProviders (n + 1) w =
      checkAllLiveServers env watchedProviders (startRound w₁) := by
  induction n generalizing w with
  | zero =>
    cases h
    rw [patrol_succ, startRound]
    cases checkAllLiveServers env watchedProviders { w₁ with log := w₁.log ++ [.round] } <;> rfl
  | succ n ih =>
    rw [patrol_succ] at h ⊢
    cases hround : checkAllLiveServers env watchedProviders { w with log := w.log ++ [.round] } with
    | ok u w₂ =>
      rw [hround] at h
      exact ih h
    | error s w₂ =>
      rw [hround] at h
      cases h

/-- The worlds of a patrol between its rounds, all of which return, watching over the time
from `first` to `last`: at most `G` seconds pass from the start of a round to the end of the
next, and nobody uses the server in that time. -/
structure Patrolled (env : Env T) (watchedProviders : Providers) (m : LBServerMeta)
    (first last : ℤ) (G n : ℕ) (ws : ℕ → World T) : Prop where
  rounds : ∀ k ≤ n, patrol env watchedProviders k (ws 0) = .ok () (ws k)
  clock : ∀ i j, i ≤ j → env.time i ≤ env.time j
  pace : ∀ k, k + 2 ≤ n → env.time ((ws (k + 2)).tick - 1) - env.time (ws k).tick ≤ G
  begun : env.time (ws 0).tick < first
  ended : ∃ k < n, last ≤ env.time (ws k).tick
  recorded : IsRecorded m (ws 0).db
  idle : ∀ i table, first ≤ env.time i → env.time i < last →
    (env.others i table).sessions m.serverName = []

namespace Patrolled

variable {first last : ℤ} {G n : ℕ} {ws : ℕ → World T}

theorem round (h : Patrolled env watchedProviders m first last G n ws) {k : ℕ} (hk : k < n) :
    checkAllLiveServers env watchedProviders (startRound (ws k)) = .ok () (ws (k + 1)) := by
  rw [← patrol_succ_of_ok (h.rounds k (Nat.le_of_lt hk))]
  exact h.rounds (k + 1) hk

/-- It is still recorded, or was destroyed in one of the rounds. -/
theorem fate (h : Patrolled env watchedProviders m first last G n ws)
    (hp : watchedProviders.get? m.providerName = some provider) {k : ℕ} (hk : k ≤ n) :
    IsRecorded m (ws k).db ∨ IsForgotten m (ws k).db ∧
      ∃ j < k, Destroyed m (ws j) (ws (j + 1)) ∧ (ws (j + 1)).tick ≤ (ws k).tick := by
  induction k with
  | zero => exact .inl h.recorded
  | succ k ih =>
    have hround := h.round hk
    rcases ih (Nat.le_of_lt hk) with hrec | ⟨hgone, j, hj, hdestroyed, hlater⟩
    · cases checkAllLiveServers_judged hrec hp hround with
      | kept i table reason first last verdict recorded => exact .inl recorded
      | destroyed hdestroyed =>
        exact .inr ⟨hdestroyed.gone, k, Nat.lt_succ_self k, hdestroyed, Nat.le_refl _⟩
    · obtain ⟨hgone', hlater'⟩ := checkAllLiveServers_forgotten hgone hround
      exact .inr ⟨hgone', j, by omega, hdestroyed, by omega⟩

/-- A round lies between the two moments if the pace allows it. -/
theorem exists_round (h : Patrolled env watchedProviders m first last G n ws)
    (hG : first + G ≤ last) :
    ∃ k < n, first ≤ env.time (ws k).tick ∧ env.time ((ws (k + 1)).tick - 1) < last := by
  have hex : ∃ k, first ≤ env.time (ws k).tick := by
    obtain ⟨k, -, hk⟩ := h.ended
    exact ⟨k, by omega⟩
  have hfound := Nat.find_spec hex
  have hmin : ∀ j < Nat.find hex, env.time (ws j).tick < first := fun j hj =>
    not_le.mp (Nat.find_min hex hj)
  have hlt : Nat.find hex < n := by
    obtain ⟨k, hk, hlast⟩ := h.ended
    have hfind : Nat.find hex ≤ k := Nat.find_min' hex (by omega)
    omega
  cases hk : Nat.find hex with
  | zero =>
    rw [hk] at hfound
    have hbegun := h.begun
    omega
  | succ k =>
    rw [hk] at hfound hlt hmin
    have hpace : env.time ((ws (k + 1 + 1)).tick - 1) - env.time (ws k).tick ≤ G :=
      h.pace k (by omega)
    have hbefore := hmin k (Nat.lt_succ_self k)
    exact ⟨k + 1, hlt, hfound, by omega⟩

end Patrolled

/-! ### The end of a billing cycle -/

section Deadline

variable {config : LBConfigProvider} {table : ActiveSession T} {L U S G : ℕ} {c : ℤ}

/-- The end of the billing cycle before number `c`. -/
def cycleEnd (m : LBServerMeta) (U : ℕ) (c : ℤ) : ℤ := m.createdTimestamp + c * U

/-- In the safe part of a cycle the verdict on an idle server that is old enough is yes. -/
theorem needDestroy_before_end (hL : toSeconds config.minLifeToLive = .ok L)
    (hU : toSeconds config.billTimeUnit = .ok U) (hU0 : 0 < U)
    (hS : destroySafeTimeInSec config = .ok S) (hs : table.sessions m.serverName = [])
    (hm : m.manage = true) (hold : L ≤ c * U - S) {now₁ now₂ : ℤ}
    (h₁ : cycleEnd m U c - S ≤ now₁) (h₂ : cycleEnd m U c - S ≤ now₂)
    (hend : now₂ < cycleEnd m U c) :
    ∃ reason, needDestroy table config m now₁ now₂ = .ok (true, reason) := by
  rw [cycleEnd] at h₁ h₂ hend
  rcases Nat.eq_zero_or_pos L with rfl | hL0
  · exact ⟨_, needDestroy_of_no_min_life hs hm hL⟩
  have hlived : L ≤ m.liveSec now₁ := by
    rw [LBServerMeta.liveSec]
    omega
  obtain ⟨n, hn⟩ := exists_inCycle hU0 (m.liveSec now₂)
  have hage : m.liveSec now₂ = now₂ - m.createdTimestamp := rfl
  have hbefore : n < c := by
    have hlt : n * U < c * U := by
      have hle := hn.1
      omega
    exact lt_of_mul_lt_mul_right hlt (by omega)
  have hcycle : (n + 1) * U ≤ c * U := Int.mul_le_mul_of_nonneg_right (by omega) (by omega)
  have hleft : paidLeft U n (m.liveSec now₂) ≤ S := by
    rw [paidLeft]
    omega
  rw [needDestroy_of_min_life hs hm hL hL0 hlived]
  exact (needDestroyInBill_eq_true_iff hU hU0 hS).mpr ((nearCycleEnd_iff hU0 _).mp ⟨n, hn, hleft⟩)

/-- Every patrol of that pace over the safe part of a cycle destroys the server, if it is
managed and old enough, before the cycle ends. -/
def DestroysInTime (T : Type) (config : LBConfigProvider) (L U S G : ℕ) : Prop :=
  ∀ (env : Env T) (watchedProviders : Providers) (provider : BaseProvider) (m : LBServerMeta)
    (c : ℤ) (n : ℕ) (ws : ℕ → World T), provider.providerConfig = config →
    watchedProviders.get? m.providerName = some provider → m.manage = true → L ≤ c * U - S →
    Patrolled env watchedProviders m (cycleEnd m U c - S) (cycleEnd m U c) G n ws →
    ∃ k < n, Destroyed m (ws k) (ws (k + 1)) ∧ env.time ((ws (k + 1)).tick - 1) < cycleEnd m U c

theorem destroysInTime_of_le (hL : toSeconds config.minLifeToLive = .ok L)
    (hU : toSeconds config.billTimeUnit = .ok U) (hU0 : 0 < U)
    (hS : destroySafeTimeInSec config = .ok S) (hle : G ≤ S) :
    DestroysInTime T config L U S G := by
  rintro env watchedProviders provider m c n ws rfl hp hm hold h
  obtain ⟨k, hk, hfirst, hlast⟩ := h.exists_round (by omega)
  rcases h.fate hp (Nat.le_of_lt hk) with hrec | ⟨hgone, j, hj, hdestroyed, hlater⟩
  · cases checkAllLiveServers_judged hrec hp (h.round hk) with
    | kept i table reason first last verdict recorded =>
      have hi := h.clock _ _ first
      have hi₁ := h.clock i (i + 1) (by omega)
      have hi₂ := h.clock (i + 1) (i + 2) (by omega)
      have hend := h.clock (i + 2) _ (Nat.le_sub_one_of_lt last)
      have hidle := h.idle i table (by omega) (by omega)
      have hdue : ∃ reason', needDestroy (env.others i table) provider.providerConfig m
          (env.time (i + 1)) (env.time (i + 2)) = .ok (true, reason') :=
        needDestroy_before_end hL hU hU0 hS hidle hm hold (by omega) (by omega) (by omega)
      obtain ⟨reason', hyes⟩ := hdue
      rw [hyes] at verdict
      cases verdict
    | destroyed hdestroyed => exact ⟨k, hk, hdestroyed, hlast⟩
  · obtain ⟨-, hround⟩ := checkAllLiveServers_forgotten hgone (h.round hk)
    have htime := h.clock ((ws (j + 1)).tick - 1) ((ws (k + 1)).tick - 1) (by omega)
    exact ⟨j, by omega, hdestroyed, by omega⟩

/-! ### A patrol that is too slow -/

/-- A round that finds one server, and that it is in use. -/
def usedOnce (env : Env T) (m : LBServerMeta) (w : World T) : World T :=
  { w with
    tick := w.tick + 4
    activeSession := env.others (w.tick + 1) w.activeSession
    log := w.log ++ [.round] ++ [.judged m false] }

theorem checkAllLiveServers_used (hdb : Records w.db d) (hvalues : d.values = [m])
    (hp : watchedProviders.get? m.providerName = some provider)
    (hused : (env.others (w.tick + 1) w.activeSession).sessions m.serverName ≠ []) :
    checkAllLiveServers env watchedProviders (startRound w) = .ok () (usedOnce env m w) := by
  obtain ⟨reason, hkept⟩ : ∃ reason, needDestroy (env.others (w.tick + 1) w.activeSession)
      provider.providerConfig m (env.time (w.tick + 2)) (env.time (w.tick + 3)) =
        .ok (false, reason) := needDestroy_of_sessions hused
  apply eq_ok_of_wp
  rw [checkAllLiveServers, wp_bind, wp_loadServers]
  refine ⟨fun d' hd' => ?_, fun e he => ?_⟩
  · cases (hdb _).symm.trans hd'
    rw [hvalues]
    simp [checkServers, checkServer, hp, needDestroyNow, startRound, hkept, usedOnce, World.next]
  · cases (hdb _).symm.trans he

theorem destroyCalls_usedOnce (env : Env T) (m : LBServerMeta) (w : World T) :
    destroyCalls (usedOnce env m w).log = destroyCalls w.log := by
  rw [usedOnce, destroyCalls_append, destroyCalls_append]
  exact (List.append_nil _).trans (List.append_nil _)

/-- A number of such rounds. -/
def usedRounds (env : Env T) (m : LBServerMeta) (w : World T) (k : ℕ) : World T :=
  (usedOnce env m)^[k] w

theorem usedRounds_succ (env : Env T) (m : LBServerMeta) (w : World T) (k : ℕ) :
    usedRounds env m w (k + 1) = usedOnce env m (usedRounds env m w k) :=
  Function.iterate_succ_apply' (usedOnce env m) k w

theorem tick_usedRounds (env : Env T) (m : LBServerMeta) (w : World T) (k : ℕ) :
    (usedRounds env m w k).tick = w.tick + 4 * k := by
  induction k with
  | zero => rfl
  | succ k ih =>
    rw [usedRounds_succ]
    show (usedRounds env m w k).tick + 4 = _
    omega

theorem db_usedRounds (env : Env T) (m : LBServerMeta) (w : World T) (k : ℕ) :
    (usedRounds env m w k).db = w.db := by
  induction k with
  | zero => rfl
  | succ k ih =>
    rw [usedRounds_succ]
    exact ih

theorem patrol_usedRounds (hdb : Records w.db d) (hvalues : d.values = [m])
    (hp : watchedProviders.get? m.providerName = some provider)
    (hused : ∀ n table, (env.others n table).sessions m.serverName ≠ []) (k : ℕ) :
    patrol env watchedProviders k w = .ok () (usedRounds env m w k) := by
  induction k with
  | zero => rfl
  | succ k ih =>
    rw [patrol_succ_of_ok ih, usedRounds_succ]
    apply checkAllLiveServers_used _ hvalues hp (hused _ _)
    rw [db_usedRounds]
    exact hdb

/-- Somebody uses the server of that name; the clock moves once, before call `n`. -/
def usedEnv [Inhabited T] (name : String) (before after : ℤ) (n : ℕ) : Env T :=
  { Env.smooth with
    time := fun i => if i < n then before else after
    others := fun _ _ => ActiveSession.register .empty name default }

theorem time_usedEnv [Inhabited T] (name : String) (before after : ℤ) (n i : ℕ) :
    i < n ∧ (usedEnv (T := T) name before after n).time i = before ∨
      n ≤ i ∧ (usedEnv (T := T) name before after n).time i = after := by
  rcases Nat.lt_or_ge i n with hi | hi
  · exact .inl ⟨hi, if_pos hi⟩
  · exact .inr ⟨hi, if_neg (Nat.not_lt.mpr hi)⟩

/-- The first round is over a second before `first`, and the second begins at `last`. -/
theorem patrolled_usedRounds [Inhabited T] {first last : ℤ} (htick : w.tick = 0)
    (hdb : Records w.db d) (hvalues : d.values = [m]) (hget : d.get? m.serverName = some m)
    (hp : watchedProviders.get? m.providerName = some provider) (hle : first ≤ last)
    (hG : last - first < G) :
    Patrolled (usedEnv (T := T) m.serverName (first - 1) last 4) watchedProviders m first last G 2
      (usedRounds (usedEnv m.serverName (first - 1) last 4) m w) := by
  have htime := time_usedEnv (T := T) m.serverName (first - 1) last 4
  refine ⟨fun k _ => ?_, fun i j hij => ?_, fun k hk => ?_, ?_, ⟨1, by omega, ?_⟩, ?_,
    fun i table h₁ h₂ => ?_⟩
  · apply patrol_usedRounds hdb hvalues hp _ k
    intro n table
    rw [usedEnv, ActiveSession.sessions_register, if_pos rfl]
    simp
  · have hi := htime i
    have hj := htime j
    omega
  · obtain rfl : k = 0 := by omega
    rw [tick_usedRounds, tick_usedRounds, htick]
    have hi := htime 7
    have hj := htime 0
    show (usedEnv m.serverName (first - 1) last 4).time 7 -
      (usedEnv m.serverName (first - 1) last 4).time 0 ≤ (G : ℤ)
    omega
  · rw [tick_usedRounds, htick]
    have hi := htime 0
    show (usedEnv m.serverName (first - 1) last 4).time 0 < first
    omega
  · rw [tick_usedRounds, htick]
    have hi := htime 4
    show last ≤ (usedEnv m.serverName (first - 1) last 4).time 4
    omega
  · exact ⟨d, hdb, hget⟩
  · have hi := htime i
    omega

theorem le_of_destroysInTime [Inhabited T] (hU0 : 0 < U) (h : DestroysInTime T config L U S G) :
    G ≤ S := by
  by_contra hlt
  let m : LBServerMeta := { providerName := "", workspace := .parse "", serverName := "",
                            createdTimestamp := 0 }
  let provider : BaseProvider := ⟨"", config, .parse "", .footloose⟩
  let watchedProviders : Providers := .ofPairs [("", provider)]
  let d : ServerMap := .ofPairs [("", m)]
  let w : World T := { db := some (storedServers d).dumps }
  have hdb : Records w.db d := records_dumps (keyed_empty.insert m)
  have hp : watchedProviders.get? m.providerName = some provider := rfl
  have hold : (L : ℤ) ≤ (L + S) * U - S := by
    have hmul : ((L : ℤ) + S) * 1 ≤ (L + S) * U :=
      Int.mul_le_mul_of_nonneg_left (by omega) (by omega)
    omega
  let last := cycleEnd m U (L + S)
  have hpatrolled : Patrolled (usedEnv (T := T) "" (last - S - 1) last 4) watchedProviders m
      (last - S) last G 2 (usedRounds (usedEnv "" (last - S - 1) last 4) m w) :=
    patrolled_usedRounds rfl hdb rfl rfl hp (by omega) (by omega)
  obtain ⟨k, -, ⟨⟨ds, answer, hds, hmem⟩, -⟩, -⟩ := h _ _ _ m (L + S) 2 _ rfl hp rfl hold hpatrolled
  rw [usedRounds_succ, destroyCalls_usedOnce] at hds
  rw [List.self_eq_append_right.mp hds] at hmem
  cases hmem

/-- Before the end of a billing cycle every patrol of that pace destroys an idle server that is
old enough if and only if the safe time covers two rounds and the pause between them. -/
theorem destroysInTime_iff [Inhabited T] (hL : toSeconds config.minLifeToLive = .ok L)
    (hU : toSeconds config.billTimeUnit = .ok U) (hU0 : 0 < U)
    (hS : destroySafeTimeInSec config = .ok S) (G : ℕ) :
    DestroysInTime T config L U S G ↔ G ≤ S := by
  constructor
  · exact le_of_destroysInTime hU0
  · exact destroysInTime_of_le hL hU hU0 hS

/-- Five minutes to spare are enough for rounds that take no longer, and a second more is not. -/
theorem destroysInTime_five_minutes :
    let config : LBConfigProvider := { minLifeToLive := some "55m", billTimeUnit := some "1h",
                                       destroySafeTime := some "5m" }
    DestroysInTime Unit config 3300 3600 300 300 ∧
      ¬ DestroysInTime Unit config 3300 3600 300 301 := by
  intro config
  have h : ∀ G, DestroysInTime Unit config 3300 3600 300 G ↔ G ≤ 300 :=
    destroysInTime_iff rfl rfl (by decide) rfl
  exact ⟨(h 300).mpr (by decide), fun hlate => absurd ((h 301).mp hlate) (by decide)⟩

end Deadline

end Lobbyboy.ServerKiller
