import Lobbyboy.Daemon.Threads

/-! No server in use is destroyed, and no session is redirected to a destroyed one, as
long as the threads do not get into each other's windows: from `choose_server` to the
session table on the one side, from a `True` verdict to the deletion of the record on the
other. Nothing in the code keeps them apart. -/

namespace Lobbyboy.Daemon

open Foundation Utils Config Provider ServerKiller

variable {providers : Providers} {s s' : State} {a : Action}

namespace State

/-- No thread stands between a `True` verdict on that server and the deletion of its
record. -/
def Uncondemned (s : State) (serverName : String) : Prop :=
  ∀ t m, (s.verdict t).server = some m → m.serverName ≠ serverName

end State

/-- `destroy_server` is not called for a server that a session uses; a session is not
redirected to a server on which it was called. -/
def Safe (s : State) : Action → Prop
  | .callDestroy t => ∀ m, s.verdict t = .condemned m →
      ∀ i m', (s.phase i).uses = some m' → m'.serverName ≠ m.serverName
  | .redirect i => ∀ m, s.phase i = .picked m → m ∉ s.destroyed
  | _ => True

/-- The windows do not overlap: a server is chosen while its record is there and no
verdict on it is being carried out, and `need_destroy` answers `True` for it while no
session that chose it has yet to be registered. -/
def Apart (providers : Providers) (s : State) : Action → Prop
  | .pick _ m => s.db.get? m.serverName = some m ∧ s.Uncondemned m.serverName
  | .create _ m => s.Uncondemned m.serverName
  | .judge t now₁ now₂ => ∀ m, s.toJudge t = some m →
      verdictOn providers s.activeSession m now₁ now₂ = some true →
      ∀ i m', (s.phase i).unregistered = some m' → m'.serverName ≠ m.serverName
  | _ => True

/-! ### The session table -/

theorem isOpen_of_setPhase {i j : ℕ} {p : Phase}
    (hopen : p.isOpen = true → (s.phase i).isOpen = true)
    (hj : ((s.setPhase i p).phase j).isOpen = true) : (s.phase j).isOpen = true := by
  rw [State.setPhase_phase] at hj
  split_ifs at hj with hij
  · exact hij ▸ hopen hj
  · exact hj

/-- A registered session is in the table, and nobody else has its address. -/
structure Seated (s : State) : Prop where
  held : ∀ i, (s.phase i).isOpen = true → s.peer i ∈ s.openPeers
  distinct : ∀ i j, (s.phase i).isOpen = true → (s.phase j).isOpen = true →
    s.peer i = s.peer j → i = j
  listed : ∀ i m, s.phase i = .registered m →
    s.transport i ∈ s.activeSession.sessions m.serverName

namespace Seated

/-- A phase that opens nothing and registers nothing. -/
theorem setPhase (h : Seated s) {i : ℕ} {p : Phase}
    (hopen : p.isOpen = true → (s.phase i).isOpen = true) (hp : ∀ m, p ≠ .registered m) :
    Seated (s.setPhase i p) := by
  have hback : ∀ j, ((s.setPhase i p).phase j).isOpen = true → (s.phase j).isOpen = true :=
    fun _ hj => isOpen_of_setPhase hopen hj
  constructor
  case held => exact fun j hj => h.held j (hback j hj)
  case distinct => exact fun j k hj hk => h.distinct j k (hback j hj) (hback k hk)
  case listed =>
    intro j m hj
    rw [State.setPhase_phase] at hj
    split_ifs at hj
    · exact absurd hj (hp m)
    · exact h.listed j m hj

theorem connect (h : Seated s) {i : ℕ} {peer : String × ℕ} (hp : peer ∉ s.openPeers) :
    Seated { s.setPhase i .connected with
      peer := Function.update s.peer i peer, openPeers := peer :: s.openPeers } := by
  have hheld : ∀ j, j ≠ i → (s.phase j).isOpen = true → s.peer j ≠ peer :=
    fun j _ hj heq => hp (heq ▸ h.held j hj)
  constructor
  case held =>
    intro j hj
    by_cases hij : j = i
    · subst hij; simp
    · simp [hij] at hj ⊢
      exact .inr (h.held j hj)
  case distinct =>
    intro j k hj hk heq
    by_cases hij : j = i <;> by_cases hik : k = i
    · rw [hij, hik]
    · subst hij
      simp [hik] at hk heq
      exact absurd heq.symm (hheld k hik hk)
    · subst hik
      simp [hij] at hj heq
      exact absurd heq (hheld j hij hj)
    · simp [hij, hik] at hj hk heq
      exact h.distinct j k hj hk heq
  case listed =>
    intro j m hj
    by_cases hij : j = i
    · simp [hij] at hj
    · simp [hij] at hj
      have hl := h.listed j m hj
      simpa [State.transport, State.setPhase, hij] using hl

theorem register (h : Seated s) {i : ℕ} {m : LBServerMeta} (hi : (s.phase i).isOpen = true) :
    Seated { s.setPhase i (.registered m) with
      activeSession := s.activeSession.register m.serverName (s.transport i) } := by
  have hback : ∀ j, ((s.setPhase i (.registered m)).phase j).isOpen = true →
      (s.phase j).isOpen = true := fun _ hj => isOpen_of_setPhase (fun _ => hi) hj
  constructor
  case held => exact fun j hj => h.held j (hback j hj)
  case distinct => exact fun j k hj hk => h.distinct j k (hback j hj) (hback k hk)
  case listed =>
    intro j m' hj
    change s.transport j ∈ (s.activeSession.register _ _).sessions _
    rw [ActiveSession.sessions_register]
    have hj' : (if j = i then Phase.registered m else s.phase j) = .registered m' := by
      simpa using hj
    split_ifs at hj' with hij
    · cases hj'
      rw [if_pos rfl, hij]
      simp
    · have hl := h.listed j m' hj'
      split_ifs with hn
      · exact List.mem_append_left _ (hn ▸ hl)
      · exact hl

/-- The session that gives up its address is no longer open, and nobody else had it. -/
theorem leave (h : Seated s) {i : ℕ} {p : Phase} (hp : p.isOpen = false) :
    Seated (s.leave i p) := by
  have hback : ∀ j, ((s.leave i p).phase j).isOpen = true → j ≠ i ∧ (s.phase j).isOpen = true := by
    intro j hj
    rw [State.leave_phase] at hj
    split_ifs at hj with hij
    · rw [hp] at hj
      cases hj
    · exact ⟨hij, hj⟩
  constructor
  case held =>
    intro j hj
    obtain ⟨hij, hj⟩ := hback j hj
    change s.peer j ∈ if (s.phase i).isOpen then s.openPeers.filter (· ≠ s.peer i) else s.openPeers
    split_ifs with hi
    · have hne : s.peer j ≠ s.peer i := fun heq => hij (h.distinct j i hj hi heq)
      exact List.mem_filter.mpr ⟨h.held j hj, decide_eq_true hne⟩
    · exact h.held j hj
  case distinct => exact fun j k hj hk => h.distinct j k (hback j hj).2 (hback k hk).2
  case listed =>
    intro j m hj
    obtain ⟨hij, -⟩ := hback j (by rw [hj]; rfl)
    rw [State.leave_phase, if_neg hij] at hj
    exact h.listed j m hj

/-- A session that has left takes only its own transport out of the table. -/
theorem removeServerSession (h : Seated s) {i : ℕ} {serverName : String}
    (hi : ∀ j m, s.phase j = .registered m → s.peer j ≠ s.peer i) :
    Seated (s.removeServerSession i serverName) := by
  obtain ⟨d, hd, hsessions⟩ := s.removeServerSession_eq i serverName
  rw [hd]
  constructor
  case held => exact h.held
  case distinct => exact h.distinct
  case listed =>
    intro j m hj
    change s.transport j ∈ d.sessions m.serverName
    rw [hsessions]
    have hl := h.listed j m hj
    split_ifs
    · exact List.mem_filter.mpr ⟨hl, decide_eq_true (hi j m hj)⟩
    · exact hl

theorem remove (h : Seated s) {i : ℕ} {m : LBServerMeta} (hi : s.phase i = .registered m) :
    Seated ((s.leave i (.left m)).removeServerSession i m.serverName) := by
  refine (h.leave rfl).removeServerSession fun j m' hj => ?_
  rw [State.leave_phase] at hj
  split_ifs at hj with hij
  exact fun heq => hij (h.distinct j i (by rw [hj]; rfl) (by rw [hi]; rfl) heq)

theorem judged (h : Seated s) (t : Thread) : Seated (s.judged t) := by
  cases t with
  | killer => exact ⟨h.held, h.distinct, h.listed⟩
  | session i => exact h.setPhase nofun nofun

theorem step (h : Seated s) (hs : Stepped providers s a s') : Seated s' := by
  cases hs with
  | connect phase fresh => exact h.connect fresh
  | load phase => exact h.setPhase (by simp [phase, Phase.isOpen]) nofun
  | pick phase mem => exact h.setPhase (by simp [phase, Phase.isOpen]) nofun
  | @create i m _ phase =>
    have h' : Seated (s.setPhase i (.picked m)) :=
      h.setPhase (by simp [phase, Phase.isOpen]) nofun
    exact ⟨h'.held, h'.distinct, h'.listed⟩
  | redirect phase => exact h.setPhase (by simp [phase, Phase.isOpen]) nofun
  | register phase => exact h.register (by rw [phase]; rfl)
  | remove phase => exact h.remove phase
  | @fail i notCalled =>
    have h' : Seated (s.leave i .ended) := h.leave rfl
    exact ⟨h'.held, h'.distinct, h'.listed⟩
  | @keep t _ _ _ toJudge | @condemn t _ _ _ toJudge _ =>
    have h' := h.judged t
    exact ⟨h'.held, h'.distinct, h'.listed⟩
  | round | callDestroy | delete => exact ⟨h.held, h.distinct, h.listed⟩

end Seated

/-! ### Servers in use -/

/-- No verdict on a server that a session uses is being carried out. -/
def Spared (s : State) : Prop :=
  ∀ i m, (s.phase i).uses = some m → s.Uncondemned m.serverName

namespace Spared

theorem setPhase (h : Spared s) {i : ℕ} {p : Phase}
    (hp : ∀ m, p.uses = some m → s.Uncondemned m.serverName) : Spared (s.setPhase i p) := by
  intro j m hj
  rw [State.setPhase_phase] at hj
  split_ifs at hj
  · exact hp m hj
  · exact h j m hj

theorem leave (h : Spared s) {i : ℕ} {p : Phase} (hp : p.uses = none) : Spared (s.leave i p) :=
  h.setPhase (i := i) (p := p) fun m hm => by rw [hp] at hm; cases hm

theorem judged (h : Spared s) (t : Thread) : Spared (s.judged t) := by
  cases t with
  | killer => exact h
  | session i => exact h.setPhase nofun

theorem setVerdict (h : Spared s) {t : Thread} {v : Verdict}
    (hv : ∀ m, v.server = some m → ∀ i m', (s.phase i).uses = some m' →
      m.serverName ≠ m'.serverName) : Spared (s.setVerdict t v) := by
  intro i m hi t' m' ht'
  rw [State.setVerdict_verdict] at ht'
  split_ifs at ht'
  · exact hv m' ht' i m hi
  · exact h i m hi t' m' ht'

/-- `need_destroy` sees the registered sessions, and there are no others. -/
theorem condemn (h : Spared s) (hseat : Seated s) {t : Thread} {m : LBServerMeta}
    {now₁ now₂ : ℤ} (hv : verdictOn providers s.activeSession m now₁ now₂ = some true)
    (hapart : ∀ i m', (s.phase i).unregistered = some m' → m'.serverName ≠ m.serverName) :
    Spared (s.setVerdict t (.condemned m)) := by
  refine h.setVerdict fun m₁ hm₁ i m' hi heq => ?_
  cases hm₁
  rcases Phase.uses_cases hi with hun | hreg
  · exact hapart i m' hun heq.symm
  · have hl := hseat.listed i m' hreg
    rw [← heq, verdictOn_true hv] at hl
    cases hl

theorem step (h : Spared s) (hseat : Seated s) (hapart : Apart providers s a)
    (hs : Stepped providers s a s') : Spared s' := by
  cases hs with
  | connect | load => exact h.setPhase nofun
  | pick phase mem => exact h.setPhase fun m hm => by cases hm; exact hapart.2
  | create phase =>
    exact h.setPhase (p := .picked _) fun m hm => by cases hm; exact hapart
  | redirect phase =>
    exact h.setPhase fun m hm => h _ m (by rw [phase]; exact hm)
  | register phase =>
    exact h.setPhase (p := .registered _) fun m hm => h _ m (by rw [phase]; exact hm)
  | @remove i m phase =>
    obtain ⟨d, hd, -⟩ := (s.leave i (.left m)).removeServerSession_eq i m.serverName
    rw [hd]
    exact h.leave rfl
  | fail notCalled => exact (h.leave rfl).setVerdict nofun
  | round => exact h
  | @keep t _ _ _ toJudge => exact (h.judged t).setVerdict nofun
  | @condemn t m now₁ now₂ toJudge verdict =>
    cases t with
    | killer => exact h.condemn hseat verdict (hapart m toJudge verdict)
    | session i =>
      refine (h.judged (.session i)).condemn (hseat.judged (.session i)) verdict fun j m' hj => ?_
      refine hapart m toJudge verdict j m' ?_
      rw [State.judged, State.setPhase_phase] at hj
      split_ifs at hj
      · cases hj
      · exact hj
  | @callDestroy t m verdict =>
    exact h.setVerdict fun m₁ hm₁ i m' hi => h i m' hi t m₁ (by rw [verdict]; exact hm₁)
  | delete => exact h.setVerdict nofun

end Spared

/-! ### Destroyed servers -/

/-- A session that is yet to be registered chose a server that is still there. -/
def Alive (s : State) : Prop := ∀ i m, (s.phase i).unregistered = some m → m ∉ s.destroyed

/-- Where a record of a destroyed server is left, its deletion is still to come. -/
def Unfinished (s : State) : Prop :=
  ∀ m ∈ s.destroyed, s.db.get? m.serverName = some m →
    ∃ t m', s.verdict t = .called m' ∧ m'.serverName = m.serverName

namespace Alive

theorem setPhase (h : Alive s) {i : ℕ} {p : Phase}
    (hp : ∀ m, p.unregistered = some m → m ∉ s.destroyed) : Alive (s.setPhase i p) := by
  intro j m hj
  rw [State.setPhase_phase] at hj
  split_ifs at hj
  · exact hp m hj
  · exact h j m hj

theorem judged (h : Alive s) (t : Thread) : Alive (s.judged t) := by
  cases t with
  | killer => exact h
  | session i => exact h.setPhase nofun

theorem step (h : Alive s) (hspared : Spared s) (hunf : Unfinished s)
    (hapart : Apart providers s a) (hs : Stepped providers s a s') : Alive s' := by
  cases hs with
  | connect | load => exact h.setPhase nofun
  | pick phase mem =>
    refine h.setPhase fun m hm hdes => ?_
    cases hm
    obtain ⟨t, m', ht, hname⟩ := hunf _ hdes hapart.1
    exact hapart.2 t m' (by rw [ht]; rfl) hname
  | @create i m _ phase =>
    have hold : Alive { s with destroyed := s.destroyed.filter (· ≠ m) } :=
      fun j m' hj hdes => h j m' hj (List.mem_of_mem_filter hdes)
    exact hold.setPhase (p := .picked m) fun m' hm => by cases hm; simp
  | redirect phase =>
    exact h.setPhase fun m hm => h _ m (by rw [phase]; exact hm)
  | register => exact h.setPhase (p := .registered _) nofun
  | @remove i m phase =>
    obtain ⟨d, hd, -⟩ := (s.leave i (.left m)).removeServerSession_eq i m.serverName
    rw [hd]
    exact h.setPhase (p := .left m) nofun
  | @fail i notCalled => exact h.setPhase (i := i) (p := .ended) nofun
  | @keep t _ _ _ toJudge | @condemn t _ _ _ toJudge _ => exact h.judged t
  | round | delete => exact h
  | @callDestroy t m verdict =>
    intro i m' hi hdes
    rcases List.mem_cons.mp hdes with rfl | hdes
    · exact hspared i m' (Phase.uses_of_unregistered hi) t m' (by rw [verdict]; rfl) rfl
    · exact h i m' hi hdes

end Alive

namespace Unfinished

/-- Nobody who has called `destroy_server` leaves the deletion. -/
theorem setVerdict (h : Unfinished s) {t : Thread} {v : Verdict}
    (ht : ∀ m, s.verdict t ≠ .called m) : Unfinished (s.setVerdict t v) := by
  intro m hm hrec
  obtain ⟨t', m', ht', hname⟩ := h m hm hrec
  refine ⟨t', m', ?_, hname⟩
  rw [State.setVerdict_verdict, if_neg, ht']
  rintro rfl
  exact ht m' ht'

theorem judged (h : Unfinished s) (t : Thread) : Unfinished (s.judged t) := by
  cases t <;> exact h

theorem step (h : Unfinished s) (hs : Stepped providers s a s') : Unfinished s' := by
  cases hs with
  | connect | load | pick | redirect | register | round => exact h
  | @create i m _ phase =>
    intro m' hm' hrec
    obtain ⟨hm', hne⟩ := List.mem_filter.mp hm'
    refine h m' hm' ?_
    rw [mergeServers_new, OrderedDict.get?_insert] at hrec
    split_ifs at hrec
    · cases hrec; simp at hne
    · exact hrec
  | @remove i m phase =>
    obtain ⟨d, hd, -⟩ := (s.leave i (.left m)).removeServerSession_eq i m.serverName
    rw [hd]
    exact h
  | @fail i notCalled => exact h.setVerdict (s := s.leave i .ended) notCalled
  | @keep t _ _ _ toJudge | @condemn t _ _ _ toJudge _ =>
    refine (h.judged t).setVerdict fun m hm => ?_
    have hnone := toJudge_verdict toJudge
    cases t <;> · rw [State.judged] at hm; cases hnone.symm.trans hm
  | @callDestroy t m verdict =>
    intro m' hm' hrec
    rcases List.mem_cons.mp hm' with rfl | hm'
    · exact ⟨t, m', by simp, rfl⟩
    · refine h.setVerdict (fun m₁ hm₁ => ?_) m' hm' hrec
      rw [verdict] at hm₁
      cases hm₁
  | @delete t m verdict =>
    intro m' hm' hrec
    rw [mergeServers_deleted, OrderedDict.get?_erase] at hrec
    split_ifs at hrec with hname
    obtain ⟨t', m'', ht', hname'⟩ := h m' hm' hrec
    refine ⟨t', m'', ?_, hname'⟩
    change (s.setVerdict t .none).verdict t' = _
    rw [State.setVerdict_verdict, if_neg, ht']
    rintro rfl
    cases ht'.symm.trans verdict
    exact hname hname'.symm

end Unfinished

/-! ### Runs -/

structure Inv (s : State) : Prop where
  seated : Seated s
  spared : Spared s
  alive : Alive s
  unfinished : Unfinished s

theorem Inv.step (h : Inv s) (hapart : Apart providers s a) (hs : step providers s a = some s') :
    Inv s' := by
  have hs := stepped_of_step hs
  exact ⟨h.seated.step hs, h.spared.step h.seated hapart hs,
    h.alive.step h.spared h.unfinished hapart hs, h.unfinished.step hs⟩

theorem Inv.safe (h : Inv s) (a : Action) : Safe s a := by
  cases a with
  | callDestroy t =>
    intro m ht i m' hi heq
    exact h.spared i m' hi t m (by rw [ht]; rfl) heq.symm
  | redirect i => exact fun m hi => h.alive i m (by rw [hi]; rfl)
  | _ => trivial

/-- Before anybody has connected. -/
theorem inv_init (db : ServerMap) : Inv { db } where
  seated := ⟨nofun, nofun, nofun⟩
  spared := nofun
  alive := nofun
  unfinished := nofun

/-- In a run whose windows do not overlap, every step is safe. -/
theorem safe_of_apart (db : ServerMap) (as : List Action)
    (h : Along (step providers) (Apart providers) { db } as) :
    Along (step providers) (fun s a => Safe s a) { db } as :=
  along_of_invariant (fun hc hi hs => hi.step hc hs) (fun _ hi => hi.safe _) h (inv_init db)

/-- Two sessions use a server each; the first one leaves its server and destroys it, and then
the killer looks at the other one. -/
theorem safe_of_apart_two :
    let a : LBServerMeta :=
      { providerName := "p", workspace := .parse "/p/a", serverName := "a", createdTimestamp := 0 }
    let b : LBServerMeta := { a with workspace := .parse "/p/b", serverName := "b" }
    let providers : Providers :=
      .ofPairs [("p", ⟨"p", { minLifeToLive := some "0s" }, .parse "/p", .ignite {}⟩)]
    Along (step providers) (fun s a => Safe s a) { db := .ofPairs [("a", a), ("b", b)] }
      [.connect 0 ("10.0.0.1", 50022), .connect 1 ("10.0.0.1", 50023), .load 0, .load 1, .pick 0 a,
        .pick 1 b, .redirect 0, .redirect 1, .register 0, .register 1, .remove 0,
        .judge (.session 0) 60 60, .callDestroy (.session 0), .delete (.session 0), .round,
        .judge .killer 60 60] := by
  intro a b providers
  have hidle : ∀ {s : State} {serverName : String}, (∀ t, s.verdict t = .none) →
      s.Uncondemned serverName := by
    intro s serverName hverdict t m ht
    rw [hverdict t] at ht
    cases ht
  refine safe_of_apart _ _ ?_
  refine (along_cons rfl).mpr ⟨trivial, (along_cons rfl).mpr ⟨trivial, ?_⟩⟩
  refine (along_cons rfl).mpr ⟨trivial, (along_cons rfl).mpr ⟨trivial, ?_⟩⟩
  refine (along_cons rfl).mpr ⟨⟨rfl, hidle fun _ => rfl⟩, ?_⟩
  refine (along_cons rfl).mpr ⟨⟨rfl, hidle fun _ => rfl⟩, ?_⟩
  refine (along_cons rfl).mpr ⟨trivial, (along_cons rfl).mpr ⟨trivial, ?_⟩⟩
  refine (along_cons rfl).mpr ⟨trivial, (along_cons rfl).mpr ⟨trivial, ?_⟩⟩
  refine (along_cons rfl).mpr ⟨trivial, (along_cons rfl).mpr ⟨?_, ?_⟩⟩
  · -- the other session has registered
    intro m _ _ i m' hi
    rcases i with _ | _ | i <;> cases hi
  refine (along_cons rfl).mpr ⟨trivial, (along_cons rfl).mpr ⟨trivial, ?_⟩⟩
  refine (along_cons rfl).mpr ⟨trivial, (along_cons rfl).mpr ⟨?_, trivial⟩⟩
  intro m _ _ i m' hi
  rcases i with _ | _ | i <;> cases hi

/-- The killer destroys a server that a session has chosen and not yet registered; and a
session chooses from what it loaded before the killer destroyed the server. -/
theorem destroyed_while_chosen :
    let a : LBServerMeta :=
      { providerName := "p", workspace := .parse "/p/a", serverName := "a", createdTimestamp := 0 }
    let providers : Providers :=
      .ofPairs [("p", ⟨"p", { minLifeToLive := some "0s" }, .parse "/p", .ignite {}⟩)]
    ¬ Along (step providers) (fun s a => Safe s a) { db := .ofPairs [("a", a)] }
      [.connect 0 ("10.0.0.1", 50022), .load 0, .pick 0 a, .round, .judge .killer 60 60,
        .callDestroy .killer] ∧
    ¬ Along (step providers) (fun s a => Safe s a) { db := .ofPairs [("a", a)] }
      [.connect 0 ("10.0.0.1", 50022), .load 0, .round, .judge .killer 60 60, .callDestroy .killer,
        .delete .killer, .pick 0 a, .redirect 0] := by
  intro a providers
  constructor
  · intro h
    have h := ((along_cons rfl).mp ((along_cons rfl).mp ((along_cons rfl).mp h).2).2).2
    have h := ((along_cons rfl).mp ((along_cons rfl).mp h).2).2
    exact h.1 a rfl 0 a rfl rfl
  · intro h
    have h := ((along_cons rfl).mp ((along_cons rfl).mp ((along_cons rfl).mp h).2).2).2
    have h := ((along_cons rfl).mp ((along_cons rfl).mp ((along_cons rfl).mp h).2).2).2
    have h := ((along_cons rfl).mp h).2
    exact h.1 a rfl (List.mem_cons_self ..)

end Lobbyboy.Daemon
