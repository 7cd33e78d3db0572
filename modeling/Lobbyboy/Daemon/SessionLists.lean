import Lobbyboy.Daemon.Threads
import Lobbyboy.Foundation.ListTable

/-! The session table as Python has it: lists that are appended to in place, and that
`remove_server_session` filters, element by element, into a new list. Between any two steps
of one thread others take theirs; the lock and distinct peers make the table exact. -/

namespace Lobbyboy.Daemon

open Foundation Utils

namespace SessionLists

/-- Where a thread is: `found` has the list that `setdefault` returned, `filtering` the one
that is filtered, what is kept of it so far and the place of the next element. -/
inductive Phase
  | out
  | entered (serverName : String)
  | found (serverName : String) (sessions : ℕ)
  | appended (serverName : String)
  | registered (serverName : String)
  | leaving (serverName : String)
  | filtering (serverName : String) (sessions : ℕ) (kept : List Transport) (index : ℕ)
  | rebound

namespace Phase

/-- In a `with active_session_lock` block. -/
def locked : Phase → Bool
  | .out | .registered _ => false
  | _ => true

/-- The server under which the transport has been appended and not been removed. -/
def server? : Phase → Option String
  | .appended name | .registered name | .leaving name | .filtering name _ _ _ => some name
  | _ => none

@[simp] theorem server?_appended (name : String) : (appended name).server? = some name := rfl

@[simp] theorem server?_rebound : rebound.server? = none := rfl

end Phase

structure State where
  active : ListTable String Transport := .empty
  lock : Option ℕ := none
  phase : ℕ → Phase := fun _ => .out

inductive Action
  | acquire (i : ℕ) (serverName : String)
  | setdefault (i : ℕ)
  | append (i : ℕ)
  | release (i : ℕ)
  | leave (i : ℕ)
  | get (i : ℕ)
  | examine (i : ℕ)
  | rebind (i : ℕ)

namespace State

variable (s : State)

def setPhase (i : ℕ) (p : Phase) : State := { s with phase := Function.update s.phase i p }

def setActive (active : ListTable String Transport) : State := { s with active := active }

def setLock (lock : Option ℕ) : State := { s with lock := lock }

@[simp] theorem setPhase_phase (i j : ℕ) (p : Phase) :
    (s.setPhase i p).phase j = if j = i then p else s.phase j := Function.update_apply ..

@[simp] theorem setPhase_active (i : ℕ) (p : Phase) : (s.setPhase i p).active = s.active := rfl

@[simp] theorem setPhase_lock (i : ℕ) (p : Phase) : (s.setPhase i p).lock = s.lock := rfl

@[simp] theorem setActive_phase (active : ListTable String Transport) :
    (s.setActive active).phase = s.phase := rfl

@[simp] theorem setActive_active (active : ListTable String Transport) :
    (s.setActive active).active = active := rfl

@[simp] theorem setActive_lock (active : ListTable String Transport) :
    (s.setActive active).lock = s.lock := rfl

@[simp] theorem setLock_phase (lock : Option ℕ) : (s.setLock lock).phase = s.phase := rfl

@[simp] theorem setLock_active (lock : Option ℕ) : (s.setLock lock).active = s.active := rfl

@[simp] theorem setLock_lock (lock : Option ℕ) : (s.setLock lock).lock = lock := rfl

end State

variable (peer : ℕ → String × ℕ)

/-- The transport of a thread. -/
def transport (i : ℕ) : Transport := ⟨i, peer i⟩

/-- The filter looks at one more element. -/
def keep (i : ℕ) (kept : List Transport) (x : Transport) : List Transport :=
  if x.peer ≠ peer i then kept ++ [x] else kept

/-- One step of one thread; `none` when it is somewhere else or waits for the lock. -/
def step (s : State) : Action → Option State
  | .acquire i name =>
    match s.phase i, s.lock with
    | .out, none => some ((s.setPhase i (.entered name)).setLock (some i))
    | _, _ => none
  | .setdefault i =>
    match s.phase i with
    | .entered name =>
      let (sessions, active) := s.active.setdefault name
      some ((s.setPhase i (.found name sessions)).setActive active)
    | _ => none
  | .append i =>
    match s.phase i with
    | .found name sessions =>
      some ((s.setPhase i (.appended name)).setActive (s.active.append sessions (transport peer i)))
    | _ => none
  | .release i =>
    match s.phase i with
    | .appended name => some ((s.setPhase i (.registered name)).setLock none)
    | .rebound => some ((s.setPhase i .out).setLock none)
    | _ => none
  | .leave i =>
    match s.phase i, s.lock with
    | .registered name, none => some ((s.setPhase i (.leaving name)).setLock (some i))
    | _, _ => none
  | .get i =>
    match s.phase i with
    | .leaving name =>
      match s.active.table.get? name with
      | some sessions =>
        -- an empty list is as good as none
        if s.active.lists sessions = [] then some (s.setPhase i .rebound)
        else some (s.setPhase i (.filtering name sessions [] 0))
      | none => some (s.setPhase i .rebound)
    | _ => none
  | .examine i =>
    match s.phase i with
    | .filtering name sessions kept index =>
      (s.active.lists sessions)[index]?.map fun x =>
        s.setPhase i (.filtering name sessions (keep peer i kept x) (index + 1))
    | _ => none
  | .rebind i =>
    match s.phase i with
    | .filtering name sessions kept index =>
      if (s.active.lists sessions)[index]? = none then
        some ((s.setPhase i .rebound).setActive (s.active.rebind name kept))
      else none
    | _ => none

/-! ### What a step does -/

/-- The steps, each with its guard and the state it leads to. -/
inductive Stepped (s : State) : Action → State → Prop
  | acquire {i : ℕ} {name : String} (phase : s.phase i = .out) (free : s.lock = none) :
      Stepped s (.acquire i name) ((s.setPhase i (.entered name)).setLock (some i))
  | setdefault {i : ℕ} {name : String} (phase : s.phase i = .entered name) :
      Stepped s (.setdefault i) ((s.setPhase i (.found name (s.active.setdefault name).1)).setActive
        (s.active.setdefault name).2)
  | append {i : ℕ} {name : String} {sessions : ℕ} (phase : s.phase i = .found name sessions) :
      Stepped s (.append i) ((s.setPhase i (.appended name)).setActive
        (s.active.append sessions (transport peer i)))
  | register {i : ℕ} {name : String} (phase : s.phase i = .appended name) :
      Stepped s (.release i) ((s.setPhase i (.registered name)).setLock none)
  | finish {i : ℕ} (phase : s.phase i = .rebound) :
      Stepped s (.release i) ((s.setPhase i .out).setLock none)
  | leave {i : ℕ} {name : String} (phase : s.phase i = .registered name) (free : s.lock = none) :
      Stepped s (.leave i) ((s.setPhase i (.leaving name)).setLock (some i))
  | skip {i : ℕ} {name : String} (phase : s.phase i = .leaving name)
      (nothing : s.active.contents name = []) : Stepped s (.get i) (s.setPhase i .rebound)
  | get {i : ℕ} {name : String} {sessions : ℕ} (phase : s.phase i = .leaving name)
      (bound : s.active.table.get? name = some sessions) :
      Stepped s (.get i) (s.setPhase i (.filtering name sessions [] 0))
  | examine {i : ℕ} {name : String} {sessions : ℕ} {kept : List Transport} {index : ℕ}
      {x : Transport} (phase : s.phase i = .filtering name sessions kept index)
      (element : (s.active.lists sessions)[index]? = some x) : Stepped s (.examine i)
        (s.setPhase i (.filtering name sessions (keep peer i kept x) (index + 1)))
  | rebind {i : ℕ} {name : String} {sessions : ℕ} {kept : List Transport} {index : ℕ}
      (phase : s.phase i = .filtering name sessions kept index)
      (exhausted : (s.active.lists sessions)[index]? = none) :
      Stepped s (.rebind i) ((s.setPhase i .rebound).setActive (s.active.rebind name kept))

theorem stepped_of_step {s s' : State} {a : Action} (h : step peer s a = some s') :
    Stepped peer s a s' := by
  cases a with
  | acquire i name =>
    simp only [step] at h
    split at h
    · next hi hfree =>
      cases h
      exact .acquire hi hfree
    · cases h
  | setdefault i =>
    simp only [step] at h
    split at h
    · next hi =>
      cases h
      exact .setdefault hi
    · cases h
  | append i =>
    simp only [step] at h
    split at h
    · next hi =>
      cases h
      exact .append hi
    · cases h
  | release i =>
    simp only [step] at h
    split at h
    · next hi =>
      cases h
      exact .register hi
    · next hi =>
      cases h
      exact .finish hi
    · cases h
  | leave i =>
    simp only [step] at h
    split at h
    · next hi hfree =>
      cases h
      exact .leave hi hfree
    · cases h
  | get i =>
    simp only [step] at h
    split at h
    · next hi =>
      split at h
      · next hbound =>
        split_ifs at h with hempty
        · cases h
          exact .skip hi (by rw [ListTable.contents_of_get? hbound, hempty])
        · cases h
          exact .get hi hbound
      · next hbound =>
        cases h
        exact .skip hi (ListTable.contents_of_none hbound)
    · cases h
  | examine i =>
    simp only [step] at h
    split at h
    · next hi =>
      obtain ⟨x, hx, rfl⟩ := Option.map_eq_some_iff.mp h
      exact .examine hi hx
    · cases h
  | rebind i =>
    simp only [step] at h
    split at h
    · next hi =>
      split_ifs at h with hend
      cases h
      exact .rebind hi hend
    · cases h

/-! ### The lock -/

variable {peer}

/-- What a thread inside a block knows of the table. -/
def Knows (peer : ℕ → String × ℕ) (active : ListTable String Transport) (i : ℕ) : Phase → Prop
  | .found name sessions => active.table.get? name = some sessions
  | .filtering name sessions kept index => active.table.get? name = some sessions ∧
      kept = ((active.lists sessions).take index).filter (·.peer ≠ peer i)
  | _ => True

/-- Only the thread that holds the lock is inside a block, and what it knows is so. -/
def Guarded (peer : ℕ → String × ℕ) (s : State) : Prop :=
  ∀ i, (s.phase i).locked → s.lock = some i ∧ Knows peer s.active i (s.phase i)

section Guarded

variable {s : State} {i : ℕ} {p p' : Phase}

theorem Guarded.lock (h : Guarded peer s) (hi : s.phase i = p) (hp : p.locked) : s.lock = some i :=
  (h i (hi ▸ hp)).1

theorem Guarded.knows (h : Guarded peer s) (hi : s.phase i = p) (hp : p.locked) :
    Knows peer s.active i p := by
  subst hi
  exact (h i hp).2

theorem Guarded.inside (h : Guarded peer s) (hi : s.phase i = p) (hp : p.locked)
    {active : ListTable String Transport} (hp' : Knows peer active i p') :
    Guarded peer ((s.setPhase i p').setActive active) := by
  have hlock := h.lock hi hp
  intro j hj
  simp only [State.setActive_phase, State.setPhase_phase, State.setActive_lock,
    State.setPhase_lock, State.setActive_active] at hj ⊢
  by_cases hji : j = i
  · subst hji
    rw [if_pos rfl]
    exact ⟨hlock, hp'⟩
  · rw [if_neg hji] at hj
    exact absurd (Option.some.inj ((h j hj).1.symm.trans hlock)) hji

theorem Guarded.enter (h : Guarded peer s) (hfree : s.lock = none) (hp : Knows peer s.active i p) :
    Guarded peer ((s.setPhase i p).setLock (some i)) := by
  intro j hj
  simp only [State.setLock_phase, State.setPhase_phase, State.setLock_lock, State.setLock_active,
    State.setPhase_active] at hj ⊢
  by_cases hji : j = i
  · subst hji
    rw [if_pos rfl]
    exact ⟨rfl, hp⟩
  · rw [if_neg hji] at hj
    exact nomatch hfree.symm.trans (h j hj).1

theorem Guarded.exit (h : Guarded peer s) (hi : s.phase i = p) (hp : p.locked)
    (hp' : p'.locked = false) : Guarded peer ((s.setPhase i p').setLock none) := by
  intro j hj
  simp only [State.setLock_phase, State.setPhase_phase] at hj
  split_ifs at hj with hji
  · rw [hp'] at hj
    cases hj
  · exact absurd (Option.some.inj ((h j hj).1.symm.trans (h.lock hi hp))) hji

end Guarded

theorem keep_filter_take (i : ℕ) {xs : List Transport} {n : ℕ} {x : Transport}
    (h : xs[n]? = some x) :
    keep peer i ((xs.take n).filter (·.peer ≠ peer i)) x =
      (xs.take (n + 1)).filter (·.peer ≠ peer i) := by
  rw [List.take_add_one, h, List.filter_append, keep]
  split_ifs with hx <;> simp [hx]

theorem guarded_step {s s' : State} {a : Action} (h : Guarded peer s)
    (hstep : step peer s a = some s') : Guarded peer s' := by
  cases stepped_of_step peer hstep with
  | acquire _ hfree => exact h.enter hfree trivial
  | setdefault hi => exact h.inside hi rfl (ListTable.get?_setdefault ..)
  | append hi => exact h.inside hi rfl trivial
  | register hi => exact h.exit hi rfl rfl
  | finish hi => exact h.exit hi rfl rfl
  | leave _ hfree => exact h.enter hfree trivial
  | skip hi => exact h.inside hi rfl trivial
  | get hi hbound => exact h.inside hi rfl ⟨hbound, rfl⟩
  | @examine i name sessions kept index x hi hx =>
    have hknows := h.knows hi rfl
    exact h.inside hi rfl ⟨hknows.1, by rw [hknows.2, keep_filter_take i hx]⟩
  | rebind hi => exact h.inside hi rfl trivial

/-! ### The table -/

theorem transport_injective : Function.Injective (transport peer) :=
  fun _ _ h => congrArg Transport.ident h

/-- Under each server are the transports that were appended and not removed, each once. -/
structure Exact (peer : ℕ → String × ℕ) (s : State) : Prop where
  nodup : ∀ name, (s.active.contents name).Nodup
  own : ∀ {name t}, t ∈ s.active.contents name → ∃ i, t = transport peer i
  transport_mem : ∀ {i name}, transport peer i ∈ s.active.contents name ↔
    (s.phase i).server? = some name

/-- The transports that are registered at the same time have different peers. -/
def Distinct (peer : ℕ → String × ℕ) (s : State) : Prop :=
  ∀ i j, (s.phase i).server?.isSome → (s.phase j).server?.isSome → peer i = peer j → i = j

section Exact

variable {s s' : State} {i : ℕ} {p p' : Phase}

theorem server?_setPhase (j : ℕ) :
    ((s.setPhase i p).phase j).server? = if j = i then p.server? else (s.phase j).server? := by
  rw [State.setPhase_phase]
  split_ifs <;> rfl

theorem Exact.mem_iff (h : Exact peer s) {name : String} {t : Transport} :
    t ∈ s.active.contents name ↔ ∃ i, t = transport peer i ∧ (s.phase i).server? = some name := by
  constructor
  · intro ht
    obtain ⟨i, rfl⟩ := h.own ht
    exact ⟨i, rfl, h.transport_mem.mp ht⟩
  · rintro ⟨i, rfl, hi⟩
    exact h.transport_mem.mpr hi

theorem Exact.congr (h : Exact peer s)
    (hcontents : ∀ name, s'.active.contents name = s.active.contents name)
    (hserver : ∀ i, (s'.phase i).server? = (s.phase i).server?) : Exact peer s' where
  nodup name := by
    rw [hcontents]
    exact h.nodup name
  own ht := by
    rw [hcontents] at ht
    exact h.own ht
  transport_mem := by
    intro i name
    rw [hcontents, hserver]
    exact h.transport_mem

/-- A thread that moves on without a change of the table. -/
theorem Exact.moved (h : Exact peer s) (hi : s.phase i = p) (hp : p'.server? = p.server?)
    {active : ListTable String Transport}
    (hactive : ∀ name, active.contents name = s.active.contents name) (lock : Option ℕ) :
    Exact peer (((s.setPhase i p').setActive active).setLock lock) := by
  refine h.congr hactive fun j => ?_
  rw [State.setLock_phase, State.setActive_phase, server?_setPhase]
  split_ifs with hj
  · rw [hj, hi, hp]
  · rfl

theorem Exact.append (h : Exact peer s) {name : String} {sessions : ℕ}
    (hi : s.phase i = .found name sessions) (hbound : s.active.table.get? name = some sessions) :
    Exact peer ((s.setPhase i (.appended name)).setActive
      (s.active.append sessions (transport peer i))) := by
  have hnew : ∀ name, transport peer i ∉ s.active.contents name := by
    intro name hmem
    rw [h.transport_mem, hi] at hmem
    cases hmem
  constructor
  · intro name'
    rw [State.setActive_active, ListTable.contents_append _ _ hbound]
    split_ifs
    · exact (h.nodup name).append (List.nodup_singleton _) (by simpa using hnew name)
    · exact h.nodup name'
  · intro name' t ht
    rw [State.setActive_active, ListTable.contents_append _ _ hbound] at ht
    split_ifs at ht
    · rcases List.mem_append.mp ht with hold | ht
      · exact h.own hold
      · exact ⟨i, List.mem_singleton.mp ht⟩
    · exact h.own ht
  · intro j name'
    rw [State.setActive_active, ListTable.contents_append _ _ hbound, State.setActive_phase,
      server?_setPhase]
    by_cases hji : j = i
    · subst hji
      by_cases hname : name' = name
      · simp [hname]
      · simp [hname, hnew, Ne.symm hname]
    · have hne : transport peer j ≠ transport peer i := fun heq => hji (transport_injective heq)
      by_cases hname : name' = name <;> simp [hname, hji, hne, h.transport_mem]

theorem Exact.rebind (h : Exact peer s) (hdistinct : Distinct peer s) {name : String}
    (hi : (s.phase i).server? = some name) {kept : List Transport}
    (hkept : kept = (s.active.contents name).filter (·.peer ≠ peer i)) :
    Exact peer ((s.setPhase i .rebound).setActive (s.active.rebind name kept)) := by
  subst hkept
  constructor
  · intro name'
    rw [State.setActive_active, ListTable.contents_rebind]
    split_ifs
    · exact (h.nodup name).filter _
    · exact h.nodup name'
  · intro name' t ht
    rw [State.setActive_active, ListTable.contents_rebind] at ht
    split_ifs at ht
    · exact h.own (List.mem_filter.mp ht).1
    · exact h.own ht
  · intro j name'
    rw [State.setActive_active, ListTable.contents_rebind, State.setActive_phase, server?_setPhase]
    by_cases hji : j = i
    · subst hji
      by_cases hname : name' = name
      · simp [hname, transport]
      · simp [hname, h.transport_mem, hi, Ne.symm hname]
    · by_cases hname : name' = name
      · -- the peer of another transport under this server is another one
        have hpeer : (s.phase j).server? = some name → (transport peer j).peer ≠ peer i :=
          fun hj heq => hji (hdistinct j i (by rw [hj]; rfl) (by rw [hi]; rfl) heq)
        simpa [hname, hji, h.transport_mem] using hpeer
      · simp [hname, hji, h.transport_mem]

end Exact

theorem exact_step {s s' : State} {a : Action} (hdistinct : Distinct peer s)
    (h : Guarded peer s) (he : Exact peer s) (hstep : step peer s a = some s') :
    Exact peer s' := by
  cases stepped_of_step peer hstep with
  | acquire hi => exact he.moved hi (by rfl) (fun _ => rfl) _
  | setdefault hi => exact he.moved hi (by rfl) (fun _ => ListTable.contents_setdefault ..) _
  | append hi => exact he.append hi (h.knows hi rfl)
  | register hi => exact he.moved hi (by rfl) (fun _ => rfl) _
  | finish hi => exact he.moved hi (by rfl) (fun _ => rfl) _
  | leave hi => exact he.moved hi (by rfl) (fun _ => rfl) _
  | @skip i name hi hnothing =>
    -- the list has at least the thread's own transport
    have hmem := he.transport_mem.mpr (by rw [hi]; rfl : (s.phase i).server? = some name)
    rw [hnothing] at hmem
    exact absurd hmem List.not_mem_nil
  | get hi => exact he.moved hi (by rfl) (fun _ => rfl) _
  | examine hi => exact he.moved hi (by rfl) (fun _ => rfl) _
  | rebind hi hend =>
    have hknows := h.knows hi rfl
    refine he.rebind hdistinct (by rw [hi]; rfl) ?_
    rw [ListTable.contents_of_get? hknows.1, hknows.2,
      List.take_of_length_le (List.getElem?_eq_none_iff.mp hend)]

/-- After any steps of any threads, where no two transports that are registered at the same
time have one peer, each server has exactly the transports that were appended under it and
not yet removed, each once. -/
theorem sessions_exact {as : List Action} {s : State}
    (hdistinct : Along (step peer) (fun s _ => Distinct peer s) {} as)
    (hr : run (step peer) {} as = some s) (name : String) :
    (s.active.contents name).Nodup ∧ ∀ t, t ∈ s.active.contents name ↔
      ∃ i, t = transport peer i ∧ (s.phase i).server? = some name := by
  have hstart : Guarded peer {} ∧ Exact peer {} := by
    exact ⟨fun i hi => (nomatch hi), fun name => List.nodup_nil, by simp, by simp [Phase.server?]⟩
  have hend : Guarded peer s ∧ Exact peer s :=
    run_invariant (P := fun s => Guarded peer s ∧ Exact peer s)
      (fun hd h hstep => ⟨guarded_step h.1 hstep, exact_step hd h.1 h.2 hstep⟩) hdistinct hstart hr
  exact ⟨hend.2.nodup name, fun t => hend.2.mem_iff⟩

/-- Two sessions on one server; the first one leaves, and the transport of the other one is
left. -/
theorem sessions_exact_two :
    let peer : ℕ → String × ℕ := fun i => ("192.0.2.1", i)
    let as : List Action := [.acquire 0 "a", .setdefault 0, .append 0, .release 0, .acquire 1 "a",
      .setdefault 1, .append 1, .release 1, .leave 0, .get 0, .examine 0, .examine 0, .rebind 0]
    ∃ s, run (step peer) {} as = some s ∧ s.active.contents "a" = [transport peer 1] ∧
      (s.active.contents "a").Nodup ∧ ∀ t, t ∈ s.active.contents "a" ↔
        ∃ i, t = transport peer i ∧ (s.phase i).server? = some "a" := by
  intro peer as
  have hcontents : (run (step peer) {} as).map (fun s => s.active.contents "a") =
      some [transport peer 1] := by decide +kernel
  obtain ⟨s, hr, hleft⟩ := Option.map_eq_some_iff.mp hcontents
  have hdistinct : Along (step peer) (fun s _ => Distinct peer s) {} as :=
    along_of_forall (fun _ _ _ i j _ _ h => (Prod.mk.inj h).2) _
  exact ⟨s, hr, hleft, sessions_exact hdistinct hr "a"⟩

/-! ### Registration and removal as single steps -/

/-- Seen from outside the blocks, an append and a rebinding are the registration and the
removal of the daemon's steps, and nothing else changes the table. -/
theorem contents_step {s s' : State} {a : Action} {d : Daemon.State} (hpeer : d.peer = peer)
    (hd : ∀ name, s.active.contents name = d.activeSession.sessions name)
    (h : Guarded peer s) (hstep : step peer s a = some s') :
    (∀ name, s'.active.contents name = d.activeSession.sessions name) ∨
      (∃ i serverName, a = .append i ∧ ∀ name, s'.active.contents name =
        (d.activeSession.register serverName (d.transport i)).sessions name) ∨
      ∃ i serverName, a = .rebind i ∧ ∀ name, s'.active.contents name =
        (d.removeServerSession i serverName).activeSession.sessions name := by
  subst hpeer
  cases stepped_of_step _ hstep with
  | setdefault =>
    refine .inl fun name => ?_
    rw [State.setActive_active, ListTable.contents_setdefault, hd]
  | @append i serverName sessions hi =>
    have hbound := h.knows hi rfl
    refine .inr (.inl ⟨i, serverName, rfl, fun name => ?_⟩)
    rw [State.setActive_active, ListTable.contents_append _ _ hbound,
      ActiveSession.sessions_register, hd, hd]
    rfl
  | @rebind i serverName sessions kept index hi hend =>
    have hknows := h.knows hi rfl
    refine .inr (.inr ⟨i, serverName, rfl, fun name => ?_⟩)
    obtain ⟨d', heq, hsessions⟩ := d.removeServerSession_eq i serverName
    rw [State.setActive_active, ListTable.contents_rebind, heq, hsessions, hknows.2,
      List.take_of_length_le (List.getElem?_eq_none_iff.mp hend),
      ← ListTable.contents_of_get? hknows.1, ← hd]
    split_ifs with hname
    · rw [hname]
    · rfl
  | _ => exact .inl hd

end SessionLists

end Lobbyboy.Daemon
