import Lobbyboy.Foundation.Transition
import Lobbyboy.Server.WindowSize

/-! The descriptors of the daemon over the connections that it serves. `openpty` makes two of
them for every request of a client for a pty; the cleanup at the end of a session closes the
transport, and nothing closes the pty. -/

namespace Lobbyboy.Daemon

open Foundation Server

namespace PtyDescriptors

/-- `serving` has a `Server` that answers requests, `redirected` a proxy process; `closed`
has been cleaned up. -/
inductive Phase
  | absent
  | connected
  | serving
  | redirected
  | closed
  | returned
  deriving DecidableEq

/-- Why `SocketHandlerThread.run` comes to its cleanup. -/
inductive Ending
  | noChannel
  | noShell
  | userCancel
  | providerError
  | proxyExit
  | exception

/-- The transport answers requests as long as none has raised. -/
structure State where
  kernel : Kernel := {}
  server : ℕ → Server := fun _ => {}
  phase : ℕ → Phase := fun _ => .absent
  socket : ℕ → Option ℕ := fun _ => none
  broken : ℕ → Bool := fun _ => false
  opened : ℕ → List ℕ := fun _ => []

inductive Action
  | accept (i fd : ℕ)
  | startServer (i : ℕ)
  | pty (i : ℕ) (opened : Except PyExc (ℕ × ℕ)) (r : WindowSize.Request)
  | redirect (i : ℕ)
  | cleanup (i : ℕ) (ending : Ending)
  | finish (i : ℕ)

/-- How a session can end in this phase. -/
def Phase.ends : Phase → Ending → Bool
  | .connected, .noChannel | .connected, .exception => true
  | .serving, .proxyExit => false
  | .serving, _ => true
  | .redirected, .proxyExit | .redirected, .exception => true
  | _, _ => false

def Phase.answers : Phase → Bool
  | .serving | .redirected => true
  | _ => false

namespace State

variable (s : State)

def setPhase (i : ℕ) (p : Phase) : State := { s with phase := Function.update s.phase i p }

/-- The descriptor of the client's socket. -/
def accepted (i fd : ℕ) : State :=
  { s.setPhase i .connected with
    kernel := { s.kernel with fds := s.kernel.fds.insert fd (.socket i) }
    socket := Function.update s.socket i (some fd) }

/-- The pty that the request opens, if it opens one, is the next one of the kernel. -/
def note (i : ℕ) : Except PyExc (ℕ × ℕ) → State
  | .ok _ => { s with opened := Function.update s.opened i (s.kernel.ptys :: s.opened i) }
  | .error _ => s

def setHost (i : ℕ) (host : Host) : State :=
  { s with server := Function.update s.server i host.server, kernel := host.kernel }

/-- `check_channel_pty_request` of the connection. -/
def servePty (i : ℕ) (opened : Except PyExc (ℕ × ℕ)) (r : WindowSize.Request) : State :=
  match WindowSize.ptyRequest opened r ⟨s.server i, s.kernel⟩ with
  | .ok _ host => (s.note i opened).setHost i host
  | .error _ host =>
    { (s.note i opened).setHost i host with broken := Function.update s.broken i true }

/-- `t.close()`. -/
def close (i : ℕ) : State :=
  match s.socket i with
  | some fd => { s with
      kernel := { s.kernel with fds := s.kernel.fds.erase fd }
      socket := Function.update s.socket i none }
  | none => s

end State

def step (s : State) : Action → Option State
  | .accept i fd =>
    if s.phase i = .absent ∧ fd ∉ s.kernel.fds.keys then some (s.accepted i fd) else none
  | .startServer i => if s.phase i = .connected then some (s.setPhase i .serving) else none
  | .pty i opened r =>
    if (s.phase i).answers ∧ s.broken i = false ∧ s.kernel.unused opened then
      some (s.servePty i opened r)
    else none
  | .redirect i => if s.phase i = .serving then some (s.setPhase i .redirected) else none
  -- every `cleanup(t, ...)` of `run` comes to this
  | .cleanup i ending =>
    if (s.phase i).ends ending then some ((s.setPhase i .closed).close i) else none
  | .finish i => if s.phase i = .closed then some (s.setPhase i .returned) else none

/-! ### What a step does -/

/-- The steps, each with its guard and the state it leads to. -/
inductive Stepped (s : State) : Action → State → Prop
  | accept {i fd : ℕ} (phase : s.phase i = .absent) (unused : fd ∉ s.kernel.fds.keys) :
      Stepped s (.accept i fd) (s.accepted i fd)
  | startServer {i : ℕ} (phase : s.phase i = .connected) :
      Stepped s (.startServer i) (s.setPhase i .serving)
  | pty {i : ℕ} {opened : Except PyExc (ℕ × ℕ)} {r : WindowSize.Request}
      (phase : (s.phase i).answers) (unused : s.kernel.unused opened) :
      Stepped s (.pty i opened r) (s.servePty i opened r)
  | redirect {i : ℕ} (phase : s.phase i = .serving) :
      Stepped s (.redirect i) (s.setPhase i .redirected)
  | cleanup {i : ℕ} {ending : Ending} (phase : (s.phase i).ends ending) :
      Stepped s (.cleanup i ending) ((s.setPhase i .closed).close i)
  | finish {i : ℕ} (phase : s.phase i = .closed) :
      Stepped s (.finish i) (s.setPhase i .returned)

theorem stepped_of_step {s s' : State} {a : Action} (h : step s a = some s') : Stepped s a s' := by
  cases a with
  | accept i fd =>
    rw [step] at h
    split_ifs at h with hi
    cases h
    exact .accept hi.1 hi.2
  | startServer i =>
    rw [step] at h
    split_ifs at h with hi
    cases h
    exact .startServer hi
  | pty i opened r =>
    rw [step] at h
    split_ifs at h with hi
    cases h
    exact .pty hi.1 hi.2.2
  | redirect i =>
    rw [step] at h
    split_ifs at h with hi
    cases h
    exact .redirect hi
  | cleanup i ending =>
    rw [step] at h
    split_ifs at h with hi
    cases h
    exact .cleanup hi
  | finish i =>
    rw [step] at h
    split_ifs at h with hi
    cases h
    exact .finish hi

/-! ### Open ptys -/

/-- A descriptor is an end of the pty. -/
def PtyOpen (k : Kernel) (pty : ℕ) : Prop := ∃ fd, k.pty? fd = some pty

section Kernel

variable {k k' : Kernel} {fd pty : ℕ}

theorem mem_keys_of_pty? (h : k.pty? fd = some pty) : fd ∈ k.fds.keys := by
  obtain ⟨d, hd, -⟩ := Option.bind_eq_some_iff.mp h
  exact OrderedDict.mem_keys_iff.mpr ⟨d, hd⟩

/-- A pty is open as long as its descriptors are the same. -/
theorem PtyOpen.of_get? (h : PtyOpen k pty)
    (hget : ∀ fd, k.pty? fd = some pty → k'.fds.get? fd = k.fds.get? fd) : PtyOpen k' pty := by
  obtain ⟨fd, hopen⟩ := h
  refine ⟨fd, ?_⟩
  rw [Kernel.pty?, hget fd hopen]
  exact hopen

theorem ne_of_mem_keys {d : OrderedDict ℕ Descriptor} {fd fd' : ℕ} (h : fd ∈ d.keys)
    (h' : fd' ∉ d.keys) : fd ≠ fd' := fun heq => h' (heq ▸ h)

/-- What a request for a pty does to the descriptors, whether it returns or raises. -/
def Made (k : Kernel) : Except PyExc (ℕ × ℕ) → Kernel → Prop
  | .ok (master, slave), k' => k'.fds = (k.openpty master slave).fds ∧ k'.ptys = k.ptys + 1
  | .error _, k' => k'.fds = k.fds ∧ k'.ptys = k.ptys

theorem unused_ok {master slave : ℕ} (h : k.unused (.ok (master, slave))) :
    master ≠ slave ∧ master ∉ k.fds.keys ∧ slave ∉ k.fds.keys := of_decide_eq_true h

/-- The descriptors that were there are still there. -/
theorem Made.get? {opened : Except PyExc (ℕ × ℕ)} (h : Made k opened k')
    (hunused : k.unused opened) (hfd : fd ∈ k.fds.keys) : k'.fds.get? fd = k.fds.get? fd := by
  cases opened with
  | error e => rw [h.1]
  | ok fds =>
    obtain ⟨-, hmaster, hslave⟩ := unused_ok hunused
    rw [h.1, Kernel.openpty, OrderedDict.get?_insert_of_ne (ne_of_mem_keys hfd hslave),
      OrderedDict.get?_insert_of_ne (ne_of_mem_keys hfd hmaster)]

theorem made_ptyRequest (opened : Except PyExc (ℕ × ℕ)) (r : WindowSize.Request) (host : Host) :
    wp (WindowSize.ptyRequest opened r) (fun _ host' => Made host.kernel opened host'.kernel)
      (fun _ host' => Made host.kernel opened host'.kernel) host := by
  refine wp_checkChannelPtyRequest.mpr ⟨?_, ?_⟩
  · rintro master slave rfl
    exact ⟨fun _ => ⟨rfl, rfl⟩, fun _ => ⟨rfl, rfl⟩⟩
  · rintro e rfl
    exact ⟨rfl, rfl⟩

end Kernel

section Steps

variable {s s' : State} {a : Action} {i : ℕ} {opened : Except PyExc (ℕ × ℕ)}

theorem servePty_made (s : State) (i : ℕ) (opened : Except PyExc (ℕ × ℕ))
    (r : WindowSize.Request) :
    Made s.kernel opened (s.servePty i opened r).kernel ∧
      (s.servePty i opened r).phase = s.phase ∧ (s.servePty i opened r).socket = s.socket ∧
      (s.servePty i opened r).opened = (s.note i opened).opened := by
  have hmade := made_ptyRequest opened r ⟨s.server i, s.kernel⟩
  have hnote : (s.note i opened).phase = s.phase ∧ (s.note i opened).socket = s.socket := by
    cases opened <;> exact ⟨rfl, rfl⟩
  unfold State.servePty
  cases hr : WindowSize.ptyRequest opened r ⟨s.server i, s.kernel⟩ with
  | ok b host => exact ⟨(wp_eq_ok hr).mp hmade, hnote.1, hnote.2, rfl⟩
  | error e host => exact ⟨(wp_eq_error hr).mp hmade, hnote.1, hnote.2, rfl⟩

/-- Every pty that was opened is open, and the number of a socket stands for it. -/
structure Inv (s : State) : Prop where
  kept : ∀ {i pty}, pty ∈ s.opened i → PtyOpen s.kernel pty
  socket : ∀ {i fd}, s.socket i = some fd → s.kernel.fds.get? fd = some (.socket i)

theorem Inv.socket_mem_keys (h : Inv s) {fd : ℕ} (hi : s.socket i = some fd) :
    fd ∈ s.kernel.fds.keys := OrderedDict.mem_keys_iff.mpr ⟨_, h.socket hi⟩

theorem Inv.accepted (h : Inv s) {fd : ℕ} (hfd : fd ∉ s.kernel.fds.keys) :
    Inv (s.accepted i fd) := by
  constructor
  · intro j p hp
    exact (h.kept hp).of_get? fun fd' hfd' =>
      OrderedDict.get?_insert_of_ne (ne_of_mem_keys (mem_keys_of_pty? hfd') hfd)
  · intro j fd' hj
    simp only [State.accepted, Function.update_apply] at hj ⊢
    split_ifs at hj with hji
    · cases hj
      rw [OrderedDict.get?_insert_self, hji]
    · rw [OrderedDict.get?_insert_of_ne (ne_of_mem_keys (h.socket_mem_keys hj) hfd)]
      exact h.socket hj

theorem Inv.servePty (h : Inv s) (r : WindowSize.Request) (hunused : s.kernel.unused opened) :
    Inv (s.servePty i opened r) := by
  obtain ⟨hmade, -, hsocket, hopened⟩ := servePty_made s i opened r
  have hold : ∀ {p}, PtyOpen s.kernel p → PtyOpen (s.servePty i opened r).kernel p := fun hp =>
    hp.of_get? fun fd hfd => hmade.get? hunused (mem_keys_of_pty? hfd)
  constructor
  · intro j p hp
    rw [hopened] at hp
    cases opened with
    | error e => exact hold (h.kept hp)
    | ok fds =>
      simp only [State.note, Function.update_apply] at hp
      split_ifs at hp with hji
      · rcases List.mem_cons.mp hp with rfl | hp
        · refine ⟨fds.2, ?_⟩
          rw [Kernel.pty?, hmade.1, Kernel.openpty, OrderedDict.get?_insert_self]
          rfl
        · exact hold (h.kept hp)
      · exact hold (h.kept hp)
  · intro j fd hj
    rw [hsocket] at hj
    rw [hmade.get? hunused (h.socket_mem_keys hj)]
    exact h.socket hj

theorem Inv.close (h : Inv s) : Inv (s.close i) := by
  unfold State.close
  cases hi : s.socket i with
  | none => exact h
  | some fd =>
    have hsocket := h.socket hi
    constructor
    · intro j p hp
      refine (h.kept hp).of_get? fun fd' hfd' => OrderedDict.get?_erase_of_ne ?_
      rintro rfl
      rw [Kernel.pty?, hsocket] at hfd'
      cases hfd'
    · intro j fd' hj
      simp only [Function.update_apply] at hj ⊢
      split_ifs at hj with hji
      have hne : fd' ≠ fd := by
        rintro rfl
        cases hsocket.symm.trans (h.socket hj)
        exact hji rfl
      rw [OrderedDict.get?_erase_of_ne hne]
      exact h.socket hj

theorem inv_step (h : Inv s) (hstep : step s a = some s') : Inv s' := by
  have hmove : ∀ i p, Inv (s.setPhase i p) := fun i p => ⟨h.kept, h.socket⟩
  cases stepped_of_step hstep with
  | accept _ hfd => exact h.accepted hfd
  | startServer | redirect | finish => exact hmove _ _
  | pty _ hunused => exact h.servePty _ hunused
  | cleanup => exact (hmove _ _).close

/-! ### The connections that have returned, and the requests that opened a pty -/

theorem returned_setPhase {j : ℕ} {p : Phase} (h : s.phase j ≠ .returned) :
    (s.setPhase j p).phase i = .returned ↔ s.phase i = .returned ∨ i = j ∧ p = .returned := by
  simp only [State.setPhase, Function.update_apply]
  split_ifs with hij
  · simp [hij, h]
  · simp [hij]

@[simp] theorem close_phase : (s.close i).phase = s.phase := by
  unfold State.close
  split <;> rfl

@[simp] theorem close_opened : (s.close i).opened = s.opened := by
  unfold State.close
  split <;> rfl

theorem returned_step (hstep : step s a = some s') :
    s'.phase i = .returned ↔ s.phase i = .returned ∨ a = .finish i := by
  cases stepped_of_step hstep with
  | @accept j fd hj =>
    have hphase : (s.accepted j fd).phase = (s.setPhase j .connected).phase := rfl
    rw [hphase]
    simpa using returned_setPhase (i := i) (p := .connected) (by rw [hj]; decide)
  | startServer hj => simpa using returned_setPhase (i := i) (p := .serving) (by rw [hj]; decide)
  | @pty j opened r =>
    rw [(servePty_made s j opened r).2.1]
    simp
  | redirect hj => simpa using returned_setPhase (i := i) (p := .redirected) (by rw [hj]; decide)
  | @cleanup j ending hj =>
    have hne : s.phase j ≠ .returned := by
      intro heq
      rw [heq] at hj
      cases ending <;> cases hj
    simpa using returned_setPhase (i := i) (p := .closed) hne
  | @finish j hj =>
    rw [returned_setPhase (by rw [hj]; decide)]
    simp [eq_comm]

theorem opened_step (hstep : step s a = some s') :
    s'.opened i ≠ [] ↔ s.opened i ≠ [] ∨ ∃ fds r, a = .pty i (.ok fds) r := by
  cases stepped_of_step hstep with
  | @pty j opened r =>
    rw [(servePty_made s j opened r).2.2.2]
    cases opened with
    | error e => simp [State.note]
    | ok fds =>
      simp only [State.note, Function.update_apply]
      split_ifs with hij
      · simp [hij]
      · simp [Ne.symm hij]
  | cleanup => simp [State.setPhase]
  | accept | startServer | redirect | finish => simp [State.accepted, State.setPhase]

end Steps

/-- Every pty that was opened for a connection whose `run` has returned is closed. -/
def Closed (s : State) : Prop :=
  ∀ i, s.phase i = .returned → ∀ pty ∈ s.opened i, ¬ PtyOpen s.kernel pty

theorem inv_start : Inv {} := ⟨nofun, nofun⟩

/-- The ptys of the connections that have returned are closed if and only if no such
connection ever requested one, or `openpty` failed each time. -/
theorem ptys_closed_iff {as : List Action} {s : State} (hr : run step {} as = some s) :
    Closed s ↔ ∀ i, .finish i ∈ as → ∀ fds r, .pty i (.ok fds) r ∉ as := by
  have hinv : Inv s := run_invariant' inv_step inv_start hr
  have hreturned : ∀ i, s.phase i = .returned ↔ .finish i ∈ as := by
    intro i
    refine run_history (H := fun as s => s.phase i = .returned ↔ .finish i ∈ as) (by simp) ?_ hr
    intro as a s s' h hstep
    rw [returned_step hstep, h, List.mem_append, List.mem_singleton, eq_comm (a := a)]
  have hopened : ∀ i, s.opened i ≠ [] ↔ ∃ fds r, .pty i (.ok fds) r ∈ as := by
    intro i
    refine run_history (H := fun as s => s.opened i ≠ [] ↔ ∃ fds r, .pty i (.ok fds) r ∈ as)
      (by simp) ?_ hr
    intro as a s s' h hstep
    rw [opened_step hstep, h]
    simp only [List.mem_append, List.mem_singleton, exists_or, eq_comm (a := a)]
  constructor
  · intro h i hi fds r hmem
    obtain ⟨pty, hpty⟩ := List.exists_mem_of_ne_nil _ ((hopened i).mpr ⟨fds, r, hmem⟩)
    exact h i ((hreturned i).mpr hi) pty hpty (hinv.kept hpty)
  · intro h i hi pty hpty
    obtain ⟨fds, r, hmem⟩ := (hopened i).mp (List.ne_nil_of_mem hpty)
    exact absurd hmem (h i ((hreturned i).mp hi) fds r)

/-- A connection without a pty. -/
theorem ptys_closed_without :
    let as : List Action :=
      [.accept 0 5, .startServer 0, .cleanup 0 .exception, .finish 0]
    ∃ s, run step {} as = some s ∧
      (Closed s ↔ ∀ i, .finish i ∈ as → ∀ fds r, .pty i (.ok fds) r ∉ as) := by
  intro as
  have hsome : (run step {} as).isSome := rfl
  obtain ⟨s, hr⟩ := Option.isSome_iff_exists.mp hsome
  exact ⟨s, hr, ptys_closed_iff hr⟩

/-- A session on a server, from the connection to its end. -/
theorem pty_left_open : ¬ ∀ as s, run step {} as = some s → Closed s := by
  intro h
  have hclosed := h [.accept 0 5, .startServer 0, .pty 0 (.ok (6, 7)) { width := 80, height := 24 },
    .redirect 0, .cleanup 0 .proxyExit, .finish 0] _ rfl
  exact hclosed 0 rfl 0 List.mem_cons_self ⟨6, rfl⟩

/-! ### How many there are -/

/-- The pty descriptors among those of the daemon. -/
def ptyEnds (fds : OrderedDict ℕ Descriptor) : ℕ := fds.entries.countP fun e => e.2.pty?.isSome

def Action.opensPty : Action → Bool
  | .pty _ (.ok _) _ => true
  | _ => false

section Count

variable {fds : OrderedDict ℕ Descriptor} {fd : ℕ}

theorem ptyEnds_insert (h : fd ∉ fds.keys) (d : Descriptor) :
    ptyEnds (fds.insert fd d) = ptyEnds fds + if d.pty?.isSome then 1 else 0 := by
  rw [ptyEnds, OrderedDict.entries_insert_of_not_mem h, List.countP_append, List.countP_singleton]
  rfl

theorem ptyEnds_erase {i : ℕ} (h : fds.get? fd = some (.socket i)) :
    ptyEnds (fds.erase fd) = ptyEnds fds := by
  rw [ptyEnds, OrderedDict.entries_erase, List.countP_filter]
  refine List.countP_congr fun e he => ?_
  rw [Bool.and_eq_true, decide_eq_true_eq, and_iff_left_iff_imp]
  rintro hpty rfl
  have hd : e.2 = .socket i :=
    Option.some.inj ((OrderedDict.get?_eq_some_iff.mpr he).symm.trans h)
  rw [hd] at hpty
  cases hpty

theorem ptyEnds_made {k k' : Kernel} {i : ℕ} {opened : Except PyExc (ℕ × ℕ)}
    {r : WindowSize.Request} (h : Made k opened k') (hunused : k.unused opened) :
    ptyEnds k'.fds = ptyEnds k.fds + 2 * if (Action.pty i opened r).opensPty then 1 else 0 := by
  cases opened with
  | error e =>
    rw [h.1]
    rfl
  | ok fds =>
    obtain ⟨hne, hmaster, hslave⟩ := unused_ok hunused
    have hslave' : fds.2 ∉ (k.fds.insert fds.1 (.master k.ptys)).keys := by
      rw [OrderedDict.mem_keys_insert, not_or]
      exact ⟨hne.symm, hslave⟩
    rw [h.1, Kernel.openpty, ptyEnds_insert hslave', ptyEnds_insert hmaster]
    rfl

theorem ptyEnds_step {s s' : State} {a : Action} (h : Inv s) (hstep : step s a = some s') :
    ptyEnds s'.kernel.fds = ptyEnds s.kernel.fds + 2 * if a.opensPty then 1 else 0 := by
  cases stepped_of_step hstep with
  | accept _ hfd => exact ptyEnds_insert hfd _
  | @pty i opened r _ hunused => exact ptyEnds_made (servePty_made s i opened r).1 hunused
  | @cleanup i =>
    unfold State.close
    split
    · next fd hfd => exact ptyEnds_erase (h.socket hfd)
    · rfl
  | startServer | redirect | finish => rfl

end Count

/-- The daemon has two pty descriptors for every request that opened a pty, however many of
the sessions are over. -/
theorem ptyEnds_eq {as : List Action} {s : State} (hr : run step {} as = some s) :
    ptyEnds s.kernel.fds = 2 * as.countP Action.opensPty := by
  have hend : Inv s ∧ ptyEnds s.kernel.fds = 2 * as.countP Action.opensPty := by
    refine run_history (H := fun as s => Inv s ∧ ptyEnds s.kernel.fds =
      2 * as.countP Action.opensPty) ⟨inv_start, rfl⟩ ?_ hr
    intro as a s s' h hstep
    refine ⟨inv_step h.1 hstep, ?_⟩
    rw [ptyEnds_step h.1 hstep, h.2, List.countP_append, List.countP_singleton, Nat.mul_add]
  exact hend.2

end PtyDescriptors

end Lobbyboy.Daemon
