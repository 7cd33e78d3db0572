import Lobbyboy.Server.WindowSize

/-! The thread of a session beside the requests of its client. It looks for the slave of the
pty before it asks the client which server it wants, and for the master once the proxy
process runs on the slave; a request for another pty replaces both in between. -/

namespace Lobbyboy.Server

open Foundation

namespace PtyPairs

/-- What `prepare_shell_env` has read as `server.slave_fd`, and `user_using` as
`server.master_fd`. -/
structure State where
  window : WindowSize.State := {}
  slaveFd : Option (Option ℕ) := none
  masterFd : Option (Option ℕ) := none

inductive Action
  | window (a : WindowSize.Action)
  | readSlave
  | readMaster

/-- The thread waits for a shell, and later starts the proxy process and takes its number. -/
def step (s : State) : Action → Option State
  | .window a => (WindowSize.step s.window a).map fun window => { s with window := window }
  | .readSlave =>
    if s.window.host.server.shellEvent && s.slaveFd.isNone then
      some { s with slaveFd := some s.window.host.server.slaveFd }
    else none
  | .readMaster =>
    if s.slaveFd.isSome && s.window.host.server.proxySubprocessPid.isSome && s.masterFd.isNone then
      some { s with masterFd := some s.window.host.server.masterFd }
    else none

/-- The step opens a pty. -/
def Action.Opens : Action → Prop
  | .window (.pty (.ok _) _) => True
  | _ => False

/-! ### The two ends -/

/-- These are the ends of one pty. -/
def Ends (k : Kernel) (master slave pty : ℕ) : Prop :=
  k.fds.get? master = some (.master pty) ∧ k.fds.get? slave = some (.slave pty)

/-- What is open stays open. -/
structure Grows (k k' : Kernel) : Prop where
  fds : ∀ {fd d}, k.fds.get? fd = some d → k'.fds.get? fd = some d
  ptys : k.ptys ≤ k'.ptys

theorem Grows.refl (k : Kernel) : Grows k k := ⟨id, Nat.le_refl _⟩

theorem Grows.trans {k k₁ k' : Kernel} (h : Grows k k₁) (h' : Grows k₁ k') : Grows k k' :=
  ⟨fun hd => h'.fds (h.fds hd), h.ptys.trans h'.ptys⟩

theorem Ends.grow {k k' : Kernel} {master slave pty : ℕ} (h : Ends k master slave pty)
    (hk : Grows k k') : Ends k' master slave pty := ⟨hk.fds h.1, hk.fds h.2⟩

theorem grows_openpty {k : Kernel} {master slave : ℕ} (h : k.unused (.ok (master, slave))) :
    Grows k (k.openpty master slave) ∧ Ends (k.openpty master slave) master slave k.ptys := by
  obtain ⟨hne, hmaster, hslave⟩ : master ≠ slave ∧ master ∉ k.fds.keys ∧ slave ∉ k.fds.keys := by
    simpa [Kernel.unused] using h
  have hnot : ∀ {fd fd' d}, k.fds.get? fd = some d → fd' ∉ k.fds.keys → fd ≠ fd' := by
    rintro fd fd' d hd hfree rfl
    exact hfree (OrderedDict.mem_keys_iff.mpr ⟨d, hd⟩)
  refine ⟨⟨fun {fd d} hd => ?_, Nat.le_succ _⟩, ?_, ?_⟩
  · rw [Kernel.openpty, OrderedDict.get?_insert, if_neg (hnot hd hslave), OrderedDict.get?_insert,
      if_neg (hnot hd hmaster), hd]
  · rw [Kernel.openpty, OrderedDict.get?_insert, if_neg hne, OrderedDict.get?_insert_self]
  · rw [Kernel.openpty, OrderedDict.get?_insert_self]

/-! ### What a request does to the ends -/

section Requests

variable {s s' : WindowSize.State} {a : WindowSize.Action}

/-- A new pty has become that of the server. -/
structure Opened (k : Kernel) (master slave : ℕ) (s' : WindowSize.State) : Prop where
  grows : Grows k s'.host.kernel
  ends : Ends s'.host.kernel master slave k.ptys
  counted : k.ptys < s'.host.kernel.ptys
  masterFd : s'.host.server.masterFd = some master
  slaveFd : s'.host.server.slaveFd = some slave

/-- The server has the pty that it had. -/
structure Unopened (s s' : WindowSize.State) : Prop where
  grows : Grows s.host.kernel s'.host.kernel
  masterFd : s'.host.server.masterFd = s.host.server.masterFd
  slaveFd : s'.host.server.slaveFd = s.host.server.slaveFd
  ptyEvent : s'.host.server.ptyEvent = true → s.host.server.ptyEvent = true
  shellEvent : s'.host.server.shellEvent = true →
    s.host.server.shellEvent = true ∨ s.host.server.ptyEvent = true

theorem opened_step {master slave : ℕ} {r : WindowSize.Request}
    (h : WindowSize.step s (.pty (.ok (master, slave)) r) = some s') :
    Opened s.host.kernel master slave s' := by
  rw [WindowSize.step] at h
  split_ifs at h with hunused
  cases h
  rw [Bool.and_eq_true] at hunused
  obtain ⟨hgrows, hends⟩ := grows_openpty hunused.2
  refine WindowSize.serve_of_wp (wp_checkChannelPtyRequest.mpr ⟨?_, fun e he => by cases he⟩)
  intro m sl hfds
  cases hfds
  constructor <;>
    exact fun _ => ⟨⟨hgrows.fds, hgrows.ptys⟩, ⟨hends.1, hends.2⟩, Nat.lt_succ_self _, rfl, rfl⟩

theorem unopened_step (ha : ¬ (Action.window a).Opens) (h : WindowSize.step s a = some s') :
    Unopened s s' := by
  cases a with
  | pty opened r =>
    cases opened with
    | ok fds => exact absurd trivial ha
    | error e =>
      rw [WindowSize.step] at h
      split_ifs at h
      cases h
      refine WindowSize.serve_of_wp (wp_checkChannelPtyRequest.mpr
        ⟨fun m sl hfds => (by cases hfds), fun _ _ => ?_⟩)
      exact ⟨.refl _, rfl, rfl, id, .inl⟩
  | windowChange r =>
    rw [WindowSize.step] at h
    split_ifs at h
    cases h
    refine WindowSize.serve_of_wp (wp_checkChannelWindowChangeRequest.mpr
      ⟨fun pty _ _ => ⟨fun _ => ?_, fun _ => ?_⟩, fun _ => ?_⟩)
    all_goals exact ⟨⟨id, Nat.le_refl _⟩, rfl, rfl, id, .inl⟩
  | shell =>
    rw [WindowSize.step] at h
    split_ifs at h
    cases h
    refine WindowSize.serve_of_wp ?_
    rw [checkChannelShellRequest, wp_bind, wp_get, wp_ite]
    split_ifs with hpty
    · rw [wp_bind, wp_setServer, wp_pure]
      exact ⟨⟨id, Nat.le_refl _⟩, rfl, rfl, id, fun _ => .inr hpty⟩
    · exact (wp_throw _).mpr ⟨⟨id, Nat.le_refl _⟩, rfl, rfl, id, .inl⟩
  | spawn pid =>
    simp only [WindowSize.step] at h
    split at h
    · split_ifs at h
      cases h
      exact ⟨⟨id, Nat.le_refl _⟩, rfl, rfl, id, .inl⟩
    · cases h
  | record =>
    obtain ⟨pid, -, rfl⟩ := Option.map_eq_some_iff.mp h
    exact ⟨⟨id, Nat.le_refl _⟩, rfl, rfl, id, .inl⟩
  | process pid p =>
    rw [WindowSize.step] at h
    split_ifs at h
    cases h
    exact ⟨⟨id, Nat.le_refl _⟩, rfl, rfl, id, .inl⟩

end Requests

/-! ### Runs -/

section Runs

variable {s s' : State} {as : List Action}

/-- Whoever has a shell has a pty, of which the server has both ends. -/
structure Held (s : WindowSize.State) : Prop where
  ends : ∀ {master}, s.host.server.masterFd = some master → ∃ slave pty,
    s.host.server.slaveFd = some slave ∧ Ends s.host.kernel master slave pty ∧
      pty < s.host.kernel.ptys
  ready : s.host.server.ptyEvent = true → s.host.server.masterFd.isSome
  shell : s.host.server.shellEvent = true → s.host.server.masterFd.isSome

theorem Opened.held {k : Kernel} {master slave : ℕ} {s' : WindowSize.State}
    (h : Opened k master slave s') : Held s' := by
  refine ⟨fun {m} hm => ?_, fun _ => by rw [h.masterFd]; rfl, fun _ => by rw [h.masterFd]; rfl⟩
  cases hm.symm.trans h.masterFd
  exact ⟨slave, k.ptys, h.slaveFd, h.ends, h.counted⟩

theorem Unopened.held {s s' : WindowSize.State} (h : Unopened s s') (hs : Held s) : Held s' := by
  refine ⟨fun {m} hm => ?_, fun hpty => ?_, fun hshell => ?_⟩
  · rw [h.masterFd] at hm
    obtain ⟨slave, pty, hslave, hends, hlt⟩ := hs.ends hm
    exact ⟨slave, pty, h.slaveFd.trans hslave, hends.grow h.grows, hlt.trans_le h.grows.ptys⟩
  · rw [h.masterFd]
    exact hs.ready (h.ptyEvent hpty)
  · rw [h.masterFd]
    exact (h.shellEvent hshell).elim hs.shell hs.ready

/-- What has become of the ends since a state, by the steps since. -/
structure Later (s : State) (as : List Action) (s' : State) : Prop where
  held : Held s'.window
  grows : Grows s.window.host.kernel s'.window.host.kernel
  slaveFd : ∀ fd, s.slaveFd = some fd → s'.slaveFd = some fd
  masterFd : ∀ fd, s.masterFd = some fd → s'.masterFd = some fd
  unopened : (∀ a ∈ as, ¬ a.Opens) →
    s'.window.host.server.masterFd = s.window.host.server.masterFd
  opened : (∃ a ∈ as, a.Opens) → ∃ master slave pty,
    s'.window.host.server.masterFd = some master ∧
      Ends s'.window.host.kernel master slave pty ∧ s.window.host.kernel.ptys ≤ pty

theorem later_nil (h : Held s.window) : Later s [] s where
  held := h
  grows := .refl _
  slaveFd _ hfd := hfd
  masterFd _ hfd := hfd
  unopened _ := rfl
  opened h := by
    obtain ⟨a, ha, -⟩ := h
    cases ha

/-- The thread has read something, or nothing has happened. -/
theorem Later.quiet {s₁ : State} {a : Action} (h : Later s as s₁) (ha : ¬ a.Opens)
    (hwindow : s'.window = s₁.window) (hslave : ∀ fd, s₁.slaveFd = some fd → s'.slaveFd = some fd)
    (hmaster : ∀ fd, s₁.masterFd = some fd → s'.masterFd = some fd) : Later s (as ++ [a]) s' where
  held := hwindow ▸ h.held
  grows := hwindow ▸ h.grows
  slaveFd fd hfd := hslave fd (h.slaveFd fd hfd)
  masterFd fd hfd := hmaster fd (h.masterFd fd hfd)
  unopened hall := by
    rw [hwindow]
    exact h.unopened fun b hb => hall b (List.mem_append_left _ hb)
  opened hsome := by
    rw [hwindow]
    refine h.opened ?_
    obtain ⟨b, hb, hopens⟩ := hsome
    rcases List.mem_append.mp hb with hb | hb
    · exact ⟨b, hb, hopens⟩
    · rw [List.mem_singleton.mp hb] at hopens
      exact absurd hopens ha

theorem Later.window {s₁ : State} {a : WindowSize.Action} {window : WindowSize.State}
    (h : Later s as s₁) (hs : WindowSize.step s₁.window a = some window) :
    Later s (as ++ [.window a]) { s₁ with window := window } := by
  by_cases ha : (Action.window a).Opens
  · obtain ⟨master, slave, r, rfl⟩ : ∃ master slave r, a = .pty (.ok (master, slave)) r := by
      unfold Action.Opens at ha
      split at ha
      · next fds r heq =>
        cases heq
        exact ⟨_, _, r, rfl⟩
      · exact ha.elim
    have hopened := opened_step hs
    refine ⟨hopened.held, h.grows.trans hopened.grows, h.slaveFd, h.masterFd, fun hall => ?_,
      fun _ => ⟨master, slave, _, hopened.masterFd, hopened.ends, h.grows.ptys⟩⟩
    exact absurd ha (hall _ (List.mem_append_right _ List.mem_cons_self))
  · have hsame := unopened_step ha hs
    refine ⟨hsame.held h.held, h.grows.trans hsame.grows, h.slaveFd, h.masterFd, fun hall => ?_,
      fun hsome => ?_⟩
    · exact hsame.masterFd.trans (h.unopened fun b hb => hall b (List.mem_append_left _ hb))
    · obtain ⟨b, hb, hopens⟩ := hsome
      rcases List.mem_append.mp hb with hb | hb
      · obtain ⟨master, slave, pty, hmaster, hends, hle⟩ := h.opened ⟨b, hb, hopens⟩
        exact ⟨master, slave, pty, hsame.masterFd.trans hmaster, hends.grow hsame.grows, hle⟩
      · rw [List.mem_singleton.mp hb] at hopens
        exact absurd hopens ha

theorem later_of_run (hs : Held s.window) (hr : run step s as = some s') : Later s as s' := by
  refine run_history (later_nil hs) (fun {as a s₁ s₂} h hstep => ?_) hr
  cases a with
  | window a =>
    obtain ⟨window, hwindow, rfl⟩ := Option.map_eq_some_iff.mp hstep
    exact h.window hwindow
  | readSlave =>
    rw [step] at hstep
    split_ifs at hstep with hread
    cases hstep
    rw [Bool.and_eq_true, Option.isNone_iff_eq_none] at hread
    refine h.quiet id rfl (fun fd hfd => ?_) fun fd hfd => hfd
    rw [hread.2] at hfd
    cases hfd
  | readMaster =>
    rw [step] at hstep
    split_ifs at hstep with hread
    cases hstep
    rw [Bool.and_eq_true, Option.isNone_iff_eq_none] at hread
    refine h.quiet id rfl (fun fd hfd => hfd) fun fd hfd => ?_
    rw [hread.2] at hfd
    cases hfd

/-- The proxy process always gets the slave of a pty that the client asked for, and the loop
a master; they are the ends of one pty if and only if the client has asked for no other
between the two readings. -/
theorem paired_iff {before between after : List Action} {s : State}
    (hr : run step {} (before ++ .readSlave :: (between ++ .readMaster :: after)) = some s) :
    ∃ slave master pty pty', s.slaveFd = some (some slave) ∧ s.masterFd = some (some master) ∧
      s.window.host.kernel.fds.get? slave = some (.slave pty) ∧
      s.window.host.kernel.fds.get? master = some (.master pty') ∧
      (pty = pty' ↔ ∀ a ∈ between, ¬ a.Opens) := by
  have hheld : Held ({} : State).window := by
    constructor <;> intros <;> contradiction
  rw [run_append_bind, Option.bind_eq_some_iff] at hr
  obtain ⟨s₁, h₁, hr⟩ := hr
  rw [run_cons, Option.bind_eq_some_iff] at hr
  obtain ⟨s₂, h₂, hr⟩ := hr
  rw [run_append_bind, Option.bind_eq_some_iff] at hr
  obtain ⟨s₃, h₃, hr⟩ := hr
  rw [run_cons, Option.bind_eq_some_iff] at hr
  obtain ⟨s₄, h₄, hr⟩ := hr
  have hheld₁ := (later_of_run hheld h₁).held
  rw [step] at h₂
  split_ifs at h₂ with hshell
  cases h₂
  rw [step] at h₄
  split_ifs at h₄
  cases h₄
  rw [Bool.and_eq_true] at hshell
  obtain ⟨master, hmaster⟩ := Option.isSome_iff_exists.mp (hheld₁.shell hshell.1)
  obtain ⟨slave, pty, hslave, hends, hlt⟩ := hheld₁.ends hmaster
  -- from the first reading to the second, and from there to the end
  have hbetween := later_of_run
    (s := { s₁ with slaveFd := some s₁.window.host.server.slaveFd }) hheld₁ h₃
  have hafter := later_of_run
    (s := { s₃ with masterFd := some s₃.window.host.server.masterFd }) hbetween.held hr
  have hslaveFd : s.slaveFd = some (some slave) :=
    hafter.slaveFd _ (hbetween.slaveFd _ (congrArg some hslave))
  have hends' := (hends.grow hbetween.grows).grow hafter.grows
  by_cases hopens : ∃ a ∈ between, a.Opens
  · obtain ⟨master', slave', pty', hmaster', hends₃, hle⟩ := hbetween.opened hopens
    refine ⟨slave, master', pty, pty', hslaveFd, hafter.masterFd _ (congrArg some hmaster'),
      hends'.2, (hends₃.grow hafter.grows).1, ?_⟩
    refine iff_of_false (Nat.ne_of_lt (hlt.trans_le hle)) fun hall => ?_
    obtain ⟨a, ha, hopen⟩ := hopens
    exact hall a ha hopen
  · have hall : ∀ a ∈ between, ¬ a.Opens := fun a ha hopen => hopens ⟨a, ha, hopen⟩
    have hmaster' := (hbetween.unopened hall).trans hmaster
    exact ⟨slave, master, pty, pty, hslaveFd, hafter.masterFd _ (congrArg some hmaster'),
      hends'.2, hends'.1, iff_of_true rfl hall⟩

/-- The client asks for a second pty while it is asked which server it wants. -/
theorem paired_iff_twice :
    let r : WindowSize.Request := { width := 80, height := 24 }
    ∃ s slave master pty pty', run step {} ([.window (.pty (.ok (7, 8)) r), .window .shell] ++
        .readSlave :: ([.window (.pty (.ok (9, 10)) r), .window (.spawn 100), .window .record] ++
          .readMaster :: [])) = some s ∧
      s.slaveFd = some (some slave) ∧ s.masterFd = some (some master) ∧
      s.window.host.kernel.fds.get? slave = some (.slave pty) ∧
      s.window.host.kernel.fds.get? master = some (.master pty') ∧ pty ≠ pty' := by
  intro r
  obtain ⟨s, hs⟩ : ∃ s, run step {} ([.window (.pty (.ok (7, 8)) r), .window .shell] ++
      .readSlave :: ([.window (.pty (.ok (9, 10)) r), .window (.spawn 100), .window .record] ++
        .readMaster :: [])) = some s := ⟨_, rfl⟩
  obtain ⟨slave, master, pty, pty', hslave, hmaster, hends, hends', hiff⟩ := paired_iff hs
  refine ⟨s, slave, master, pty, pty', hs, hslave, hmaster, hends, hends', fun heq => ?_⟩
  exact hiff.mp heq (.window (.pty (.ok (9, 10)) r)) List.mem_cons_self trivial

end Runs

end PtyPairs

end Lobbyboy.Server
