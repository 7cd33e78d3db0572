import Lobbyboy.Foundation.Transition
import Lobbyboy.Server.Pty
import Mathlib.Data.List.Infix

/-! The requests of a client about its window, among the steps of the proxy process and of the
other processes of the machine. Every request is answered and the pty has the size last
requested, if and only if the sizes fit into sixteen bits and a change of the window comes
neither before there is a pty nor after the number of the proxy process is without one. -/

namespace Lobbyboy.Server

open Foundation

namespace WindowSize

structure Request where
  width : ℕ
  height : ℕ
  pixelwidth : ℕ := 0
  pixelheight : ℕ := 0
  deriving DecidableEq

namespace Request

variable (r : Request)

def Fits : Prop := Server.Fits r.height r.width r.pixelwidth r.pixelheight

/-- The size, as far as a terminal can have it. -/
def limited : WindowSize := Server.limited r.height r.width r.pixelwidth r.pixelheight

end Request

/-- An exception in a callback ends the connection. -/
structure State where
  host : Host := {}
  connected : Bool := true
  requested : Option Request := none
  proxy : Option ℕ := none

/-- `record` stores the number of the proxy process in the object. -/
inductive Action
  | pty (opened : Except PyExc (ℕ × ℕ)) (r : Request)
  | windowChange (r : Request)
  | shell
  | spawn (pid : ℕ)
  | record
  | process (pid : ℕ) (p : Option Process)

/-- A child exits, a zombie is waited for, another process starts or ends. -/
def becomes : Option Process → Option Process → Bool
  | some .child, some .zombie | some .zombie, none => true
  | none, some (.other _) | some (.other _), none => true
  | _, _ => false

def ptyRequest (opened : Except PyExc (ℕ × ℕ)) (r : Request) : Callback Bool :=
  checkChannelPtyRequest opened r.width r.height r.pixelwidth r.pixelheight

def windowChangeRequest (r : Request) : Callback Bool :=
  checkChannelWindowChangeRequest r.width r.height r.pixelwidth r.pixelheight

namespace State

variable (s : State)

def setProcess (pid : ℕ) (p : Option Process) : State :=
  { s with host := { s.host with kernel := s.host.kernel.setProcess pid p } }

def serve (callback : Callback Bool) : State :=
  match callback s.host with
  | .ok _ host => { s with host := host }
  | .error _ host => { s with host := host, connected := false }

def request (r : Request) : State := { s with requested := some r }

end State

def step (s : State) : Action → Option State
  | .pty opened r =>
    if s.connected && s.host.kernel.unused opened then
      some ((s.request r).serve (ptyRequest opened r))
    else none
  | .windowChange r =>
    if s.connected then some ((s.request r).serve (windowChangeRequest r)) else none
  | .shell => if s.connected then some (s.serve checkChannelShellRequest) else none
  | .spawn pid =>
    match s.proxy, s.host.kernel.process pid with
    | none, none =>
      if s.host.server.shellEvent then
        some { s.setProcess pid (some .child) with proxy := some pid }
      else none
    | _, _ => none
  | .record =>
    s.proxy.map fun pid => { s with host :=
      { s.host with server := { s.host.server with proxySubprocessPid := some pid } } }
  | .process pid p =>
    if becomes (s.host.kernel.process pid) p then some (s.setProcess pid p) else none

/-! ### What is claimed of a step, and when it is so -/

/-- A request returns `True`. -/
def Returns (s : State) : Action → Prop
  | .pty opened r => ∃ host, ptyRequest opened r s.host = .ok true host
  | .windowChange r => ∃ host, windowChangeRequest r s.host = .ok true host
  | _ => True

/-- The pty has the size that was last requested. -/
def Sized (s : State) : Prop :=
  ∀ r pty, s.requested = some r → s.host.pty? = some pty → s.host.kernel.size pty = r.limited

/-- The size fits; for a change of the window there is a pty, and if the number of the proxy
process is known, it can be signalled. -/
def Servable (s : State) : Action → Prop
  | .pty opened r => (∃ fds, opened = .ok fds) ∧ r.Fits
  | .windowChange r => r.Fits ∧ s.host.server.masterFd.isSome ∧ s.host.CanSignal
  | _ => True

/-- Once `master_fd` is set, it is the master of a pty. -/
def Opened (s : State) : Prop := s.host.server.masterFd.isSome → s.host.pty?.isSome

theorem returns_true_iff {callback : Callback Bool} {host : Host} :
    (∃ host', callback host = .ok true host') ↔
      wp callback (fun r _ => r = true) (fun _ _ => False) host := by
  constructor
  · rintro ⟨host', h⟩
    exact (wp_eq_ok h).mpr rfl
  · intro h
    obtain ⟨r, host', hr, rfl⟩ := exists_ok_of_wp h
    exact ⟨host', hr⟩

theorem returns_iff {s : State} {a : Action} (h : Opened s) : Returns s a ↔ Servable s a := by
  cases a with
  | pty opened r =>
    rw [Returns, returns_true_iff, ptyRequest, wp_checkChannelPtyRequest]
    cases opened with
    | error e => simp [Servable]
    | ok fds =>
      obtain ⟨master, slave⟩ := fds
      simp [Servable, Request.Fits]
  | windowChange r =>
    rw [Returns, returns_true_iff, windowChangeRequest, wp_checkChannelWindowChangeRequest]
    constructor
    · rintro ⟨hpty, hboth⟩
      obtain ⟨hfits, hsome⟩ := not_imp_not.mp (fun hno _ => hboth hno) trivial
      obtain ⟨pty, hsome⟩ := Option.isSome_iff_exists.mp hsome
      refine ⟨hfits, ?_, not_not.mp (hpty pty hfits hsome).2⟩
      obtain ⟨fd, hfd, -⟩ := Option.bind_eq_some_iff.mp hsome
      rw [hfd]
      rfl
    · rintro ⟨hfits, hmaster, hsignal⟩
      exact ⟨fun _ _ _ => ⟨fun _ => rfl, fun hno => hno hsignal⟩, fun hno => hno ⟨hfits, h hmaster⟩⟩
  | shell | spawn | record | process => exact Iff.rfl

/-! ### The runs -/

section Runs

variable {s s' : State} {a : Action}

theorem serve_of_wp {P : State → Prop} {callback : Callback Bool}
    (h : wp callback (fun _ host => P { s with host := host })
      (fun _ host => P { s with host := host, connected := false }) s.host) :
    P (s.serve callback) := by
  unfold State.serve
  cases hc : callback s.host with
  | ok r host => exact (wp_eq_ok hc).mp h
  | error e host => exact (wp_eq_error hc).mp h

/-- Neither the pty nor what was requested is changed. -/
structure Quiet (s s' : State) : Prop where
  masterFd : s'.host.server.masterFd = s.host.server.masterFd
  pty? : s'.host.pty? = s.host.pty?
  size : s'.host.kernel.size = s.host.kernel.size
  requested : s'.requested = s.requested

def Action.isRequest : Action → Bool
  | .pty _ _ | .windowChange _ => true
  | _ => false

theorem quiet_step (ha : a.isRequest = false) (hstep : step s a = some s') : Quiet s s' := by
  cases a with
  | pty | windowChange => cases ha
  | shell =>
    rw [step] at hstep
    split_ifs at hstep
    cases hstep
    refine serve_of_wp ?_
    rw [checkChannelShellRequest, wp_bind, wp_get, wp_ite]
    split_ifs
    · rw [wp_bind, wp_setServer, wp_pure]
      exact ⟨rfl, rfl, rfl, rfl⟩
    · exact (wp_throw _).mpr ⟨rfl, rfl, rfl, rfl⟩
  | spawn pid =>
    simp only [step] at hstep
    split at hstep
    · split_ifs at hstep
      cases hstep
      exact ⟨rfl, rfl, rfl, rfl⟩
    · cases hstep
  | record =>
    obtain ⟨pid, -, rfl⟩ := Option.map_eq_some_iff.mp hstep
    exact ⟨rfl, rfl, rfl, rfl⟩
  | process pid p =>
    rw [step] at hstep
    split_ifs at hstep
    cases hstep
    exact ⟨rfl, rfl, rfl, rfl⟩

theorem Quiet.opened (h : Quiet s s') (hs : Opened s) : Opened s' := by
  rw [Opened, h.masterFd, h.pty?]
  exact hs

theorem Quiet.sized (h : Quiet s s') (hs : Sized s) : Sized s' := by
  rw [Sized, h.requested, h.pty?, h.size]
  exact hs

theorem opened_step (h : Opened s) (hstep : step s a = some s') : Opened s' := by
  cases a with
  | pty opened r =>
    rw [step] at hstep
    split_ifs at hstep
    cases hstep
    refine serve_of_wp (wp_checkChannelPtyRequest.mpr ?_)
    refine ⟨fun master slave _ => ⟨fun _ _ => ?_, fun _ _ => ?_⟩, fun _ _ => h⟩
    · simp
    · simp
  | windowChange r =>
    rw [step] at hstep
    split_ifs at hstep
    cases hstep
    exact serve_of_wp (wp_checkChannelWindowChangeRequest.mpr
      ⟨fun _ _ _ => ⟨fun _ => h, fun _ => h⟩, fun _ => h⟩)
  | shell | spawn | record | process => exact (quiet_step rfl hstep).opened h

theorem sized_step (hservable : Servable s a) (ho : Opened s) (h : Sized s)
    (hstep : step s a = some s') : Sized s' := by
  cases a with
  | pty opened r =>
    obtain ⟨⟨fds, rfl⟩, hfits⟩ := hservable
    rw [step] at hstep
    split_ifs at hstep
    cases hstep
    refine serve_of_wp (wp_checkChannelPtyRequest.mpr
      ⟨fun master slave _ => ⟨fun _ r' pty hr hpty => ?_, fun hno => absurd hfits hno⟩, nofun⟩)
    cases hr
    obtain rfl : (s.request r).host.kernel.ptys = pty := by simpa using hpty
    simp [Request.limited]
  | windowChange r =>
    obtain ⟨hfits, hmaster, hsignal⟩ := hservable
    rw [step] at hstep
    split_ifs at hstep
    cases hstep
    refine serve_of_wp (wp_checkChannelWindowChangeRequest.mpr
      ⟨fun pty _ hpty => ⟨fun _ r' pty' hr hpty' => ?_, fun hno => absurd hsignal hno⟩,
        fun hno => absurd ⟨hfits, ho hmaster⟩ hno⟩)
    cases hr
    cases hpty.symm.trans hpty'
    simp [Request.limited]
  | shell | spawn | record | process => exact (quiet_step rfl hstep).sized h

/-- In every run all requests return, and the pty has the size last requested in every state,
if and only if each request can be served when it comes. -/
theorem requests_served_iff (as : List Action) :
    (Along step Returns {} as ∧ ∀ bs s, bs <+: as → run step {} bs = some s → Sized s) ↔
      Along step Servable {} as := by
  have hopened : Opened {} := nofun
  have hcongr : Along step Returns {} as ↔ Along step Servable {} as :=
    along_congr (P := Opened) opened_step returns_iff hopened
  rw [hcongr]
  refine and_iff_left_of_imp fun hservable bs s hprefix hr => ?_
  obtain ⟨cs, rfl⟩ := hprefix
  have hstart : Opened {} ∧ Sized {} := ⟨hopened, nofun⟩
  have hend : Opened s ∧ Sized s :=
    run_invariant (P := fun s => Opened s ∧ Sized s)
      (fun hc hs hstep => ⟨opened_step hs.1 hstep, sized_step hc hs.1 hs.2 hstep⟩)
      (along_of_append hservable) hstart hr
  exact hend.2

end Runs

/-- A change of the window before there is a pty, a size of seventeen bits, and a change of the
window after the proxy process has been waited for. -/
theorem requests_not_served :
    let r : Request := { width := 80, height := 24 }
    ¬ Along step Returns {} [.windowChange r] ∧
      ¬ Along step Returns {} [.pty (.ok (7, 8)) { width := 65536, height := 24 }] ∧
      ¬ Along step Returns {} [.pty (.ok (7, 8)) r, .shell, .spawn 100, .record,
        .process 100 (some .zombie), .process 100 none, .windowChange r] := by
  intro r
  refine ⟨fun h => ?_, fun h => ?_, fun h => ?_⟩
  · obtain ⟨host, hhost⟩ := h.1
    cases hhost
  · obtain ⟨host, hhost⟩ := h.1
    cases hhost
  · have hsplit : Along step Returns {} ([.pty (.ok (7, 8)) r, .shell, .spawn 100, .record,
      .process 100 (some .zombie), .process 100 none] ++ [.windowChange r]) := h
    obtain ⟨⟨host, hhost⟩, -⟩ := along_append hsplit rfl
    cases hhost

end WindowSize

end Lobbyboy.Server
