import Lobbyboy.Exceptions
import Lobbyboy.Foundation.OrderedDict
import Lobbyboy.Foundation.Program
import Mathlib.Data.Nat.Notation
import Mathlib.Logic.Function.Basic

/-! The callbacks of `Server` that open a pty and set its size, over the descriptors, ptys and
processes of the kernel. Which numbers `openpty` returns is left open, as long as they are
not in use. -/

namespace Lobbyboy

/-- The fields of the object that the callbacks below use. -/
structure Server where
  ptyEvent : Bool := false
  shellEvent : Bool := false
  windowWidth : ℕ := 0
  windowHeight : ℕ := 0
  proxySubprocessPid : Option ℕ := none
  masterFd : Option ℕ := none
  slaveFd : Option ℕ := none

namespace Server

open Foundation

/-! ### The kernel -/

/-- `struct winsize`. -/
structure WindowSize where
  row : UInt16 := 0
  col : UInt16 := 0
  xpix : UInt16 := 0
  ypix : UInt16 := 0
  deriving DecidableEq

inductive Descriptor
  | master (pty : ℕ)
  | slave (pty : ℕ)
  | socket (connection : ℕ)
  deriving DecidableEq

/-- The pty of which it is one end. -/
def Descriptor.pty? : Descriptor → Option ℕ
  | .master pty | .slave pty => some pty
  | .socket _ => none

/-- A child that has exited is a zombie until it is waited for; other processes may be such
that the daemon is not permitted to signal them. -/
inductive Process
  | child
  | zombie
  | other (permitted : Bool)
  deriving DecidableEq

/-- Processes are given by their number, as long as it stands for one. -/
structure Kernel where
  fds : OrderedDict ℕ Descriptor := .empty
  ptys : ℕ := 0
  size : ℕ → WindowSize := fun _ => {}
  process : ℕ → Option Process := fun _ => none

namespace Kernel

variable (k : Kernel)

def pty? (fd : ℕ) : Option ℕ := (k.fds.get? fd).bind Descriptor.pty?

/-- Two numbers that are free, unless the call fails. -/
def unused : Except PyExc (ℕ × ℕ) → Bool
  | .ok (master, slave) => master ≠ slave ∧ master ∉ k.fds.keys ∧ slave ∉ k.fds.keys
  | .error _ => true

/-- A new pty with these two ends. -/
def openpty (master slave : ℕ) : Kernel :=
  { k with
    fds := (k.fds.insert master (.master k.ptys)).insert slave (.slave k.ptys)
    ptys := k.ptys + 1
    size := Function.update k.size k.ptys {} }

def resize (pty : ℕ) (size : WindowSize) : Kernel :=
  { k with size := Function.update k.size pty size }

def setProcess (pid : ℕ) (p : Option Process) : Kernel :=
  { k with process := Function.update k.process pid p }

/-- A signal can be sent. -/
def Signalable (pid : ℕ) : Prop := ∃ p, k.process pid = some p ∧ p ≠ .other false

@[simp] theorem signalable_resize (pid pty : ℕ) (size : WindowSize) :
    (k.resize pty size).Signalable pid ↔ k.Signalable pid := Iff.rfl

theorem pty?_openpty_master (master slave : ℕ) :
    (k.openpty master slave).pty? master = some k.ptys := by
  rw [pty?, openpty, OrderedDict.get?_insert, OrderedDict.get?_insert_self]
  split_ifs <;> rfl

end Kernel

/-! ### The callbacks -/

structure Host where
  server : Server := {}
  kernel : Kernel := {}

abbrev Callback := EStateM PyExc Host

def setServer (f : Server → Server) : Callback Unit :=
  modify fun s => { s with server := f s.server }

/-- `struct.pack("HHHH", row, col, xpix, ypix)`. -/
def pack (row col xpix ypix : ℕ) : Except PyExc WindowSize :=
  if row < 65536 ∧ col < 65536 ∧ xpix < 65536 ∧ ypix < 65536 then
    .ok ⟨.ofNat row, .ofNat col, .ofNat xpix, .ofNat ypix⟩
  else .error ⟨.exception, "ushort format requires 0 <= number <= (0x7fff * 2 + 1)"⟩

/-- `fcntl.ioctl(fd, termios.TIOCSWINSZ, size)`. -/
def ioctl (fd : Option ℕ) (size : WindowSize) : Callback Unit := do
  match fd with
  | none => throw ⟨.typeError, "argument must be an int, or have a fileno() method."⟩
  | some fd =>
    let s ← get
    match s.kernel.pty? fd with
    | some pty => set { s with kernel := s.kernel.resize pty size }
    | none => throw ⟨.osError, "[Errno 25] Inappropriate ioctl for device"⟩

def setWindowSize (fd : Option ℕ) (row col xpix ypix : ℕ) : Callback Unit := do
  ioctl fd (← liftExcept (pack row col xpix ypix))

/-- `os.kill(pid, signal.SIGWINCH)`. -/
def kill (pid : ℕ) : Callback Unit := do
  match (← get).kernel.process pid with
  | none => throw ⟨.osError, "[Errno 3] No such process"⟩
  | some (.other false) => throw ⟨.osError, "[Errno 1] Operation not permitted"⟩
  | some _ => pure ()

/-- `pty.openpty()`. -/
def openpty (opened : Except PyExc (ℕ × ℕ)) : Callback (ℕ × ℕ) := do
  let fds ← liftExcept opened
  modify fun s => { s with kernel := s.kernel.openpty fds.1 fds.2 }
  return fds

def checkChannelPtyRequest (opened : Except PyExc (ℕ × ℕ))
    (width height pixelwidth pixelheight : ℕ) : Callback Bool := do
  let (masterFd, slaveFd) ← openpty opened
  setServer fun server => { server with masterFd := masterFd, slaveFd := slaveFd }
  setServer fun server => { server with windowWidth := width, windowHeight := height }
  let server := (← get).server
  setWindowSize server.masterFd server.windowHeight server.windowWidth pixelwidth pixelheight
  setServer fun server => { server with ptyEvent := true }
  return true

def checkChannelWindowChangeRequest (width height pixelwidth pixelheight : ℕ) :
    Callback Bool := do
  setServer fun server => { server with windowWidth := width, windowHeight := height }
  let server := (← get).server
  setWindowSize server.masterFd server.windowHeight server.windowWidth pixelwidth pixelheight
  match (← get).server.proxySubprocessPid with
  | some pid => kill pid
  | none => pure ()
  return true

/-- The wait for the event is over after ten seconds, and no other request is served in the
meantime. -/
def checkChannelShellRequest : Callback Bool := do
  if (← get).server.ptyEvent then do
    setServer fun server => { server with shellEvent := true }
    return true
  else throw ⟨.noTTYException, "No TTY"⟩

/-! ### What the callbacks do -/

/-- The sizes fit into the sixteen bits that they have in the kernel. -/
def Fits (row col xpix ypix : ℕ) : Prop := row < 65536 ∧ col < 65536 ∧ xpix < 65536 ∧ ypix < 65536

/-- The sizes, limited to what a terminal can have. -/
def limited (row col xpix ypix : ℕ) : WindowSize :=
  ⟨.ofNat (min row 65535), .ofNat (min col 65535), .ofNat (min xpix 65535),
    .ofNat (min ypix 65535)⟩

theorem pack_of_fits {row col xpix ypix : ℕ} (h : Fits row col xpix ypix) :
    pack row col xpix ypix = .ok (limited row col xpix ypix) := by
  have hmin : ∀ {n}, n < 65536 → min n 65535 = n := fun hn => Nat.min_eq_left (Nat.le_of_lt_succ hn)
  unfold Fits at h
  rw [pack, if_pos h, limited, hmin h.1, hmin h.2.1, hmin h.2.2.1, hmin h.2.2.2]

theorem pack_of_not_fits {row col xpix ypix : ℕ} (h : ¬ Fits row col xpix ypix) :
    ∃ e, pack row col xpix ypix = .error e := ⟨_, if_neg h⟩

namespace Host

variable (s : Host)

def setWindow (width height : ℕ) : Host :=
  { s with server := { s.server with windowWidth := width, windowHeight := height } }

def resize (pty : ℕ) (size : WindowSize) : Host := { s with kernel := s.kernel.resize pty size }

/-- A new pty for the client. -/
def withPty (master slave : ℕ) : Host where
  server := { s.server with masterFd := some master, slaveFd := some slave }
  kernel := s.kernel.openpty master slave

/-- The pty of `master_fd`, if it is set. -/
def pty? : Option ℕ := s.server.masterFd.bind s.kernel.pty?

/-- No signal is due, or it can be sent. -/
def CanSignal : Prop := ∀ pid, s.server.proxySubprocessPid = some pid → s.kernel.Signalable pid

@[simp] theorem pty?_setWindow (width height : ℕ) : (s.setWindow width height).pty? = s.pty? := rfl

@[simp] theorem pty?_resize (pty : ℕ) (size : WindowSize) : (s.resize pty size).pty? = s.pty? := rfl

@[simp] theorem pty?_withPty (master slave : ℕ) :
    (s.withPty master slave).pty? = some s.kernel.ptys :=
  s.kernel.pty?_openpty_master master slave

@[simp] theorem size_resize (pty : ℕ) (size : WindowSize) :
    (s.resize pty size).kernel.size pty = size := Function.update_self ..

def ready : Host := { s with server := { s.server with ptyEvent := true } }

@[simp] theorem pty?_ready : s.ready.pty? = s.pty? := rfl

@[simp] theorem kernel_ready : s.ready.kernel = s.kernel := rfl

end Host

section Calls

variable {s : Host} {E : Host → Prop} {Q : Unit → Host → Prop} {row col xpix ypix : ℕ}

theorem wp_ioctl {fd : Option ℕ} {size : WindowSize} :
    wp (ioctl fd size) Q (fun _ => E) s ↔
      (∀ pty, fd.bind s.kernel.pty? = some pty → Q () (s.resize pty size)) ∧
      (fd.bind s.kernel.pty? = none → E s) := by
  unfold ioctl
  cases fd with
  | none => simp
  | some fd => cases h : s.kernel.pty? fd <;> simp [h, Host.resize]

theorem wp_setWindowSize {fd : Option ℕ} :
    wp (setWindowSize fd row col xpix ypix) Q (fun _ => E) s ↔
      (∀ pty, Fits row col xpix ypix → fd.bind s.kernel.pty? = some pty →
        Q () (s.resize pty (limited row col xpix ypix))) ∧
      (¬ (Fits row col xpix ypix ∧ (fd.bind s.kernel.pty?).isSome) → E s) := by
  rw [setWindowSize, wp_bind, wp_liftExcept]
  by_cases h : Fits row col xpix ypix
  · simp [pack_of_fits h, h, wp_ioctl]
  · obtain ⟨e, he⟩ := pack_of_not_fits h
    simp [he, h]

theorem wp_kill {pid : ℕ} : wp (kill pid) Q (fun _ => E) s ↔
    (s.kernel.Signalable pid → Q () s) ∧ (¬ s.kernel.Signalable pid → E s) := by
  rw [kill, wp_bind, wp_get]
  cases h : s.kernel.process pid with
  | none => simp [Kernel.Signalable, h]
  | some p =>
    cases p with
    | other permitted => cases permitted <;> simp [Kernel.Signalable, h]
    | child | zombie => simp [Kernel.Signalable, h]

end Calls

section Callbacks

variable {s : Host} {E : Host → Prop} {Q : Bool → Host → Prop}
  {width height pixelwidth pixelheight : ℕ}

@[simp] theorem wp_setServer {Q : Unit → Host → Prop} {E : PyExc → Host → Prop}
    (f : Server → Server) : wp (setServer f) Q E s ↔ Q () { s with server := f s.server } :=
  wp_modify _

theorem wp_checkChannelPtyRequest {opened : Except PyExc (ℕ × ℕ)} :
    wp (checkChannelPtyRequest opened width height pixelwidth pixelheight) Q (fun _ => E) s ↔
      (∀ master slave, opened = .ok (master, slave) →
        (Fits height width pixelwidth pixelheight →
          Q true (((s.withPty master slave).setWindow width height).resize s.kernel.ptys
            (limited height width pixelwidth pixelheight)).ready) ∧
        (¬ Fits height width pixelwidth pixelheight →
          E ((s.withPty master slave).setWindow width height))) ∧
      ∀ e, opened = .error e → E s := by
  cases opened with
  | error e => simp [checkChannelPtyRequest, openpty]
  | ok fds =>
    obtain ⟨master, slave⟩ := fds
    have hpty := s.kernel.pty?_openpty_master master slave
    simp only [checkChannelPtyRequest, openpty, wp_bind, wp_liftExcept, wp_modify, wp_pure,
      wp_setServer, wp_get, wp_setWindowSize]
    simp [hpty, Host.withPty, Host.setWindow, Host.resize, Host.ready]

theorem wp_checkChannelWindowChangeRequest :
    wp (checkChannelWindowChangeRequest width height pixelwidth pixelheight) Q (fun _ => E) s ↔
      (∀ pty, Fits height width pixelwidth pixelheight → s.pty? = some pty →
        (s.CanSignal → Q true ((s.setWindow width height).resize pty
          (limited height width pixelwidth pixelheight))) ∧
        (¬ s.CanSignal → E ((s.setWindow width height).resize pty
          (limited height width pixelwidth pixelheight)))) ∧
      (¬ (Fits height width pixelwidth pixelheight ∧ s.pty?.isSome) →
        E (s.setWindow width height)) := by
  simp only [checkChannelWindowChangeRequest, wp_bind, wp_setServer, wp_get, wp_setWindowSize]
  refine and_congr (forall_congr' fun pty => forall_congr' fun _ => forall_congr' fun _ => ?_)
    Iff.rfl
  cases hpid : s.server.proxySubprocessPid with
  | none => simp [Host.resize, Host.CanSignal, Host.setWindow, hpid]
  | some pid => simp [Host.resize, Host.CanSignal, Host.setWindow, hpid, wp_kill]

end Callbacks

end Server

end Lobbyboy
