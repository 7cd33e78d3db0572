import Lobbyboy.Foundation.Loop
import Lobbyboy.SocketHandle.Session
import Mathlib.Data.List.Basic
import Mathlib.Data.Int.Notation

/-! The loop that carries bytes between the client and the proxy process. Before each of its
system calls the process, the client and the kernel do what they like. What the pty has
shown is what the client has been sent and what is unread; what it shows of the process's
output, and whether it echoes, is up to its mode, which the server leaves alone. The loop
leaves as soon as it sees that the process has exited, and looks at nothing else. -/

namespace Lobbyboy.SocketHandle

open Foundation Utils

/-! ### The two ends -/

/-- `written` is what the proxy process has written, `shown` all that the pty has put up for
reading: what its line discipline makes of that, and what it echoes. `unread` is what is left
of `shown`, `typed` what is left of the bytes that were given to the pty. `inbound` is what
the channel holds of the client's bytes, after which, if it is `closed`, there are no more.
`output` has the chunks that were sent to the client. -/
structure Proxied where
  written : List UInt8 := []
  shown : List UInt8 := []
  unread : List UInt8 := []
  typed : List UInt8 := []
  inbound : List UInt8 := []
  closed : Bool := false
  output : List (List UInt8) := []
  returncode : Option ℤ := none
  deriving DecidableEq

/-- The mode of the pty may change at any time, so each write comes with what is shown of it,
and an echo comes when it comes. -/
inductive Move
  | proxyWrites (bytes shown : List UInt8)
  | ptyEchoes (bytes : List UInt8)
  | proxyReads (n : ℕ)
  | proxyExits (code : ℤ)
  | clientSends (bytes : List UInt8)
  | clientCloses

namespace Proxied

/-- A process that has exited and a client that has closed do nothing more. -/
def move (s : Proxied) : Move → Proxied
  | .proxyWrites bytes shown =>
    if s.returncode = none then
      { s with
        written := s.written ++ bytes
        shown := s.shown ++ shown
        unread := s.unread ++ shown }
    else s
  | .ptyEchoes bytes => { s with shown := s.shown ++ bytes, unread := s.unread ++ bytes }
  | .proxyReads n => if s.returncode = none then { s with typed := s.typed.drop n } else s
  | .proxyExits code => if s.returncode = none then { s with returncode := some code } else s
  | .clientSends bytes => if s.closed then s else { s with inbound := s.inbound ++ bytes }
  | .clientCloses => { s with closed := true }

def moves (s : Proxied) (ms : List Move) : Proxied := ms.foldl move s

variable (s : Proxied)

/-- A read of that many bytes from the pty. -/
def dropUnread (n : ℕ) : Proxied := { s with unread := s.unread.drop n }

def deliver (data : List UInt8) : Proxied := { s with output := s.output ++ [data] }

/-- A read of that many bytes from the channel. -/
def dropInbound (n : ℕ) : Proxied := { s with inbound := s.inbound.drop n }

def type (data : List UInt8) : Proxied := { s with typed := s.typed ++ data }

@[simp] theorem dropUnread_output (n : ℕ) : (s.dropUnread n).output = s.output := rfl

@[simp] theorem deliver_output (data : List UInt8) : (s.deliver data).output = s.output ++ [data] :=
  rfl

@[simp] theorem dropInbound_output (n : ℕ) : (s.dropInbound n).output = s.output := rfl

@[simp] theorem type_output (data : List UInt8) : (s.type data).output = s.output := rfl

@[simp] theorem dropUnread_returncode (n : ℕ) : (s.dropUnread n).returncode = s.returncode := rfl

@[simp] theorem deliver_returncode (data : List UInt8) :
    (s.deliver data).returncode = s.returncode := rfl

@[simp] theorem dropInbound_returncode (n : ℕ) : (s.dropInbound n).returncode = s.returncode := rfl

@[simp] theorem type_returncode (data : List UInt8) : (s.type data).returncode = s.returncode := rfl

end Proxied

/-- One iteration of the loop, as far as it depends on others: what they do before each of
its calls, how many bytes are read and written at once, and which call raises. -/
structure Iteration where
  atPoll : List Move := []
  atSelect : List Move := []
  atRead : List Move := []
  atWrite : List Move := []
  length : ℕ := 10240
  accepted : ℕ := 10240
  select : Option PyExc := none
  read : Option PyExc := none
  write : Option PyExc := none

/-- All that is done in the iteration. -/
def Iteration.moves (it : Iteration) : List Move :=
  it.atPoll ++ it.atSelect ++ it.atRead ++ it.atWrite

/-! ### `user_using` -/

abbrev Using := EStateM PyExc Proxied

def others (ms : List Move) : Using Unit := modify (·.moves ms)

def mayRaise : Option PyExc → Using Unit
  | none => pure ()
  | some e => throw e

section Calls

variable (it : Iteration)

/-- `proxy_subprocess.poll()`. -/
def poll : Using (Option ℤ) := do
  others it.atPoll
  return (← get).returncode

/-- `select.select([master_fd, channel_fd], [], [], 0.1)`: which of the two is readable. -/
def selectFds : Using (Bool × Bool) := do
  others it.atSelect
  mayRaise it.select
  let s ← get
  return (!s.unread.isEmpty, !s.inbound.isEmpty || s.closed)

/-- As many bytes as one call reads: at least one of those that are there. -/
def Iteration.size : ℕ := max 1 (min it.length 10240)

/-- `os.read(master_fd, 10240)`. -/
def readMaster : Using (List UInt8) := do
  others it.atRead
  mayRaise it.read
  let s ← get
  set (s.dropUnread it.size)
  return s.unread.take it.size

/-- `send_to_channel(self.channel, data, suffix=b"")`. -/
def sendClient (data : List UInt8) : Using Unit := do
  others it.atWrite
  mayRaise it.write
  modify (·.deliver data)

/-- `self.channel.recv(10240)`. -/
def recvClient : Using (List UInt8) := do
  others it.atRead
  mayRaise it.read
  let s ← get
  set (s.dropInbound it.size)
  return s.inbound.take it.size

/-- `os.write(master_fd, data)`; how many bytes were written is not looked at. -/
def writeMaster (data : List UInt8) : Using Unit := do
  others it.atWrite
  mayRaise it.write
  modify (·.type (data.take it.accepted))

end Calls

/-- One pass through the loop of `user_using`, with its number. -/
def usingPass (its : ℕ → Iteration) (k : ℕ) : Using (ℕ ⊕ Unit) := do
  let it := its k
  if (← poll it).isSome then return .inr ()
  else do
    let r ← selectFds it
    if r.1 then sendClient it (← readMaster it)
    else if r.2 then writeMaster it (← recvClient it)
    else pure ()
    return .inl (k + 1)

/-! ### What the others do -/

section Moves

variable {s : Proxied} {ms : List Move}

theorem moves_induction {P : Proxied → Prop} (h : ∀ s m, P s → P (s.move m)) (hs : P s) :
    P (s.moves ms) := by
  induction ms generalizing s with
  | nil => exact hs
  | cons m ms ih => exact ih (h s m hs)

@[simp] theorem moves_output : (s.moves ms).output = s.output := by
  refine moves_induction (P := fun s' => s'.output = s.output) (fun s' m hs' => ?_) rfl
  rw [← hs']
  unfold Proxied.move
  split <;> (try split) <;> rfl

/-- What has been delivered and what is unread are all that was shown, in this order. -/
def Accounts (delivered : List UInt8) (s : Proxied) : Prop := s.shown = delivered ++ s.unread

theorem Accounts.moves {delivered : List UInt8} (ms : List Move) (h : Accounts delivered s) :
    Accounts delivered (s.moves ms) := by
  refine moves_induction (fun s m hs => ?_) h
  cases m with
  | proxyWrites bytes shown =>
    rw [Proxied.move]
    split_ifs
    · rw [Accounts, hs, List.append_assoc]
    · exact hs
  | ptyEchoes bytes => rw [Proxied.move, Accounts, hs, List.append_assoc]
  | proxyReads | proxyExits | clientSends =>
    rw [Proxied.move]
    split_ifs <;> exact hs
  | clientCloses => exact hs

/-- The pty is in raw mode: what is written is shown as it is, and nothing is echoed. -/
def Move.Raw : Move → Prop
  | .proxyWrites bytes shown => shown = bytes
  | .ptyEchoes bytes => bytes = []
  | _ => True

theorem shown_eq_written_moves (hraw : ∀ m ∈ ms, m.Raw) (h : s.shown = s.written) :
    (s.moves ms).shown = (s.moves ms).written := by
  induction ms generalizing s with
  | nil => exact h
  | cons m ms ih =>
    obtain ⟨hm, hms⟩ := List.forall_mem_cons.mp hraw
    refine ih hms ?_
    cases m with
    | proxyWrites bytes shown =>
      cases hm
      rw [Proxied.move]
      split_ifs
      · exact congrArg (· ++ bytes) h
      · exact h
    | ptyEchoes bytes =>
      cases hm
      exact (List.append_nil _).trans h
    | proxyReads | proxyExits | clientSends =>
      rw [Proxied.move]
      split_ifs <;> exact h
    | clientCloses => exact h

@[simp] theorem accounts_deliver {delivered data : List UInt8} :
    Accounts delivered (s.deliver data) ↔ Accounts delivered s := Iff.rfl

@[simp] theorem accounts_dropInbound {delivered : List UInt8} {n : ℕ} :
    Accounts delivered (s.dropInbound n) ↔ Accounts delivered s := Iff.rfl

@[simp] theorem accounts_type {delivered data : List UInt8} :
    Accounts delivered (s.type data) ↔ Accounts delivered s := Iff.rfl

/-- A read from the pty. -/
theorem Accounts.dropUnread {delivered : List UInt8} (h : Accounts delivered s) (n : ℕ) :
    Accounts (delivered ++ s.unread.take n) (s.dropUnread n) := by
  rw [Accounts, Proxied.dropUnread, List.append_assoc, List.take_append_drop]
  exact h

/-- The client's channel is readable, and nothing is read. -/
def AtEnd (s : Proxied) : Prop := s.closed = true ∧ s.inbound = []

theorem AtEnd.moves (ms : List Move) (h : AtEnd s) : AtEnd (s.moves ms) := by
  refine moves_induction (fun s m hs => ?_) h
  cases m with
  | clientSends bytes =>
    rw [Proxied.move, if_pos hs.1]
    exact hs
  | proxyWrites | proxyReads | proxyExits =>
    rw [Proxied.move]
    split_ifs <;> exact hs
  | ptyEchoes => exact hs
  | clientCloses => exact ⟨rfl, hs.2⟩

theorem AtEnd.dropInbound (h : AtEnd s) (n : ℕ) : AtEnd (s.dropInbound n) := by
  refine ⟨h.1, ?_⟩
  rw [Proxied.dropInbound, h.2, List.drop_nil]

/-- The proxy process exits. -/
def Exits (ms : List Move) : Prop := ∃ code, Move.proxyExits code ∈ ms

theorem exits_append (ms ms' : List Move) : Exits (ms ++ ms') ↔ Exits ms ∨ Exits ms' := by
  simp only [Exits, List.mem_append, exists_or]

theorem isSome_returncode_move {m : Move} :
    (s.move m).returncode.isSome ↔ s.returncode.isSome ∨ Exits [m] := by
  cases m with
  | proxyExits code =>
    cases hcode : s.returncode <;> simp [Proxied.move, Exits, hcode]
  | proxyWrites | proxyReads | clientSends =>
    rw [Proxied.move]
    split_ifs <;> simp [Exits]
  | ptyEchoes | clientCloses => simp [Proxied.move, Exits]

theorem isSome_returncode_moves :
    (s.moves ms).returncode.isSome ↔ s.returncode.isSome ∨ Exits ms := by
  induction ms generalizing s with
  | nil => simp [Proxied.moves, Exits]
  | cons m ms ih =>
    have hcons : Exits (m :: ms) ↔ Exits [m] ∨ Exits ms := exits_append [m] ms
    rw [hcons, ← or_assoc, ← isSome_returncode_move]
    exact ih

end Moves

/-! ### What a pass does -/

section Pass

variable {its : ℕ → Iteration} {it : Iteration} {k : ℕ} {s : Proxied} {E : PyExc → Proxied → Prop}

@[simp] theorem wp_others {Q : Unit → Proxied → Prop} (ms : List Move) :
    wp (others ms) Q E s ↔ Q () (s.moves ms) := wp_modify _

@[simp] theorem wp_mayRaise {Q : Unit → Proxied → Prop} (failure : Option PyExc) :
    wp (mayRaise failure) Q E s ↔ (failure = none → Q () s) ∧ ∀ e, failure = some e → E e s := by
  cases failure <;> simp [mayRaise]

theorem wp_selectFds {Q : Bool × Bool → Proxied → Prop} :
    wp (selectFds it) Q E s ↔
      (it.select = none → Q (!(s.moves it.atSelect).unread.isEmpty,
        !(s.moves it.atSelect).inbound.isEmpty || (s.moves it.atSelect).closed)
        (s.moves it.atSelect)) ∧
      ∀ e, it.select = some e → E e (s.moves it.atSelect) := by
  simp [selectFds]

theorem wp_readMaster {Q : List UInt8 → Proxied → Prop} :
    wp (readMaster it) Q E s ↔
      (it.read = none → Q ((s.moves it.atRead).unread.take it.size)
        ((s.moves it.atRead).dropUnread it.size)) ∧
      ∀ e, it.read = some e → E e (s.moves it.atRead) := by
  simp [readMaster]

theorem wp_sendClient {Q : Unit → Proxied → Prop} (data : List UInt8) :
    wp (sendClient it data) Q E s ↔
      (it.write = none → Q () ((s.moves it.atWrite).deliver data)) ∧
      ∀ e, it.write = some e → E e (s.moves it.atWrite) := by
  simp [sendClient]

theorem wp_recvClient {Q : List UInt8 → Proxied → Prop} :
    wp (recvClient it) Q E s ↔
      (it.read = none → Q ((s.moves it.atRead).inbound.take it.size)
        ((s.moves it.atRead).dropInbound it.size)) ∧
      ∀ e, it.read = some e → E e (s.moves it.atRead) := by
  simp [recvClient]

theorem wp_writeMaster {Q : Unit → Proxied → Prop} (data : List UInt8) :
    wp (writeMaster it data) Q E s ↔
      (it.write = none → Q () ((s.moves it.atWrite).type (data.take it.accepted))) ∧
      ∀ e, it.write = some e → E e (s.moves it.atWrite) := by
  simp [writeMaster]

theorem wp_usingPass {Q : ℕ ⊕ Unit → Proxied → Prop} :
    wp (usingPass its k) Q E s ↔
      if (s.moves (its k).atPoll).returncode.isSome then Q (.inr ()) (s.moves (its k).atPoll)
      else wp (selectFds (its k)) (fun r s' =>
        if r.1 then wp (readMaster (its k)) (fun data s₁ =>
          wp (sendClient (its k) data) (fun _ => Q (.inl (k + 1))) E s₁) E s'
        else if r.2 then wp (recvClient (its k)) (fun data s₁ =>
          wp (writeMaster (its k) data) (fun _ => Q (.inl (k + 1))) E s₁) E s'
        else Q (.inl (k + 1)) s') E (s.moves (its k).atPoll) := by
  simp only [usingPass, poll, wp_bind, wp_others, wp_get, wp_pure, wp_ite]

/-- What the others have made of the state at the poll, and then at `select`. -/
def Iteration.polled (it : Iteration) (s : Proxied) : Proxied := s.moves it.atPoll

def Iteration.selected (it : Iteration) (s : Proxied) : Proxied := (it.polled s).moves it.atSelect

@[simp] theorem Iteration.polled_output : (it.polled s).output = s.output := moves_output

@[simp] theorem Iteration.selected_output : (it.selected s).output = s.output := by
  rw [selected, moves_output, polled_output]

/-- The call of an iteration that raises. -/
def Iteration.Raises (it : Iteration) (e : PyExc) : Prop :=
  it.select = some e ∨ it.select = none ∧ (it.read = some e ∨ it.read = none ∧ it.write = some e)

/-- How a pass ends. -/
inductive Passed (it : Iteration) (k : ℕ) (s : Proxied) :
    EStateM.Result PyExc Proxied (ℕ ⊕ Unit) → Prop
  | left (exited : (it.polled s).returncode.isSome) : Passed it k s (.ok (.inr ()) (it.polled s))
  | idle (running : (it.polled s).returncode.isSome = false) (select : it.select = none)
      (unread : (it.selected s).unread = []) (inbound : (it.selected s).inbound = [])
      (opened : (it.selected s).closed = false) :
      Passed it k s (.ok (.inl (k + 1)) (it.selected s))
  | fromProxy (running : (it.polled s).returncode.isSome = false) (returns : ∀ e, ¬ it.Raises e)
      (unread : (it.selected s).unread ≠ []) :
      Passed it k s (.ok (.inl (k + 1)) (((((it.selected s).moves it.atRead).dropUnread
        it.size).moves it.atWrite).deliver (((it.selected s).moves it.atRead).unread.take it.size)))
  | fromClient (running : (it.polled s).returncode.isSome = false) (returns : ∀ e, ¬ it.Raises e)
      (unread : (it.selected s).unread = []) :
      Passed it k s (.ok (.inl (k + 1)) (((((it.selected s).moves it.atRead).dropInbound
        it.size).moves it.atWrite).type
          ((((it.selected s).moves it.atRead).inbound.take it.size).take it.accepted)))
  | raised (running : (it.polled s).returncode.isSome = false) {e : PyExc} (raises : it.Raises e)
      (s' : Proxied) : Passed it k s (.error e s')

theorem passed_usingPass (its : ℕ → Iteration) (k : ℕ) (s : Proxied) :
    Passed (its k) k s (usingPass its k s) := by
  have h : wp (usingPass its k) (fun r s' => Passed (its k) k s (.ok r s'))
      (fun e s' => Passed (its k) k s (.error e s')) s := by
    rw [wp_usingPass]
    split_ifs with hexited
    · exact .left hexited
    · rw [Bool.not_eq_true] at hexited
      rw [wp_selectFds]
      refine ⟨fun hselect => ?_, fun e he => .raised hexited (.inl he) _⟩
      split_ifs with hmaster hchannel
      · rw [wp_readMaster]
        refine ⟨fun hread => ?_, fun e he => .raised hexited (.inr ⟨hselect, .inl he⟩) _⟩
        rw [wp_sendClient]
        refine ⟨fun hwrite => ?_, fun e he => .raised hexited (.inr ⟨hselect, .inr ⟨hread, he⟩⟩) _⟩
        exact .fromProxy hexited (by simp [Iteration.Raises, hselect, hread, hwrite])
          (by simpa [Iteration.selected, Iteration.polled] using hmaster)
      · rw [wp_recvClient]
        refine ⟨fun hread => ?_, fun e he => .raised hexited (.inr ⟨hselect, .inl he⟩) _⟩
        rw [wp_writeMaster]
        refine ⟨fun hwrite => ?_, fun e he => .raised hexited (.inr ⟨hselect, .inr ⟨hread, he⟩⟩) _⟩
        exact .fromClient hexited (by simp [Iteration.Raises, hselect, hread, hwrite])
          (by simpa [Iteration.selected, Iteration.polled] using hmaster)
      · have hnone : ((its k).selected s).inbound = [] ∧ ((its k).selected s).closed = false := by
          simpa [Iteration.selected, Iteration.polled] using hchannel
        exact .idle hexited hselect (by simpa [Iteration.selected, Iteration.polled] using hmaster)
          hnone.1 hnone.2
  cases hr : usingPass its k s with
  | ok r s' => exact (wp_eq_ok hr).mp h
  | error e s' => exact (wp_eq_error hr).mp h

end Pass

/-! ### What the client is sent -/

section Delivery

variable {its : ℕ → Iteration} {k : ℕ} {s s' : Proxied}

/-- A pass that does not raise delivers what it takes off the pty. -/
theorem accounts_of_usingPass {r : ℕ ⊕ Unit} (hs : Accounts s.output.flatten s)
    (h : usingPass its k s = .ok r s') : Accounts s'.output.flatten s' := by
  have hpassed := passed_usingPass its k s
  rw [h] at hpassed
  have hselected : Accounts s.output.flatten ((its k).selected s) := (hs.moves _).moves _
  have hread := hselected.moves (its k).atRead
  cases hpassed with
  | left =>
    rw [Iteration.polled_output]
    exact hs.moves (its k).atPoll
  | idle =>
    rw [Iteration.selected_output]
    exact hselected
  | fromProxy =>
    have hsent := (hread.dropUnread (its k).size).moves (its k).atWrite
    simpa using hsent
  | fromClient =>
    have hkept := (accounts_dropInbound (n := (its k).size)).mpr hread
    simpa using hkept.moves (its k).atWrite

/-- The loop begins: whatever the pty has shown is unread. -/
structure Opened (s : Proxied) : Prop where
  output : s.output = []
  unread : s.unread = s.shown

/-- In raw mode a pass, too, leaves nothing but what was written to be shown. -/
theorem shown_eq_written_of_usingPass {r : ℕ ⊕ Unit} (hraw : ∀ m ∈ (its k).moves, m.Raw)
    (hs : s.shown = s.written) (h : usingPass its k s = .ok r s') : s'.shown = s'.written := by
  simp only [Iteration.moves, List.forall_mem_append] at hraw
  obtain ⟨⟨⟨hpoll, hselect⟩, hread⟩, hwrite⟩ := hraw
  have hpassed := passed_usingPass its k s
  rw [h] at hpassed
  have hpolled : ((its k).polled s).shown = ((its k).polled s).written :=
    shown_eq_written_moves hpoll hs
  have hselected : ((its k).selected s).shown = ((its k).selected s).written :=
    shown_eq_written_moves hselect hpolled
  have hstart := shown_eq_written_moves hread hselected
  cases hpassed with
  | left => exact hpolled
  | idle => exact hselected
  | fromProxy =>
    exact shown_eq_written_moves
      (s := (((its k).selected s).moves (its k).atRead).dropUnread (its k).size) hwrite hstart
  | fromClient =>
    exact shown_eq_written_moves
      (s := (((its k).selected s).moves (its k).atRead).dropInbound (its k).size) hwrite hstart

end Delivery

/-! ### When the loop is left -/

section End

variable {its : ℕ → Iteration} {k : ℕ} {s s' : Proxied}

theorem running_of_polled {it : Iteration} (h : (it.polled s).returncode.isSome = false) :
    s.returncode.isSome = false := by
  rw [Iteration.polled, Bool.eq_false_iff, ne_eq, isSome_returncode_moves, not_or] at h
  simpa using h.1

/-- A pass that comes to its last call: whether the process has exited by then. -/
theorem isSome_returncode_written {it : Iteration} {t : Proxied}
    (hpolled : (it.polled s).returncode.isSome = false)
    (ht : t.returncode = ((it.selected s).moves it.atRead).returncode) :
    (t.moves it.atWrite).returncode.isSome ↔ Exits it.moves := by
  have hrunning := running_of_polled hpolled
  simp only [isSome_returncode_moves, ht, Iteration.selected, Iteration.polled, Iteration.moves,
    exits_append, hrunning, Bool.false_eq_true, false_or]

/-- At the end of the channel a pass goes on whatever it carries: it looks at the proxy
process alone. -/
theorem usingPass_atEnd {k' : ℕ} (hs : AtEnd s) (h : usingPass its k s = .ok (.inl k') s') :
    k' = k + 1 ∧ AtEnd s' ∧ s.returncode.isSome = false ∧ (∀ e, ¬ (its k).Raises e) ∧
      (s'.returncode.isSome ↔ Exits (its k).moves) := by
  have hpassed := passed_usingPass its k s
  rw [h] at hpassed
  have hselected : AtEnd ((its k).selected s) := (hs.moves _).moves _
  have hread := hselected.moves (its k).atRead
  cases hpassed with
  | idle _ _ _ _ hopened =>
    rw [hselected.1] at hopened
    cases hopened
  | fromProxy hpolled hreturns =>
    have hsent : AtEnd ((((its k).selected s).moves (its k).atRead).dropUnread (its k).size) :=
      hread
    refine ⟨rfl, hsent.moves _, running_of_polled hpolled, hreturns, ?_⟩
    rw [Proxied.deliver_returncode]
    exact isSome_returncode_written hpolled (Proxied.dropUnread_returncode ..)
  | fromClient hpolled hreturns =>
    refine ⟨rfl, (hread.dropInbound (its k).size).moves _, running_of_polled hpolled, hreturns, ?_⟩
    rw [Proxied.type_returncode]
    exact isSome_returncode_written hpolled (Proxied.dropInbound_returncode ..)

/-- The proxy process exits in this iteration, or a call raises. -/
def Iteration.Last (it : Iteration) : Prop := Exits it.moves ∨ ∃ e, it.Raises e

/-- Otherwise there is another pass. -/
theorem exists_pass (hs : AtEnd s) (hrunning : s.returncode.isSome = false)
    (hlast : ¬ (its k).Last) :
    ∃ s', usingPass its k s = .ok (.inl (k + 1)) s' ∧ AtEnd s' ∧ s'.returncode.isSome = false := by
  rw [Iteration.Last, not_or, not_exists] at hlast
  have hpassed := passed_usingPass its k s
  cases hr : usingPass its k s with
  | error e s' =>
    rw [hr] at hpassed
    cases hpassed with
    | raised _ hraises => exact absurd hraises (hlast.2 e)
  | ok r s' =>
    cases r with
    | inl k' =>
      obtain ⟨rfl, hs', -, -, hcode⟩ := usingPass_atEnd hs hr
      refine ⟨s', rfl, hs', ?_⟩
      rw [Bool.eq_false_iff, ne_eq, hcode]
      exact hlast.1
    | inr u =>
      rw [hr] at hpassed
      cases hpassed with
      | left hexited =>
        rw [Iteration.polled, isSome_returncode_moves, hrunning] at hexited
        refine absurd ?_ hlast.1
        simp only [Iteration.moves, exits_append]
        exact .inl (.inl (.inl (hexited.resolve_left Bool.false_ne_true)))

/-- Without the process the pass leaves the loop. -/
theorem not_inl_of_exited {r : ℕ} (hexited : s.returncode.isSome) :
    usingPass its k s ≠ .ok (.inl r) s' := by
  intro h
  have hpassed := passed_usingPass its k s
  rw [h] at hpassed
  have hrunning : s.returncode.isSome = false := by
    cases hpassed with
    | idle hpolled | fromProxy hpolled | fromClient hpolled => exact running_of_polled hpolled
  rw [hexited] at hrunning
  cases hrunning

theorem loopEnds_of_not_inl (h : ∀ k' s', usingPass its k s ≠ .ok (.inl k') s') :
    LoopEnds (usingPass its) k s :=
  ⟨1, fun k' s' hrun => h k' s' (runningAfter_one.mp hrun)⟩

/-- The loop is left at the latest in the pass after a last iteration. -/
theorem loopEnds_of_last (d : ℕ) (hs : AtEnd s) (hlast : (its (k + d)).Last) :
    LoopEnds (usingPass its) k s := by
  induction d generalizing k s with
  | zero =>
    by_cases h : ∃ k' s', usingPass its k s = .ok (.inl k') s'
    · obtain ⟨k', s', hpass⟩ := h
      obtain ⟨-, -, -, hreturns, hcode⟩ := usingPass_atEnd hs hpass
      have hexits : Exits (its k).moves := hlast.resolve_right fun ⟨e, he⟩ => hreturns e he
      rw [loopEnds_iff_of_pass hpass]
      exact loopEnds_of_not_inl fun _ _ => not_inl_of_exited (hcode.mpr hexits)
    · exact loopEnds_of_not_inl fun k' s' hpass => h ⟨k', s', hpass⟩
  | succ d ih =>
    by_cases h : ∃ k' s', usingPass its k s = .ok (.inl k') s'
    · obtain ⟨k', s', hpass⟩ := h
      obtain ⟨rfl, hs', -⟩ := usingPass_atEnd hs hpass
      rw [loopEnds_iff_of_pass hpass]
      rw [← Nat.add_assoc, Nat.add_right_comm] at hlast
      exact ih hs' hlast
    · exact loopEnds_of_not_inl fun k' s' hpass => h ⟨k', s', hpass⟩

theorem running_of_not_last (hs : AtEnd s) (hrunning : s.returncode.isSome = false)
    (hlast : ∀ j ≥ k, ¬ (its j).Last) (n : ℕ) :
    ∃ s', RunningAfter (usingPass its) n k s (k + n) s' ∧ AtEnd s' ∧
      s'.returncode.isSome = false := by
  induction n with
  | zero => exact ⟨s, rfl, hs, hrunning⟩
  | succ n ih =>
    obtain ⟨s₁, hrun, hs₁, hcode⟩ := ih
    obtain ⟨s₂, hpass, hs₂⟩ := exists_pass hs₁ hcode (hlast (k + n) (Nat.le_add_right k n))
    exact ⟨s₂, hrun.add (runningAfter_one.mpr hpass), hs₂⟩

/-- Once the client is gone, the loop ends if and only if the proxy process exits or a call
raises: that the client is gone ends nothing. -/
theorem userUsing_ends_iff (its : ℕ → Iteration) {s : Proxied} (k : ℕ) (hs : AtEnd s) :
    LoopEnds (usingPass its) k s ↔ s.returncode.isSome ∨ ∃ j ≥ k, (its j).Last := by
  constructor
  · rintro ⟨n, hn⟩
    by_contra hnone
    simp only [not_or, Bool.not_eq_true, not_exists, not_and] at hnone
    obtain ⟨s', hrun, -⟩ := running_of_not_last hs hnone.1 hnone.2 n
    exact hn _ _ hrun
  · rintro (hexited | ⟨j, hj, hlast⟩)
    · exact loopEnds_of_not_inl fun _ _ => not_inl_of_exited hexited
    · obtain ⟨d, rfl⟩ := Nat.exists_eq_add_of_le hj
      exact loopEnds_of_last d hs hlast

/-- The client is gone, and the process exits two iterations later. -/
theorem userUsing_ends_after_exit :
    LoopEnds (usingPass fun j => if j = 2 then { atSelect := [.proxyExits 0] } else {}) 0
      { closed := true } :=
  (userUsing_ends_iff _ 0 ⟨rfl, rfl⟩).mpr (.inr ⟨2, by decide, .inl ⟨0, by simp [Iteration.moves]⟩⟩)

/-- The client is gone, and the process waits for input. -/
theorem userUsing_spins :
    ¬ ∀ (its : ℕ → Iteration) (k : ℕ) (s : Proxied), AtEnd s → LoopEnds (usingPass its) k s := by
  intro h
  have hlast : ∀ j ≥ 0, ¬ Iteration.Last {} := fun j _ => by
    simp [Iteration.Last, Iteration.moves, Exits, Iteration.Raises]
  have hs : AtEnd { closed := true } := ⟨rfl, rfl⟩
  obtain ⟨n, hn⟩ := h (fun _ => {}) 0 _ hs
  obtain ⟨s', hrun, -⟩ := running_of_not_last hs rfl hlast n
  exact hn _ _ hrun

end End

/-! ### The turns of a session -/

section Turns

variable {its : ℕ → Iteration} {k k' : ℕ} {s s' : Proxied}

/-- A session that is given such turns sends its client these chunks and nothing else. -/
def Sends (turns : List Turn) (sent : List (List UInt8)) : Prop :=
  ∀ w : World Transport, takeTurns turns w = .ok () { w with output := w.output ++ sent }

theorem takeTurns_append (turns turns' : List Turn) :
    takeTurns (turns ++ turns') = (do takeTurns turns; takeTurns turns') := by
  induction turns with
  | nil => rfl
  | cons turn turns ih =>
    rw [List.cons_append, takeTurns, ih, takeTurns, bind_assoc]

theorem sends_nil : Sends [] [] := fun w => by
  rw [takeTurns, List.append_nil]
  rfl

theorem Sends.append {turns turns' : List Turn} {sent sent' : List (List UInt8)}
    (h : Sends turns sent) (h' : Sends turns' sent') : Sends (turns ++ turns') (sent ++ sent') := by
  intro w
  rw [takeTurns_append, bind_apply, h w, ← List.append_assoc]
  exact h' _

/-- A pass that goes on is a turn of the session. -/
theorem exists_turn (h : usingPass its k s = .ok (.inl k') s') :
    ∃ turn sent, s'.output = s.output ++ sent ∧ Sends [turn] sent := by
  have hpassed := passed_usingPass its k s
  rw [h] at hpassed
  cases hpassed with
  | idle =>
    refine ⟨.idle, [], by simp, fun w => ?_⟩
    rw [List.append_nil]
    rfl
  | fromProxy =>
    let bytes := (((its k).selected s).moves (its k).atRead).unread.take (its k).size
    exact ⟨.fromProxy (.ok bytes) none, [bytes], by simp [bytes], fun w => rfl⟩
  | fromClient =>
    refine ⟨.fromClient (.ok []) none, [], by simp, fun w => ?_⟩
    rw [List.append_nil]
    rfl

/-- The session that is given the passes of a loop as its turns. -/
theorem exists_turns {n : ℕ} (h : RunningAfter (usingPass its) n k s k' s') :
    ∃ turns sent, turns.length = n ∧ s'.output = s.output ++ sent ∧ Sends turns sent := by
  induction n generalizing k s with
  | zero =>
    cases h
    exact ⟨[], [], rfl, (List.append_nil _).symm, sends_nil⟩
  | succ n ih =>
    rw [Nat.add_comm] at h
    obtain ⟨k₁, s₁, hpass, hrun⟩ := h.of_add
    obtain ⟨turn, sent, houtput, hsends⟩ := exists_turn (runningAfter_one.mp hpass)
    obtain ⟨turns, sent', hlength, houtput', hsends'⟩ := ih hrun
    refine ⟨turn :: turns, sent ++ sent', by rw [List.length_cons, hlength], ?_,
      hsends.append hsends'⟩
    rw [houtput', houtput, List.append_assoc]

end Turns

end Lobbyboy.SocketHandle
