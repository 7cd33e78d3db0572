import Lobbyboy.SocketHandle.UserUsing

/-! What becomes of the bytes of the client in the loop that carries them. They reach the
input of the proxy process in their order, and none twice. The loop takes them off the
channel only when the process has left it no output to carry, and of what it takes it
loses what a write does not accept. -/

namespace Lobbyboy.SocketHandle

open Foundation Utils

/-! ### The bytes of the others -/

namespace Proxied

variable (s : Proxied)

/-- What the client sends. -/
def sends : Move → List UInt8
  | .clientSends bytes => if s.closed then [] else bytes
  | _ => []

/-- What the proxy process takes of what the pty was given. -/
def consumes : Move → List UInt8
  | .proxyReads n => if s.returncode = none then s.typed.take n else []
  | _ => []

/-- The bytes of one move after the other. -/
def along (bytes : Proxied → Move → List UInt8) : Proxied → List Move → List UInt8
  | _, [] => []
  | s, m :: ms => bytes s m ++ along bytes (s.move m) ms

theorem moves_cons (m : Move) (ms : List Move) : s.moves (m :: ms) = (s.move m).moves ms := rfl

theorem inbound_move (m : Move) : (s.move m).inbound = s.inbound ++ s.sends m := by
  cases m with
  | clientSends bytes =>
    rw [move, sends]
    split_ifs
    · rw [List.append_nil]
    · rfl
  | proxyWrites | proxyReads | proxyExits =>
    refine Eq.trans ?_ (List.append_nil _).symm
    rw [move]
    split_ifs <;> rfl
  | ptyEchoes | clientCloses => exact (List.append_nil _).symm

theorem typed_move (m : Move) : s.typed = s.consumes m ++ (s.move m).typed := by
  cases m with
  | proxyReads n =>
    rw [move, consumes]
    split_ifs
    · exact (List.take_append_drop n s.typed).symm
    · rfl
  | proxyWrites | clientSends | proxyExits =>
    refine Eq.trans ?_ (List.nil_append _).symm
    rw [move]
    split_ifs <;> rfl
  | ptyEchoes | clientCloses => rfl

theorem inbound_moves (ms : List Move) :
    (s.moves ms).inbound = s.inbound ++ along sends s ms := by
  induction ms generalizing s with
  | nil => exact (List.append_nil _).symm
  | cons m ms ih => rw [moves_cons, ih, inbound_move, along, List.append_assoc]

theorem typed_moves (ms : List Move) : s.typed = along consumes s ms ++ (s.moves ms).typed := by
  induction ms generalizing s with
  | nil => rfl
  | cons m ms ih => rw [moves_cons, along, List.append_assoc, ← ih, ← typed_move]

theorem along_append (bytes : Proxied → Move → List UInt8) (ms ms' : List Move) :
    along bytes s (ms ++ ms') = along bytes s ms ++ along bytes (s.moves ms) ms' := by
  induction ms generalizing s with
  | nil => rfl
  | cons m ms ih => rw [List.cons_append, along, ih, along, List.append_assoc, moves_cons]

variable {s} {t : Proxied}

/-- What the client sends depends on whether it has closed. -/
theorem along_sends_congr (h : s.closed = t.closed) (ms : List Move) :
    along sends s ms = along sends t ms := by
  induction ms generalizing s t with
  | nil => rfl
  | cons m ms ih =>
    have hsends : s.sends m = t.sends m := by
      cases m with
      | clientSends => rw [sends, sends, h]
      | _ => rfl
    have hclosed : (s.move m).closed = (t.move m).closed := by
      unfold move
      split <;> (try split_ifs) <;> first | rfl | exact h
    rw [along, along, hsends, ih hclosed]

/-- What the process reads depends on what it is given and on whether it has exited. -/
theorem along_consumes_congr (htyped : s.typed = t.typed) (h : s.returncode = t.returncode)
    (ms : List Move) : along consumes s ms = along consumes t ms := by
  induction ms generalizing s t with
  | nil => rfl
  | cons m ms ih =>
    have hconsumes : s.consumes m = t.consumes m := by
      cases m with
      | proxyReads => rw [consumes, consumes, h, htyped]
      | _ => rfl
    have hboth : (s.move m).typed = (t.move m).typed ∧
        (s.move m).returncode = (t.move m).returncode := by
      cases m with
      | proxyReads n =>
        rw [move, move, ← h]
        split_ifs
        · exact ⟨congrArg (List.drop n) htyped, rfl⟩
        · exact ⟨htyped, h⟩
      | proxyWrites =>
        rw [move, move, ← h]
        split_ifs
        · exact ⟨htyped, rfl⟩
        · exact ⟨htyped, h⟩
      | proxyExits code =>
        rw [move, move, ← h]
        split_ifs
        · exact ⟨htyped, rfl⟩
        · exact ⟨htyped, h⟩
      | clientSends =>
        rw [move, move]
        split_ifs <;> exact ⟨htyped, h⟩
      | ptyEchoes | clientCloses => exact ⟨htyped, h⟩
    rw [along, along, hconsumes, ih hboth.1 hboth.2]

/-- A byte is taken off the channel, or output off the pty, between two moves. -/
theorem along_between {before : List Move} (ht : s.moves before = t) {u : Proxied}
    (hclosed : u.closed = t.closed) (htyped : u.typed = t.typed)
    (hcode : u.returncode = t.returncode) {received : List UInt8}
    (hinbound : t.inbound = received ++ u.inbound) (ms : List Move) :
    s.inbound ++ along sends s (before ++ ms) = received ++ (u.moves ms).inbound ∧
      s.typed = along consumes s (before ++ ms) ++ (u.moves ms).typed := by
  rw [along_append, along_append, ht]
  constructor
  · rw [← List.append_assoc, ← inbound_moves, ht, hinbound, inbound_moves, List.append_assoc,
      along_sends_congr hclosed]
  · rw [List.append_assoc, ← along_consumes_congr htyped hcode, ← typed_moves, htyped, ← ht,
      ← typed_moves]

end Proxied

/-! ### What a pass carries -/

/-- A pass as the client's bytes see it: what the client has sent meanwhile, what was taken
off the channel, how much of it the write accepted, what the process has read meanwhile,
and whether its output was all carried when the loop looked. -/
structure Carry where
  sent : List UInt8
  received : List UInt8
  accepted : ℕ
  consumed : List UInt8
  quiet : Bool

/-- What reached the input of the process. -/
def Carry.given (c : Carry) : List UInt8 := c.received.take c.accepted

namespace Iteration

variable (it : Iteration) (s : Proxied)

/-- There is something to carry, one way or the other. -/
def isReady : Bool :=
  !(it.selected s).unread.isEmpty || !(it.selected s).inbound.isEmpty || (it.selected s).closed

/-- What the others do in a pass. -/
def passMoves : List Move :=
  it.atPoll ++ it.atSelect ++ if it.isReady s then it.atRead ++ it.atWrite else []

def isQuiet : Bool := (it.selected s).unread.isEmpty

def carry : Carry where
  sent := Proxied.along Proxied.sends s (it.passMoves s)
  received :=
    if it.isQuiet s && it.isReady s then ((it.selected s).moves it.atRead).inbound.take it.size
    else []
  accepted := it.accepted
  consumed := Proxied.along Proxied.consumes s (it.passMoves s)
  quiet := it.isQuiet s

end Iteration

section Pass

variable {its : ℕ → Iteration} {it : Iteration} {k k' : ℕ} {s s' : Proxied}

theorem received_eq_nil (h : (it.isQuiet s && it.isReady s) = false) :
    (it.carry s).received = [] := if_neg (Bool.eq_false_iff.mp h)

theorem received_eq_take (h : (it.isQuiet s && it.isReady s) = true) :
    (it.carry s).received = ((it.selected s).moves it.atRead).inbound.take it.size := if_pos h

theorem passMoves_of_not_isReady (h : it.isReady s = false) :
    it.passMoves s = it.atPoll ++ it.atSelect := by
  rw [Iteration.passMoves, h]
  exact List.append_nil _

theorem passMoves_of_isReady (h : it.isReady s = true) :
    it.passMoves s = (it.atPoll ++ it.atSelect ++ it.atRead) ++ it.atWrite := by
  rw [Iteration.passMoves, if_pos h, ← List.append_assoc]

/-- Nothing is lost between the client and the channel's reader, or between the writer and
the process. -/
structure Carried (c : Carry) (s s' : Proxied) : Prop where
  inbound : s.inbound ++ c.sent = c.received ++ s'.inbound
  typed : s.typed ++ c.given = c.consumed ++ s'.typed

theorem moves_before_last (it : Iteration) (s : Proxied) :
    s.moves (it.atPoll ++ it.atSelect ++ it.atRead) = (it.selected s).moves it.atRead := by
  rw [Proxied.moves, List.foldl_append, List.foldl_append]
  rfl

theorem carried_of_idle (hready : it.isReady s = false) :
    Carried (it.carry s) s (it.selected s) := by
  have hreceived : (it.carry s).received = [] := received_eq_nil (by simp [hready])
  have hselected : s.moves (it.atPoll ++ it.atSelect) = it.selected s := List.foldl_append
  rw [← hselected, ← passMoves_of_not_isReady hready]
  constructor
  · rw [hreceived, Proxied.inbound_moves]
    rfl
  · rw [Carry.given, hreceived, List.take_nil, List.append_nil]
    exact s.typed_moves _

theorem carried_of_fromProxy (hquiet : it.isQuiet s = false) :
    Carried (it.carry s) s (((((it.selected s).moves it.atRead).dropUnread it.size).moves
      it.atWrite).deliver (((it.selected s).moves it.atRead).unread.take it.size)) := by
  have hready : it.isReady s = true := by
    rw [Iteration.isQuiet] at hquiet
    simp [Iteration.isReady, hquiet]
  have hreceived : (it.carry s).received = [] := received_eq_nil (by simp [hquiet])
  obtain ⟨hinbound, htyped⟩ := Proxied.along_between (moves_before_last it s)
    (u := ((it.selected s).moves it.atRead).dropUnread it.size) rfl rfl rfl
    (List.nil_append _).symm it.atWrite
  rw [← passMoves_of_isReady hready] at hinbound htyped
  constructor
  · rw [hreceived]
    exact hinbound
  · rw [Carry.given, hreceived, List.take_nil, List.append_nil]
    exact htyped

theorem carried_of_fromClient (hquiet : it.isQuiet s = true) (hready : it.isReady s = true) :
    Carried (it.carry s) s (((((it.selected s).moves it.atRead).dropInbound it.size).moves
      it.atWrite).type
        ((((it.selected s).moves it.atRead).inbound.take it.size).take it.accepted)) := by
  have hboth : (it.isQuiet s && it.isReady s) = true := by rw [hquiet, hready]; rfl
  have hreceived := received_eq_take hboth
  obtain ⟨hinbound, htyped⟩ := Proxied.along_between (moves_before_last it s)
    (u := ((it.selected s).moves it.atRead).dropInbound it.size) rfl rfl rfl
    (List.take_append_drop it.size _).symm it.atWrite
  rw [← passMoves_of_isReady hready] at hinbound htyped
  constructor
  · rw [hreceived]
    exact hinbound
  · rw [Carry.given, hreceived, htyped, List.append_assoc]
    rfl

theorem carried_usingPass (h : usingPass its k s = .ok (.inl k') s') :
    Carried ((its k).carry s) s s' := by
  have hwp : wp (usingPass its k) (fun r s' => r.isLeft → Carried ((its k).carry s) s s')
      (fun _ _ => True) s := by
    rw [wp_usingPass]
    split_ifs
    · exact fun hleft => by cases hleft
    · rw [wp_selectFds]
      refine ⟨fun _ => ?_, fun _ _ => trivial⟩
      split_ifs with hmaster hchannel
      · rw [wp_readMaster]
        refine ⟨fun _ => (wp_sendClient _).mpr ⟨fun _ _ => ?_, fun _ _ => trivial⟩,
          fun _ _ => trivial⟩
        exact carried_of_fromProxy (Bool.not_eq_eq_eq_not.mp hmaster)
      · rw [wp_recvClient]
        refine ⟨fun _ => (wp_writeMaster _).mpr ⟨fun _ _ => ?_, fun _ _ => trivial⟩,
          fun _ _ => trivial⟩
        have hquiet : (its k).isQuiet s = true := by
          rw [Bool.not_eq_true, Bool.not_eq_false'] at hmaster
          exact hmaster
        refine carried_of_fromClient hquiet ?_
        rw [Iteration.isReady, Bool.or_assoc, Bool.or_eq_true]
        exact .inr hchannel
      · rw [Bool.not_eq_true] at hmaster hchannel
        refine fun _ => carried_of_idle ?_
        rw [Iteration.isReady, Bool.or_assoc, Bool.or_eq_false_iff]
        exact ⟨hmaster, hchannel⟩
  exact (wp_eq_ok h).mp hwp rfl

/-- A pass that finds no output of the process and a byte of the client takes one. -/
theorem received_ne_nil (hquiet : it.isQuiet s = true) (h : s.inbound ≠ []) :
    (it.carry s).received ≠ [] := by
  have hgrows : ∀ {t : Proxied} (ms : List Move), t.inbound ≠ [] → (t.moves ms).inbound ≠ [] := by
    intro t ms ht
    rw [Proxied.inbound_moves]
    exact List.append_ne_nil_of_left_ne_nil ht _
  have hselected : (it.selected s).inbound ≠ [] := hgrows _ (hgrows _ h)
  have hready : it.isReady s = true := by simp [Iteration.isReady, hselected]
  rw [received_eq_take (by rw [hquiet, hready]; rfl), ne_eq, List.take_eq_nil_iff, not_or]
  exact ⟨Nat.ne_of_gt (Nat.le_max_left 1 _), hgrows _ hselected⟩

end Pass

/-! ### What a loop carries -/

section Run

variable {its : ℕ → Iteration} {n k k' : ℕ} {s s' : Proxied}

/-- The passes of the loop, one after another. -/
def carries (its : ℕ → Iteration) (n k : ℕ) (s : Proxied) : List Carry :=
  noted (usingPass its) (fun k s => (its k).carry s) n k s

def received (cs : List Carry) : List UInt8 := cs.flatMap Carry.received

def given (cs : List Carry) : List UInt8 := cs.flatMap Carry.given

/-- What holds between the first state and the one in which the loop is now. -/
structure Forwards (s s' : Proxied) (cs : List Carry) : Prop where
  inbound : s.inbound ++ cs.flatMap Carry.sent = received cs ++ s'.inbound
  typed : s.typed ++ given cs = cs.flatMap Carry.consumed ++ s'.typed
  quiet : ∀ c ∈ cs, c.quiet = false → c.received = []
  progress : (received cs).length < s.inbound.length →
    cs.countP Carry.quiet ≤ (received cs).length

theorem Forwards.pass {s₁ : Proxied} {cs : List Carry} (h : Forwards s s₁ cs)
    (hpass : usingPass its k s₁ = .ok (.inl k') s') :
    Forwards s s' (cs ++ [(its k).carry s₁]) := by
  obtain ⟨hinbound, htyped⟩ := carried_usingPass hpass
  have hreceived : received (cs ++ [(its k).carry s₁]) =
      received cs ++ ((its k).carry s₁).received := by simp [received]
  constructor
  · rw [List.flatMap_append, List.flatMap_singleton, ← List.append_assoc, h.inbound,
      List.append_assoc, hinbound, hreceived, List.append_assoc]
  · rw [given, List.flatMap_append, List.flatMap_singleton, ← List.append_assoc]
    rw [show s.typed ++ cs.flatMap Carry.given = _ from h.typed, List.append_assoc, htyped,
      List.flatMap_append, List.flatMap_singleton, List.append_assoc]
  · intro c hc hquiet
    rcases List.mem_append.mp hc with hc | hc
    · exact h.quiet c hc hquiet
    · rw [List.mem_singleton.mp hc] at hquiet ⊢
      refine received_eq_nil ?_
      rw [show (its k).isQuiet s₁ = false from hquiet, Bool.false_and]
  · intro hlt
    rw [hreceived, List.length_append] at hlt ⊢
    have hbefore := h.progress (by omega)
    rw [List.countP_append, List.countP_singleton]
    split_ifs with hquiet
    · -- something of what was there at first is still to come
      have hleft : s₁.inbound ≠ [] := by
        intro hnone
        have hlength := congrArg List.length h.inbound
        rw [hnone, List.append_nil, List.length_append] at hlength
        omega
      have hpos := List.length_pos_iff.mpr (received_ne_nil hquiet hleft)
      omega
    · omega

theorem forwards_of_running (hrun : RunningAfter (usingPass its) n k s k' s') :
    Forwards s s' (carries its n k s) := by
  have hstart : Forwards s s [] := ⟨by simp [received], by simp [given], by simp, by simp⟩
  exact hrun.keeps_noted (fun k s => (its k).carry s) (P := Forwards s)
    (fun h hpass => h.pass hpass) hstart

theorem given_sublist (cs : List Carry) : (given cs).Sublist (received cs) := by
  induction cs with
  | nil => exact List.Sublist.refl _
  | cons c cs ih => exact (List.take_sublist c.accepted c.received).append ih

theorem given_eq_received_iff (cs : List Carry) :
    given cs = received cs ↔ ∀ c ∈ cs, c.received.length ≤ c.accepted := by
  induction cs with
  | nil => simp [given, received]
  | cons c cs ih =>
    have hgiven : given (c :: cs) = c.received.take c.accepted ++ given cs := rfl
    have hreceived : received (c :: cs) = c.received ++ received cs := rfl
    rw [List.forall_mem_cons, ← ih, hgiven, hreceived]
    constructor
    · intro h
      have hlength := congrArg List.length h
      have hle := (given_sublist cs).length_le
      rw [List.length_append, List.length_append, List.length_take] at hlength
      have hall : c.received.length ≤ c.accepted := by omega
      rw [List.take_of_length_le hall] at h
      exact ⟨hall, List.append_cancel_left h⟩
    · rintro ⟨hall, hrest⟩
      rw [List.take_of_length_le hall, hrest]

/-- What the client sends is taken off the channel in its order and what is taken reaches the
process in its order, all of it if and only if no write accepts less than it is given. As
long as the process has output whenever the loop looks, nothing is taken; after as many
other passes as there were bytes, all of these are. -/
theorem userUsing_forwards (its : ℕ → Iteration) {s s' : Proxied} {n k k' : ℕ}
    (hrun : RunningAfter (usingPass its) n k s k' s') :
    let cs := carries its n k s
    s.inbound ++ cs.flatMap Carry.sent = received cs ++ s'.inbound ∧
      s.typed ++ given cs = cs.flatMap Carry.consumed ++ s'.typed ∧
      (given cs).Sublist (received cs) ∧
      (given cs = received cs ↔ ∀ c ∈ cs, c.received.length ≤ c.accepted) ∧
      ((∀ c ∈ cs, c.quiet = false) → received cs = []) ∧
      (s.inbound.length ≤ cs.countP Carry.quiet → s.inbound <+: received cs) := by
  intro cs
  have h : Forwards s s' cs := forwards_of_running hrun
  refine ⟨h.inbound, h.typed, given_sublist cs, given_eq_received_iff cs, ?_, ?_⟩
  · intro hquiet
    exact List.flatMap_eq_nil_iff.mpr fun c hc => h.quiet c hc (hquiet c hc)
  · intro hcount
    have hlength : s.inbound.length ≤ (received cs).length := by
      by_contra hlt
      have hprogress := h.progress (by omega)
      omega
    exact List.prefix_of_prefix_length_le (h.inbound ▸ List.prefix_append _ _)
      (List.prefix_append _ _) hlength

/-- The client types while the process writes, and one byte is accepted. -/
theorem userUsing_forwards_one :
    let its : ℕ → Iteration := fun k =>
      if k = 0 then { atPoll := [.proxyWrites [36] [36], .clientSends [108, 115]] }
      else { accepted := 1 }
    let cs := carries its 2 0 {}
    received cs = [108, 115] ∧ given cs = [108] ∧ ¬ ∀ c ∈ cs, c.received.length ≤ c.accepted := by
  intro its cs
  have hrun : RunningAfter (usingPass its) 2 0 {} 2
      { written := [36], shown := [36], typed := [108], output := [[36]] } := rfl
  have h := userUsing_forwards its hrun
  have hreceived : received cs = [108, 115] := (h.1.trans (List.append_nil _)).symm
  have hgiven : given cs = [108] := h.2.1
  refine ⟨hreceived, hgiven, fun hall => ?_⟩
  have heq := h.2.2.2.1.mpr hall
  rw [hreceived, hgiven] at heq
  cases heq

end Run

end Lobbyboy.SocketHandle
