import Lobbyboy.Foundation.Loop
import Lobbyboy.Utils.Lines

/-! Reading a line from a client that is gone. After its last byte, `recv` returns an empty
buffer at once and every time, and sending an empty buffer does nothing; no branch of the
loop looks for that. The loop ends exactly if one of the bytes ends it or a call raises
before they are used up; otherwise it collects empty buffers for ever. -/

namespace Lobbyboy.Utils

open Foundation Prog

section Program

variable {T : Type} (env : Env T)

/-- `channel.recv(1)`, when the client has closed the channel behind its input. -/
def recv : Prog T (List UInt8) := do
  let w ← get
  match w.input with
  | [] => return []
  | b :: bs => do
    call env
    modify fun w => { w with input := bs }
    return [b]

/-- `send_to_channel(channel, content, suffix=b"")`; `sendall` of nothing returns. -/
def sendBack (content : List UInt8) : Prog T Unit :=
  if content = [] then pure () else sendToChannel env content []

/-- One pass through the body of `while 1`, with the `chars` that it begins with. -/
def readPass (chars : List (List UInt8)) :
    Prog T (List (List UInt8) ⊕ List (List UInt8)) := do
  let content ← recv env
  if content = [4] ∨ content = [3] then raise ⟨.userCancelException, ""⟩
  else if content = [13] then do
    sendToChannel env []
    return .inr chars
  else if content = [127] then do
    sendToChannel env [8, 27, 91, 75] []
    return .inl chars
  else do
    sendBack env content
    return .inl (chars ++ [content])

end Program

variable {T : Type} {env : Env T}

/-! ### While there are bytes -/

section Rules

variable {E : Stop → World T → Prop} {chars : List (List UInt8)} {w : World T}

theorem wp_recv_cons {Q : List UInt8 → World T → Prop} {b : UInt8} {bs : List UInt8}
    (hw : w.input = b :: bs) :
    wp (recv env) Q E w ↔ (env.raises w.tick = none → Q [b] { w.next with input := bs }) ∧
      ∀ e, env.raises w.tick = some e → E (.raised e) w.next := by
  simp [recv, hw]

/-- A pass that receives a byte. -/
theorem wp_readPass_cons {Q : List (List UInt8) ⊕ List (List UInt8) → World T → Prop} {b : UInt8}
    {bs : List UInt8} (hw : w.input = b :: bs) :
    wp (readPass env chars) Q E w ↔
      (env.raises w.tick = none → wp (do
        if b = 3 ∨ b = 4 then raise ⟨.userCancelException, ""⟩
        else if b = 13 then do
          sendToChannel env []
          return .inr chars
        else do
          sendToChannel env (echo b) []
          return .inl (if b = 127 then chars else chars ++ [[b]])) Q E
          { w.next with input := bs }) ∧
      ∀ e, env.raises w.tick = some e → E (.raised e) w.next := by
  rw [readPass, wp_bind, wp_recv_cons hw]
  refine and_congr_left fun _ => forall_congr' fun _ => ?_
  by_cases h127 : b = 127
  · subst h127
    simp [echo]
  · simp [echo, sendBack, h127, or_comm]

/-- As long as the client sends, this is the loop that waits for more. -/
theorem wp_readLine_iff_passes {Q : List UInt8 → World T → Prop} {bs : List UInt8}
    (hw : w.input = bs) :
    wp (readLine env bs chars.flatten) Q E w ↔
      wp (passes (readPass env) bs.length chars) (fun r w' =>
        match r with
        | .inr line => Q line.flatten w'
        | .inl _ => E .waiting w') E w := by
  induction bs generalizing chars w with
  | nil => simp [readLine, passes]
  | cons b bs ih =>
    rw [List.length_cons, passes, wp_bind, wp_readPass_cons hw, readLine, wp_bind, wp_call]
    refine and_congr_left fun _ => forall_congr' fun _ => ?_
    simp only [wp_bind, wp_modify, wp_ite, wp_raise, wp_sendToChannel, wp_pure]
    split_ifs with hctrl hcr hdel
    · rfl
    · rfl
    · rw [echo, if_pos hdel]
      refine and_congr_left fun _ => forall_congr' fun _ => ?_
      exact ih rfl
    · rw [echo, if_neg hdel]
      refine and_congr_left fun _ => forall_congr' fun _ => ?_
      rw [← ih rfl, List.flatten_append, List.flatten_singleton]

end Rules

/-! ### Once there are none -/

/-- At the end each pass collects an empty buffer, and nothing else happens. -/
theorem passes_end (n : ℕ) (chars : List (List UInt8)) {w : World T} (hw : w.input = []) :
    passes (readPass env) n chars w = .ok (.inl (chars ++ List.replicate n [])) w := by
  induction n generalizing chars with
  | zero => rw [List.replicate_zero, List.append_nil]; rfl
  | succ n ih =>
    have hpass : readPass env chars w = .ok (.inl (chars ++ [[]])) w := by
      obtain ⟨⟩ := w
      subst hw
      rfl
    rw [passes_succ, hpass]
    simp only [ih, List.append_assoc, List.replicate_succ, List.singleton_append]

/-! ### When the loop ends -/

/-- The loop reads the empty buffer a bounded number of times. -/
def BoundedReads (env : Env T) (w : World T) : Prop :=
  ∃ bound, ∀ n chars w', RunningAfter (readPass env) n [] w chars w' → chars.count [] ≤ bound

/-- The pass that receives `b` is the last one. -/
def StopsAt (env : Env T) (w : World T) (b : UInt8) : Prop :=
  EndsLine b ∨ env.raises w.tick ≠ none ∨ env.raises (w.tick + 1) ≠ none

/-- One of the bytes ends the line or the call, or one of the calls for them raises. -/
def Ended (env : Env T) (w : World T) : Prop :=
  (∃ b ∈ w.input, EndsLine b) ∨ ∃ k < 2 * w.input.length, env.raises (w.tick + k) ≠ none

section Passes

variable {w : World T} {b : UInt8} {bs : List UInt8}

theorem not_ended_of_nil (hw : w.input = []) : ¬ Ended env w := by
  simp [Ended, hw]

theorem ended_cons_iff (hw : w.input = b :: bs) :
    Ended env w ↔ StopsAt env w b ∨ Ended env (afterLine w [b] bs) := by
  have hlength : 2 * (b :: bs).length = 2 * bs.length + 1 + 1 := rfl
  simp only [Ended, StopsAt, hw, hlength, Nat.exists_lt_succ_left, List.exists_mem_cons_iff,
    afterLine, List.length_singleton, Nat.add_zero, Nat.zero_add, Nat.add_assoc, Nat.reduceMul,
    Nat.reduceAdd, Nat.add_comm 2]
  simp only [or_assoc, or_left_comm]

/-- A pass either is the last one or has read and echoed its byte. -/
theorem readPass_of_not_stopsAt (hw : w.input = b :: bs) (h : ¬ StopsAt env w b)
    (chars : List (List UInt8)) :
    readPass env chars w =
      .ok (.inl (if b = 127 then chars else chars ++ [[b]])) (afterLine w [b] bs) := by
  simp only [StopsAt, EndsLine, not_or, not_not] at h
  obtain ⟨⟨h3, h4, h13⟩, hrecv, hsend⟩ := h
  refine eq_ok_of_wp ((wp_readPass_cons hw).mpr ⟨fun _ => ?_, fun e he => ?_⟩)
  · simp [h3, h4, h13, hsend, afterLine, World.next]
  · rw [hrecv] at he
    cases he

theorem readPass_of_stopsAt (hw : w.input = b :: bs) (h : StopsAt env w b)
    (chars chars' : List (List UInt8)) (w' : World T) :
    readPass env chars w ≠ .ok (.inl chars') w' := by
  have hlast : wp (readPass env chars) (fun r _ => ∀ c, r ≠ .inl c) (fun _ _ => True) w := by
    rw [wp_readPass_cons hw]
    refine ⟨fun hrecv => ?_, fun _ _ => trivial⟩
    rcases h with (rfl | rfl | rfl) | h | hsend
    · simp
    · simp
    · simp
    · exact absurd hrecv h
    · split_ifs <;> simp [hsend]
  exact fun h => wp_of_ok hlast h chars' rfl

end Passes

theorem loopEnds_iff_ended (bs : List UInt8) (chars : List (List UInt8)) {w : World T}
    (hw : w.input = bs) : LoopEnds (readPass env) chars w ↔ Ended env w := by
  induction bs generalizing chars w with
  | nil =>
    refine iff_of_false ?_ (not_ended_of_nil hw)
    rintro ⟨n, hn⟩
    exact hn _ _ (passes_end n chars hw)
  | cons b bs ih =>
    rw [ended_cons_iff hw]
    by_cases hstop : StopsAt env w b
    · refine iff_of_true ⟨1, fun chars' w' h => ?_⟩ (.inl hstop)
      exact readPass_of_stopsAt hw hstop chars chars' w' (runningAfter_one.mp h)
    · rw [or_iff_right hstop, loopEnds_iff_of_pass (readPass_of_not_stopsAt hw hstop chars)]
      exact ih _ rfl

/-- A loop that does not end uses up the input. -/
theorem exists_input_nil (bs : List UInt8) (chars : List (List UInt8)) {w : World T}
    (hw : w.input = bs) (h : ¬ Ended env w) :
    ∃ chars' w', RunningAfter (readPass env) bs.length chars w chars' w' ∧ w'.input = [] := by
  induction bs generalizing chars w with
  | nil => exact ⟨chars, w, rfl, hw⟩
  | cons b bs ih =>
    rw [ended_cons_iff hw, not_or] at h
    obtain ⟨chars', w', hrun, hnil⟩ := ih (if b = 127 then chars else chars ++ [[b]]) rfl h.2
    refine ⟨chars', w', ?_, hnil⟩
    rw [List.length_cons, Nat.add_comm]
    exact (runningAfter_one.mpr (readPass_of_not_stopsAt hw h.1 chars)).add hrun

/-- A pass collects at most one buffer. -/
theorem length_of_readPass {chars chars' : List (List UInt8)} {w w' : World T}
    (h : readPass env chars w = .ok (.inl chars') w') : chars'.length ≤ chars.length + 1 := by
  cases hw : w.input with
  | nil =>
    have hend : readPass env chars w = _ := runningAfter_one.mp (passes_end 1 chars hw)
    cases hend.symm.trans h
    simp
  | cons b bs =>
    by_cases hstop : StopsAt env w b
    · exact absurd h (readPass_of_stopsAt hw hstop chars chars' w')
    · cases (readPass_of_not_stopsAt hw hstop chars).symm.trans h
      split_ifs <;> simp

theorem boundedReads_iff_ended (env : Env T) (w : World T) : BoundedReads env w ↔ Ended env w := by
  constructor
  · rintro ⟨bound, hbound⟩
    by_contra hopen
    obtain ⟨chars, w', hrun, hnil⟩ := exists_input_nil _ [] rfl hopen
    have hmore := hbound _ _ _ (hrun.add (passes_end (bound + 1) chars hnil))
    rw [List.count_append, List.count_replicate_self] at hmore
    omega
  · intro h
    obtain ⟨bound, hbound⟩ := ((loopEnds_iff_ended _ [] rfl).mpr h).exists_bound
    refine ⟨bound, fun n chars w' hrun => ?_⟩
    have hlength : chars.length ≤ 0 + n :=
      hrun.invariant (P := fun n chars => chars.length ≤ n)
        (fun n a s a' s' ha hb => (length_of_readPass hb).trans (Nat.succ_le_succ ha))
        (Nat.le_refl 0)
    calc chars.count [] ≤ chars.length := List.count_le_length
      _ ≤ 0 + n := hlength
      _ ≤ bound := by rw [Nat.zero_add]; exact hbound n chars w' hrun

/-- The loop ends, and reads a bounded number of empty buffers, if and only if a byte ends
it or a call raises while there are bytes. -/
theorem readPass_ends_iff (env : Env T) (w : World T) :
    LoopEnds (readPass env) [] w ∧ BoundedReads env w ↔ Ended env w := by
  rw [boundedReads_iff_ended, loopEnds_iff_ended _ [] rfl, and_self_iff]

/-- The client is gone after it has typed a number, and before CR. -/
theorem gone_before_return :
    let w : World Unit := { input := [49] }
    ¬ LoopEnds (readPass .smooth) [] w ∧ ¬ BoundedReads .smooth w := by
  intro w
  have hopen : ¬ Ended .smooth w := by
    rintro (h | ⟨k, -, hk⟩)
    · revert h
      decide
    · exact hk rfl
  exact ⟨(loopEnds_iff_ended _ [] rfl).not.mpr hopen, (boundedReads_iff_ended _ w).not.mpr hopen⟩

end Lobbyboy.Utils
