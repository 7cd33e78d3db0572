import Lobbyboy.Config.Types
import Lobbyboy.Utils.ActiveSession
import Lobbyboy.Utils.Durations

/-! `ServerKiller.need_destroy`: whether a server is to be destroyed now, and the reason
that is shown. The clock is read once for the minimum life and once for the position in
the billing cycle. -/

namespace Lobbyboy.ServerKiller

open Foundation Utils Config

variable {T : Type}

/-! ### The program -/

/-- The options that the decision reads, each with its seconds or what their reading raises;
a duration that is shown has its text beside it. -/
structure Options where
  minLifeToLive : Except PyExc (ℕ × String)
  billTimeUnit : Except PyExc (ℕ × String)
  destroySafeTime : Except PyExc ℕ

/-- The part of the decision that is about the billing cycle. -/
def judgeInBill (options : Options) (m : LBServerMeta) (now : ℤ) :
    Except PyExc (Bool × String) := do
  let (billTimeUnitInSec, billTimeUnit) ← options.billTimeUnit
  if billTimeUnitInSec = 0 then
    throw ⟨.zeroDivisionError, "integer division or modulo by zero"⟩
  else
    let curBillLiveTime := m.liveSec now % billTimeUnitInSec
    let destroySafeTimeInSec ← options.destroySafeTime
    let ttl := billTimeUnitInSec - curBillLiveTime - destroySafeTimeInSec
    if 0 < ttl then
      let left ← humanizeSeconds ttl
      return (false, s!"still have {left} to live(bill_time_unit={billTimeUnit}).")
    else
      return (true, "is about to enter the next billing cycle.")

/-- `need_destroy`; `now₁` and `now₂` are the two readings of the clock. -/
def judge (activeSession : ActiveSession T) (options : Options) (m : LBServerMeta)
    (now₁ now₂ : ℤ) : Except PyExc (Bool × String) :=
  let activeSessionCnt := (activeSession.sessions m.serverName).length
  if 0 < activeSessionCnt then
    .ok (false, s!"still have {activeSessionCnt} active sessions.")
  else if m.manage = false then
    .ok (false, s!"server {m.serverName} has flag not manage by me.")
  else do
    let (minLifeToLiveInSec, minLifeToLive) ← options.minLifeToLive
    if minLifeToLiveInSec ≤ 0 then
      return (true, s!"min_life_to_live less or equal 0: {minLifeToLiveInSec}.")
    else
      let ttl := minLifeToLiveInSec - m.liveSec now₁
      if 0 < ttl then
        let left ← humanizeSeconds ttl
        return (false, s!"still have {left} to live(min_life_to_live={minLifeToLive}).")
      else
        judgeInBill options m now₂

/-! ### Options of the declared types -/

/-- `to_seconds(config.destroy_safe_time) if config.destroy_safe_time else 0`. -/
def destroySafeTimeInSec (config : LBConfigProvider) : Except PyExc ℕ :=
  match config.destroySafeTime with
  | none => .ok 0
  | some s => if s = "" then .ok 0 else toSeconds (some s)

/-- `to_seconds(option)`, and the option in a message. -/
def duration (option : Option String) : Except PyExc (ℕ × String) := do
  return (← toSeconds option, option.getD "None")

def typedOptions (config : LBConfigProvider) : Options where
  minLifeToLive := duration config.minLifeToLive
  billTimeUnit := duration config.billTimeUnit
  destroySafeTime := destroySafeTimeInSec config

def needDestroyInBill (config : LBConfigProvider) (m : LBServerMeta) (now : ℤ) :
    Except PyExc (Bool × String) := judgeInBill (typedOptions config) m now

def needDestroy (activeSession : ActiveSession T) (config : LBConfigProvider) (m : LBServerMeta)
    (now₁ now₂ : ℤ) : Except PyExc (Bool × String) :=
  judge activeSession (typedOptions config) m now₁ now₂

theorem duration_of_toSeconds {option : Option String} {n : ℕ} (h : toSeconds option = .ok n) :
    duration option = .ok (n, option.getD "None") := by
  rw [duration, h]
  rfl

theorem toSeconds_of_duration {option : Option String} {d : ℕ × String}
    (h : duration option = .ok d) : toSeconds option = .ok d.1 ∧ d.2 = option.getD "None" := by
  obtain ⟨n, hn, h⟩ := bind_eq_ok.mp h
  cases h
  exact ⟨hn, rfl⟩

/-! ### The verdict -/

variable {activeSession : ActiveSession T} {options : Options} {config : LBConfigProvider}
  {m : LBServerMeta} {now₁ now₂ : ℤ} {reason : String}

/-- A server that has sessions is kept. -/
theorem judge_of_sessions (h : activeSession.sessions m.serverName ≠ []) :
    ∃ reason, judge activeSession options m now₁ now₂ = .ok (false, reason) := by
  rw [judge, if_pos (List.length_pos_iff.mpr h)]
  exact ⟨_, rfl⟩

theorem judge_of_not_manage (h : m.manage = false) :
    ∃ reason, judge activeSession options m now₁ now₂ = .ok (false, reason) := by
  by_cases hs : activeSession.sessions m.serverName = []
  · rw [judge, if_neg (by simp [hs]), if_pos h]
    exact ⟨_, rfl⟩
  · exact judge_of_sessions hs

theorem judge_of_idle (hs : activeSession.sessions m.serverName = []) (hm : m.manage = true) :
    judge activeSession options m now₁ now₂ = (do
      let (L, minLifeToLive) ← options.minLifeToLive
      if L ≤ 0 then
        return (true, s!"min_life_to_live less or equal 0: {L}.")
      else if 0 < (L : ℤ) - m.liveSec now₁ then
        let left ← humanizeSeconds (L - m.liveSec now₁)
        return (false, s!"still have {left} to live(min_life_to_live={minLifeToLive}).")
      else
        judgeInBill options m now₂) := by
  rw [judge, if_neg (by simp [hs]), if_neg (by simp [hm])]

/-- A server that has sessions is kept. -/
theorem needDestroy_of_sessions (h : activeSession.sessions m.serverName ≠ []) :
    ∃ reason, needDestroy activeSession config m now₁ now₂ = .ok (false, reason) :=
  judge_of_sessions h

/-- What is destroyed has no sessions and is managed. -/
theorem needDestroy_true (h : needDestroy activeSession config m now₁ now₂ = .ok (true, reason)) :
    activeSession.sessions m.serverName = [] ∧ m.manage = true := by
  constructor
  · by_contra hs
    obtain ⟨r, hr⟩ : ∃ r, needDestroy activeSession config m now₁ now₂ = .ok (false, r) :=
      judge_of_sessions hs
    cases hr.symm.trans h
  · by_contra hm
    obtain ⟨r, hr⟩ : ∃ r, needDestroy activeSession config m now₁ now₂ = .ok (false, r) :=
      judge_of_not_manage (Bool.not_eq_true _ ▸ hm)
    cases hr.symm.trans h

theorem needDestroy_of_idle {L : ℕ} (hs : activeSession.sessions m.serverName = [])
    (hm : m.manage = true) (hL : toSeconds config.minLifeToLive = .ok L) :
    needDestroy activeSession config m now₁ now₂ =
      if L ≤ 0 then .ok (true, s!"min_life_to_live less or equal 0: {L}.")
      else if 0 < (L : ℤ) - m.liveSec now₁ then do
        let left ← humanizeSeconds (L - m.liveSec now₁)
        let minLifeToLive := config.minLifeToLive.getD "None"
        return (false, s!"still have {left} to live(min_life_to_live={minLifeToLive}).")
      else needDestroyInBill config m now₂ := by
  have hoption : (typedOptions config).minLifeToLive = _ := duration_of_toSeconds hL
  rw [needDestroy, judge_of_idle hs hm, hoption]
  rfl

/-- With the configured minimum life zero, an idle managed server goes at once. -/
theorem needDestroy_of_no_min_life (hs : activeSession.sessions m.serverName = [])
    (hm : m.manage = true) (hL : toSeconds config.minLifeToLive = .ok 0) :
    needDestroy activeSession config m now₁ now₂ =
      .ok (true, "min_life_to_live less or equal 0: 0.") := by
  rw [needDestroy_of_idle hs hm hL, if_pos (Nat.le_refl 0)]
  rfl

/-- Once an idle managed server has lived long enough, the billing cycle decides. -/
theorem needDestroy_of_min_life {L : ℕ} (hs : activeSession.sessions m.serverName = [])
    (hm : m.manage = true) (hL : toSeconds config.minLifeToLive = .ok L) (hpos : 0 < L)
    (hlive : L ≤ m.liveSec now₁) :
    needDestroy activeSession config m now₁ now₂ = needDestroyInBill config m now₂ := by
  rw [needDestroy_of_idle hs hm hL, if_neg (by omega), if_neg (by omega)]

theorem needDestroyInBill_eq {U S : ℕ} (hU : toSeconds config.billTimeUnit = .ok U)
    (hpos : 0 < U) (hS : destroySafeTimeInSec config = .ok S) {now : ℤ} :
    needDestroyInBill config m now =
      if 0 < (U : ℤ) - m.liveSec now % U - S then do
        let left ← humanizeSeconds (U - m.liveSec now % U - S)
        let billTimeUnit := config.billTimeUnit.getD "None"
        return (false, s!"still have {left} to live(bill_time_unit={billTimeUnit}).")
      else .ok (true, "is about to enter the next billing cycle.") := by
  have hunit : (typedOptions config).billTimeUnit = _ := duration_of_toSeconds hU
  have hsafe : (typedOptions config).destroySafeTime = _ := hS
  have hU0 : U ≠ 0 := by omega
  rw [needDestroyInBill, judgeInBill, hunit, ok_bind, hsafe]
  exact if_neg hU0

/-- The cycle is over within the safe time, or the server has some time left. -/
theorem needDestroyInBill_eq_true_iff {U S : ℕ} (hU : toSeconds config.billTimeUnit = .ok U)
    (hpos : 0 < U) (hS : destroySafeTimeInSec config = .ok S) {now : ℤ} :
    (∃ reason, needDestroyInBill config m now = .ok (true, reason)) ↔
      (U : ℤ) - m.liveSec now % U ≤ S := by
  rw [needDestroyInBill_eq hU hpos hS]
  by_cases httl : 0 < (U : ℤ) - m.liveSec now % U - S
  · rw [if_pos httl]
    refine iff_of_false ?_ (by omega)
    rintro ⟨reason, h⟩
    obtain ⟨left, -, h⟩ := bind_eq_ok.mp h
    cases h
  · rw [if_neg httl]
    exact iff_of_true ⟨_, rfl⟩ (by omega)

end Lobbyboy.ServerKiller
