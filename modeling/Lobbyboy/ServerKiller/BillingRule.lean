import Lobbyboy.ServerKiller.NeedDestroy
import Mathlib.Tactic.Ring

/-! The rule behind `need_destroy`. Billing cycles are numbered from the creation of the
server on; the ones before it, of a server from the future, have negative numbers. An
idle managed server is due once it has lived long enough and the cycle it is in is nearly
used up. -/

namespace Lobbyboy.ServerKiller

open Foundation Utils Config

variable {T : Type} {activeSession : ActiveSession T} {config : LBConfigProvider}
  {m : LBServerMeta} {L U S : ℕ} {n n' age age' t t' : ℤ}

/-! ### Billing cycles -/

/-- At that age a server is in its billing cycle `n`. -/
def InCycle (U : ℕ) (n age : ℤ) : Prop := n * U ≤ age ∧ age < (n + 1) * U

instance InCycle.decidable (U : ℕ) (n age : ℤ) : Decidable (InCycle U n age) :=
  inferInstanceAs (Decidable (_ ∧ _))

/-- The paid seconds that are left of cycle `n`. -/
def paidLeft (U : ℕ) (n age : ℤ) : ℤ := (n + 1) * U - age

theorem exists_inCycle (hU : 0 < U) (age : ℤ) : ∃ n, InCycle U n age := by
  have hpos : (0 : ℤ) < U := by omega
  exact ⟨age / U, Int.ediv_mul_le age hpos.ne', Int.lt_ediv_add_one_mul_self age hpos⟩

/-- What the code computes with a remainder. -/
theorem InCycle.sub_emod (h : InCycle U n age) : U - age % U = paidLeft U n age := by
  obtain ⟨hle, hlt⟩ := h
  have hring : (n + 1) * U = n * U + U := by ring
  have hage : age = (age - n * U) + n * U := by ring
  have hmod : age % U = age - n * U := by
    rw [hage, Int.add_mul_emod_self_right, Int.emod_eq_of_lt (by omega) (by omega)]
    ring
  rw [hmod, paidLeft]
  ring

/-- Cycles do not overlap. -/
theorem InCycle.unique (h : InCycle U n age) (h' : InCycle U n' age) : n = n' := by
  have hpos : (0 : ℤ) < U := by
    obtain ⟨hle, hlt⟩ := h
    have hring : (n + 1) * U = n * U + U := by ring
    omega
  have hle : ∀ {i j : ℤ}, InCycle U i age → InCycle U j age → i ≤ j := by
    intro i j hi hj
    have hlt : i * U < (j + 1) * U := hi.1.trans_lt hj.2
    have hlt' : i < j + 1 := lt_of_mul_lt_mul_right hlt hpos.le
    omega
  exact le_antisymm (hle h h') (hle h' h)

/-! ### The rule -/

/-- At most the safe time is left of the cycle the server is in. -/
def NearCycleEnd (U S : ℕ) (age : ℤ) : Prop := ∃ n, InCycle U n age ∧ paidLeft U n age ≤ S

/-- The age at which an idle managed server is to go. -/
def Due (L U S : ℕ) (age : ℤ) : Prop := L = 0 ∨ L ≤ age ∧ NearCycleEnd U S age

theorem InCycle.nearCycleEnd_iff (h : InCycle U n age) :
    NearCycleEnd U S age ↔ paidLeft U n age ≤ S := by
  constructor
  · rintro ⟨n', h', hleft⟩
    rwa [h.unique h']
  · exact fun hleft => ⟨n, h, hleft⟩

theorem nearCycleEnd_iff (hU : 0 < U) (age : ℤ) : NearCycleEnd U S age ↔ U - age % U ≤ S := by
  obtain ⟨n, h⟩ := exists_inCycle hU age
  rw [h.nearCycleEnd_iff, h.sub_emod]

/-- Inside a cycle the rule is never taken back. -/
theorem Due.later (h : Due L U S age) (hn : InCycle U n age) (hn' : InCycle U n age')
    (hle : age ≤ age') : Due L U S age' := by
  rcases h with hL | ⟨hL, hend⟩
  · exact .inl hL
  · have hleft := hn.nearCycleEnd_iff.mp hend
    have hleft' : paidLeft U n age' ≤ S := by
      rw [paidLeft] at hleft ⊢
      omega
    exact .inr ⟨hL.trans hle, hn'.nearCycleEnd_iff.mpr hleft'⟩

/-- A server too young for its minimum life gets no yes, whatever the rest is. -/
theorem needDestroy_of_young {now₁ now₂ : ℤ} {reason : String}
    (hL : toSeconds config.minLifeToLive = .ok L) (hyoung : m.liveSec now₁ < L) (hL0 : 0 < L) :
    needDestroy activeSession config m now₁ now₂ ≠ .ok (true, reason) := by
  intro h
  obtain ⟨hs, hm⟩ := needDestroy_true h
  have hL0' : ¬ L ≤ 0 := by omega
  have httl : 0 < (L : ℤ) - m.liveSec now₁ := by omega
  rw [needDestroy_of_idle hs hm hL, if_neg hL0', if_pos httl] at h
  obtain ⟨left, -, h⟩ := bind_eq_ok.mp h
  cases h

/-- The verdict is the rule. -/
theorem needDestroy_iff_due (hL : toSeconds config.minLifeToLive = .ok L)
    (hU : toSeconds config.billTimeUnit = .ok U) (hS : destroySafeTimeInSec config = .ok S)
    (hU0 : 0 < U) :
    (∃ reason, needDestroy activeSession config m t t = .ok (true, reason)) ↔
      activeSession.sessions m.serverName = [] ∧ m.manage = true ∧ Due L U S (m.liveSec t) := by
  constructor
  · rintro ⟨reason, h⟩
    obtain ⟨hs, hm⟩ := needDestroy_true h
    refine ⟨hs, hm, ?_⟩
    rcases Nat.eq_zero_or_pos L with hL0 | hL0
    · exact .inl hL0
    · have hold : L ≤ m.liveSec t := by
        by_contra hyoung
        exact needDestroy_of_young hL (not_le.mp hyoung) hL0 h
      rw [needDestroy_of_min_life hs hm hL hL0 hold] at h
      have hleft := (needDestroyInBill_eq_true_iff hU hU0 hS).mp ⟨reason, h⟩
      exact .inr ⟨hold, (nearCycleEnd_iff hU0 _).mpr hleft⟩
  · rintro ⟨hs, hm, hL0 | ⟨hold, hend⟩⟩
    · subst hL0
      exact ⟨_, needDestroy_of_no_min_life hs hm hL⟩
    · rcases Nat.eq_zero_or_pos L with hL0 | hL0
      · subst hL0
        exact ⟨_, needDestroy_of_no_min_life hs hm hL⟩
      · rw [needDestroy_of_min_life hs hm hL hL0 hold]
        exact (needDestroyInBill_eq_true_iff hU hU0 hS).mpr ((nearCycleEnd_iff hU0 _).mp hend)

/-- The answer is yes exactly for an idle managed server that has no minimum life, or has
reached it and has at most the safe time left of its cycle. So a minimum life is always
lived, no more than the safe time is given away, and inside a cycle a yes stays a yes. -/
theorem needDestroy_true_iff_rule (hL : toSeconds config.minLifeToLive = .ok L)
    (hU : toSeconds config.billTimeUnit = .ok U) (hU0 : 0 < U)
    (hS : destroySafeTimeInSec config = .ok S) (activeSession : ActiveSession T)
    (m : LBServerMeta) (t : ℤ) :
    ((∃ reason, needDestroy activeSession config m t t = .ok (true, reason)) ↔
      activeSession.sessions m.serverName = [] ∧ m.manage = true ∧
        (L = 0 ∨ (L ≤ m.liveSec t ∧
          ∃ n, InCycle U n (m.liveSec t) ∧ paidLeft U n (m.liveSec t) ≤ S))) ∧
    (∀ reason, needDestroy activeSession config m t t = .ok (true, reason) → L ≠ 0 →
      L ≤ m.liveSec t ∧ ∀ n, InCycle U n (m.liveSec t) → paidLeft U n (m.liveSec t) ≤ S) ∧
    ∀ (later : ActiveSession T) (t' n : ℤ) (reason : String),
      needDestroy activeSession config m t t = .ok (true, reason) →
        InCycle U n (m.liveSec t) → t ≤ t' → InCycle U n (m.liveSec t') →
          later.sessions m.serverName = [] →
            ∃ reason', needDestroy later config m t' t' = .ok (true, reason') := by
  refine ⟨needDestroy_iff_due hL hU hS hU0, ?_, ?_⟩
  · intro reason h hL0
    obtain ⟨-, -, hdue⟩ := (needDestroy_iff_due hL hU hS hU0).mp ⟨reason, h⟩
    obtain ⟨hold, hend⟩ := hdue.resolve_left hL0
    exact ⟨hold, fun n hn => hn.nearCycleEnd_iff.mp hend⟩
  · intro later t' n reason h hn hle hn' hidle
    obtain ⟨-, hm, hdue⟩ := (needDestroy_iff_due hL hU hS hU0).mp ⟨reason, h⟩
    have hage : m.liveSec t ≤ m.liveSec t' := by
      rw [LBServerMeta.liveSec, LBServerMeta.liveSec]
      omega
    exact (needDestroy_iff_due hL hU hS hU0).mpr ⟨hidle, hm, hdue.later hn hn' hage⟩

/-- Fifty-five minutes, billed by the hour, with five minutes to spare. -/
theorem needDestroy_at_end_of_first_hour :
    let config : LBConfigProvider := { minLifeToLive := some "55m", billTimeUnit := some "1h",
                                       destroySafeTime := some "5m" }
    let m : LBServerMeta := { providerName := "digitalocean",
                              workspace := .parse "/data/digitalocean/a", serverName := "a",
                              createdTimestamp := 0 }
    ∃ reason, needDestroy (.empty : ActiveSession Unit) config m 3300 3300 =
      .ok (true, reason) := by
  intro config m
  have hn : InCycle 3600 0 (m.liveSec 3300) := by decide
  exact (needDestroy_true_iff_rule (L := 3300) (U := 3600) (S := 300) rfl rfl (by decide) rfl _ m
    3300).1.mpr ⟨rfl, rfl, .inr ⟨by decide, 0, hn, by decide⟩⟩

end Lobbyboy.ServerKiller
