import Lobbyboy.ServerKiller.BillingRule
import Lobbyboy.Utils.ShownDurations

/-! What the reason of a no promises. A user who leaves an idle server is told how long it
still has to live; the time that is named can be read back, no verdict is a yes before it is
over, and where the billing cycle decides, the verdict is a yes at that very second if there
is a safe time to destroy in. -/

namespace Lobbyboy.ServerKiller

open Foundation Utils Config

variable {T : Type}

/-! ### The reasons -/

def lifeReason (config : LBConfigProvider) (left : String) : String :=
  let minLifeToLive := config.minLifeToLive.getD "None"
  s!"still have {left} to live(min_life_to_live={minLifeToLive})."

def billReason (config : LBConfigProvider) (left : String) : String :=
  let billTimeUnit := config.billTimeUnit.getD "None"
  s!"still have {left} to live(bill_time_unit={billTimeUnit})."

section Reasons

variable {table : ActiveSession T} {config : LBConfigProvider} {m : LBServerMeta} {L U S : ℕ}
  {now now₁ now₂ : ℤ} {reason : String}

/-- A billing cycle that decides is configured, and so is the safe time. -/
theorem configured_of_needDestroyInBill {verdict : Bool × String}
    (h : needDestroyInBill config m now = .ok verdict) :
    ∃ U S, toSeconds config.billTimeUnit = .ok U ∧ 0 < U ∧ destroySafeTimeInSec config = .ok S := by
  obtain ⟨⟨U, text⟩, hU, h⟩ := bind_eq_ok.mp h
  dsimp only at h
  split_ifs at h with hU0
  obtain ⟨S, hS, -⟩ := bind_eq_ok.mp h
  exact ⟨U, S, (toSeconds_of_duration hU).1, by omega, hS⟩

/-- A verdict on an idle managed server is one about a configured minimum life. -/
theorem configured_of_needDestroy {verdict : Bool × String}
    (hs : table.sessions m.serverName = []) (hm : m.manage = true)
    (h : needDestroy table config m now₁ now₂ = .ok verdict) :
    ∃ L, toSeconds config.minLifeToLive = .ok L := by
  rw [needDestroy, judge_of_idle hs hm] at h
  obtain ⟨⟨L, text⟩, hL, -⟩ := bind_eq_ok.mp h
  exact ⟨L, (toSeconds_of_duration hL).1⟩

theorem needDestroyInBill_eq_false (hU : toSeconds config.billTimeUnit = .ok U) (hU0 : 0 < U)
    (hS : destroySafeTimeInSec config = .ok S)
    (h : needDestroyInBill config m now = .ok (false, reason)) :
    0 < (U : ℤ) - m.liveSec now % U - S ∧
      ∃ left, humanizeSeconds (U - m.liveSec now % U - S) = .ok left ∧
        reason = billReason config left := by
  rw [needDestroyInBill_eq hU hU0 hS] at h
  by_cases httl : 0 < (U : ℤ) - m.liveSec now % U - S
  · rw [if_pos httl] at h
    cases hleft : humanizeSeconds ((U : ℤ) - m.liveSec now % U - S) with
    | error e =>
      rw [hleft] at h
      cases h
    | ok left =>
      rw [hleft] at h
      cases h
      exact ⟨httl, left, rfl, rfl⟩
  · rw [if_neg httl] at h
    cases h

/-- An idle managed server that is kept is too young, or has time left of its cycle. -/
theorem needDestroy_eq_false (hL : toSeconds config.minLifeToLive = .ok L)
    (hs : table.sessions m.serverName = []) (hm : m.manage = true)
    (h : needDestroy table config m now₁ now₂ = .ok (false, reason)) :
    0 < L ∧ (m.liveSec now₁ < L ∧ (∃ left, humanizeSeconds (L - m.liveSec now₁) = .ok left ∧
        reason = lifeReason config left) ∨
      L ≤ m.liveSec now₁ ∧ needDestroyInBill config m now₂ = .ok (false, reason)) := by
  have hpos : 0 < L := by
    by_contra hnot
    obtain rfl : L = 0 := by omega
    rw [needDestroy_of_no_min_life hs hm hL] at h
    cases h
  refine ⟨hpos, ?_⟩
  by_cases hyoung : m.liveSec now₁ < L
  · refine .inl ⟨hyoung, ?_⟩
    have hL0 : ¬ L ≤ 0 := by omega
    have httl : 0 < (L : ℤ) - m.liveSec now₁ := by omega
    rw [needDestroy_of_idle hs hm hL, if_neg hL0, if_pos httl] at h
    cases hleft : humanizeSeconds ((L : ℤ) - m.liveSec now₁) with
    | error e =>
      rw [hleft] at h
      cases h
    | ok left =>
      rw [hleft] at h
      cases h
      exact ⟨left, rfl, rfl⟩
  · rw [not_lt] at hyoung
    rw [needDestroy_of_min_life hs hm hL hpos hyoung] at h
    exact .inr ⟨hyoung, h⟩

/-- An old enough server without sessions is judged by its billing cycle alone. -/
theorem needDestroy_true_old (hL : toSeconds config.minLifeToLive = .ok L) (hL0 : 0 < L)
    (hold : L ≤ m.liveSec now₁)
    (h : needDestroy table config m now₁ now₂ = .ok (true, reason)) :
    needDestroyInBill config m now₂ = .ok (true, reason) := by
  obtain ⟨hs, hm⟩ := needDestroy_true h
  rwa [needDestroy_of_min_life hs hm hL hL0 hold] at h

end Reasons

/-! ### What they promise -/

section Promises

variable {config : LBConfigProvider} {m : LBServerMeta} {L U S : ℕ} {now n d : ℤ}

/-- Within a cycle the remainder grows with the clock. -/
theorem liveSec_emod_later (hU0 : 0 < U) (hd : 0 ≤ d) (hlt : m.liveSec now % U + d < U) :
    m.liveSec (now + d) % U = m.liveSec now % U + d := by
  have hage : m.liveSec (now + d) = m.liveSec now + d := by
    rw [LBServerMeta.liveSec, LBServerMeta.liveSec]
    ring
  have hnonneg : 0 ≤ m.liveSec now % U := Int.emod_nonneg _ (by omega)
  rw [hage, ← Int.emod_add_emod, Int.emod_eq_of_lt (by omega) hlt]

/-- That much time is left of the cycle, but for the safe time. -/
def Left (m : LBServerMeta) (U S : ℕ) (now n : ℤ) : Prop :=
  0 < n ∧ n = U - m.liveSec now % U - S

theorem Left.before (h : Left m U S now n) (hU0 : 0 < U) (hd : 0 ≤ d) (hlt : d < n) :
    ¬ (U : ℤ) - m.liveSec (now + d) % U ≤ S := by
  obtain ⟨hpos, rfl⟩ := h
  rw [liveSec_emod_later hU0 hd (by omega)]
  omega

/-- Without a safe time the next cycle has begun. -/
theorem Left.at_end (h : Left m U S now n) (hU0 : 0 < U) :
    (U : ℤ) - m.liveSec (now + n) % U ≤ S ↔ 0 < S := by
  obtain ⟨hpos, hn⟩ := h
  constructor
  · intro hle
    have hlt := Int.emod_lt_of_pos (m.liveSec (now + n)) (Int.natCast_pos.mpr hU0)
    omega
  · intro hS
    rw [liveSec_emod_later hU0 hpos.le (by omega)]
    omega

/-- The reason is about the minimum life: no verdict is a yes before the time is over, and
then the billing cycle decides. -/
structure LifePromise (T : Type) (config : LBConfigProvider) (m : LBServerMeta) (now₁ n : ℤ) :
    Prop where
  before : ∀ {table : ActiveSession T} {a b : ℤ} {reason : String}, a < now₁ + n →
    needDestroy table config m a b ≠ .ok (true, reason)
  after : ∀ {table : ActiveSession T} {a b : ℤ}, table.sessions m.serverName = [] →
    now₁ + n ≤ a → needDestroy table config m a b = needDestroyInBill config m b

/-- The reason is about the billing cycle: no verdict is a yes before the time is over, and
the one at its end is, of an idle server, if there is a safe time. -/
structure BillPromise (T : Type) (config : LBConfigProvider) (m : LBServerMeta) (S : ℕ)
    (now₁ now₂ n : ℤ) : Prop where
  before : ∀ {table : ActiveSession T} {a b : ℤ} {reason : String}, now₁ ≤ a → now₂ ≤ b →
    b < now₂ + n → needDestroy table config m a b ≠ .ok (true, reason)
  at_end : ∀ {table : ActiveSession T} {a : ℤ}, table.sessions m.serverName = [] → now₁ ≤ a →
    ((∃ reason, needDestroy table config m a (now₂ + n) = .ok (true, reason)) ↔ 0 < S)

variable {now₁ now₂ : ℤ}

theorem lifePromise (hL : toSeconds config.minLifeToLive = .ok L) (hL0 : 0 < L)
    (hm : m.manage = true) : LifePromise T config m now₁ (L - m.liveSec now₁) where
  before {table a b reason} ha := by
    refine needDestroy_of_young hL ?_ hL0
    rw [LBServerMeta.liveSec] at ha ⊢
    omega
  after {table a b} hs ha := by
    refine needDestroy_of_min_life hs hm hL hL0 ?_
    rw [LBServerMeta.liveSec] at ha ⊢
    omega

theorem billPromise (hL : toSeconds config.minLifeToLive = .ok L)
    (hU : toSeconds config.billTimeUnit = .ok U) (hU0 : 0 < U)
    (hS : destroySafeTimeInSec config = .ok S) (hL0 : 0 < L) (hm : m.manage = true)
    (hold : L ≤ m.liveSec now₁) (hleft : Left m U S now₂ n) :
    BillPromise T config m S now₁ now₂ n := by
  have hstill : ∀ {a}, now₁ ≤ a → L ≤ m.liveSec a := by
    intro a ha
    rw [LBServerMeta.liveSec] at hold ⊢
    omega
  refine ⟨fun {table a b reason} ha hb hlt h => ?_, fun {table a} hs ha => ?_⟩
  · have hbill := needDestroy_true_old hL hL0 (hstill ha) h
    have hend := (needDestroyInBill_eq_true_iff hU hU0 hS).mp ⟨reason, hbill⟩
    obtain ⟨d, rfl⟩ : ∃ d, b = now₂ + d := ⟨b - now₂, by omega⟩
    exact hleft.before hU0 (by omega) (by omega) hend
  · rw [needDestroy_of_min_life hs hm hL hL0 (hstill ha),
      needDestroyInBill_eq_true_iff hU hU0 hS, hleft.at_end hU0]

/-- The reason of a no to an idle managed server names a time that can be read back from its
text. As long as it is not over, no verdict is a yes. Where it is the time up to the safe
part of the cycle, the verdict at its end is a yes if and only if there is a safe time. -/
theorem needDestroy_promises {table : ActiveSession T} {reason : String}
    (hs : table.sessions m.serverName = []) (hm : m.manage = true)
    (h : needDestroy table config m now₁ now₂ = .ok (false, reason)) :
    ∃ n left, 0 < n ∧ humanizeSeconds n = .ok left ∧ readTimedelta left.toList = some n ∧
      (reason = lifeReason config left ∧ LifePromise T config m now₁ n ∨
        reason = billReason config left ∧ ∃ S, destroySafeTimeInSec config = .ok S ∧
          BillPromise T config m S now₁ now₂ n) := by
  obtain ⟨L, hL⟩ := configured_of_needDestroy hs hm h
  obtain ⟨hL0, ⟨hyoung, left, hleft, hreason⟩ | ⟨hold, hbill⟩⟩ := needDestroy_eq_false hL hs hm h
  · exact ⟨L - m.liveSec now₁, left, by omega, hleft, readTimedelta_humanizeSeconds hleft,
      .inl ⟨hreason, lifePromise hL hL0 hm⟩⟩
  · obtain ⟨U, S, hU, hU0, hS⟩ := configured_of_needDestroyInBill hbill
    obtain ⟨hpos, left, hleft, hreason⟩ := needDestroyInBill_eq_false hU hU0 hS hbill
    exact ⟨U - m.liveSec now₂ % U - S, left, hpos, hleft, readTimedelta_humanizeSeconds hleft,
      .inr ⟨hreason, S, hS, billPromise hL hU hU0 hS hL0 hm hold ⟨hpos, rfl⟩⟩⟩

/-- A quarter of an hour before the last five minutes of the hour. -/
theorem needDestroy_promises_quarter :
    let config : LBConfigProvider := { minLifeToLive := some "1s", billTimeUnit := some "1h",
                                       destroySafeTime := some "5m" }
    let m : LBServerMeta := { providerName := "digitalocean",
                              workspace := .parse "/data/digitalocean/a", serverName := "a",
                              createdTimestamp := 0 }
    let reason := "still have 0:15:00 to live(bill_time_unit=1h)."
    needDestroy (.empty : ActiveSession Unit) config m 2400 2400 = .ok (false, reason) ∧
      ∃ n left, 0 < n ∧ humanizeSeconds n = .ok left ∧ readTimedelta left.toList = some n ∧
        (reason = lifeReason config left ∧ LifePromise Unit config m 2400 n ∨
          reason = billReason config left ∧ ∃ S, destroySafeTimeInSec config = .ok S ∧
            BillPromise Unit config m S 2400 2400 n) := by
  intro config m reason
  have h : needDestroy (.empty : ActiveSession Unit) config m 2400 2400 = .ok (false, reason) := by
    decide +kernel
  exact ⟨h, needDestroy_promises rfl rfl h⟩

end Promises

end Lobbyboy.ServerKiller
