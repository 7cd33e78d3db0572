import Lobbyboy.Foundation.PeriodicSampling
import Lobbyboy.ServerKiller.BillingRule

/-! The patrol against the billing cycle. The killer looks at a server once in every
patrol period, and `need_destroy` says yes only in the last `destroy_safe_time` seconds
of a cycle. The configuration documents a rule that adds the patrol period to the safe
time; the code does not, so a cycle can pass between two ticks unless the safe time
alone covers the period. -/

namespace Lobbyboy.ServerKiller

open Foundation Utils Config

variable {T : Type} {config : LBConfigProvider} {m : LBServerMeta} {L U S P : ℕ}

/-- Inside billing cycle `n` of a server that is old enough, the answer is yes exactly in
the safe time. -/
theorem needDestroy_in_cycle_iff {activeSession : ActiveSession T}
    (hL : toSeconds config.minLifeToLive = .ok L) (hU : toSeconds config.billTimeUnit = .ok U)
    (hS : destroySafeTimeInSec config = .ok S) (hL0 : 0 < L) (hU0 : 0 < U)
    (hs : activeSession.sessions m.serverName = []) (hm : m.manage = true) {n : ℕ}
    (hn : L ≤ n * U) {t : ℤ} (ht : m.createdTimestamp + n * U ≤ t)
    (ht' : t < m.createdTimestamp + (n + 1) * U) :
    (∃ reason, needDestroy activeSession config m t t = .ok (true, reason)) ↔
      m.createdTimestamp + (n + 1) * U - S ≤ t := by
  have hn' : (L : ℤ) ≤ n * U := by exact_mod_cast hn
  have hring : ((n : ℤ) + 1) * U = n * U + U := by ring
  have hage : m.liveSec t = t - m.createdTimestamp := rfl
  have hcycle : InCycle U n (m.liveSec t) := ⟨by omega, by omega⟩
  have hleft : paidLeft U n (m.liveSec t) = m.createdTimestamp + (n + 1) * U - t := by
    rw [paidLeft]; omega
  have hold : (L : ℤ) ≤ m.liveSec t := by omega
  have hrule : (∃ reason, needDestroyInBill config m t = .ok (true, reason)) ↔
      (U : ℤ) - m.liveSec t % U ≤ S := needDestroyInBill_eq_true_iff hU hU0 hS
  rw [needDestroy_of_min_life hs hm hL hL0 hold, hrule, hcycle.sub_emod, hleft]
  omega

/-- Some tick of the patrol inside billing cycle `n` finds that the server is to be
destroyed. The patrol starts at `start` and ticks every `P` seconds; the session table is
the one of the tick. -/
def DestroyedInCycle (table : ℕ → ActiveSession T) (config : LBConfigProvider) (m : LBServerMeta)
    (U P n : ℕ) (start : ℤ) : Prop :=
  ∃ k, m.createdTimestamp + n * U ≤ sample start (P : ℤ) k ∧
    sample start (P : ℤ) k < m.createdTimestamp + (n + 1) * U ∧
    ∃ reason, needDestroy (table k) config m (sample start (P : ℤ) k) (sample start (P : ℤ) k) =
      .ok (true, reason)

/-- Every managed server without sessions is to be destroyed in every full billing cycle
after its minimum life, whatever the phase of a patrol that is running by then. -/
def DestroyedEveryCycle (T : Type) (config : LBConfigProvider) (L U P : ℕ) : Prop :=
  ∀ (table : ℕ → ActiveSession T) (m : LBServerMeta),
    (∀ k, (table k).sessions m.serverName = []) → m.manage = true →
      ∀ n : ℕ, L ≤ n * U → ∀ start ≤ m.createdTimestamp + n * U,
        DestroyedInCycle table config m U P n start

/-- A patrol that starts late enough steps over every window shorter than its period. -/
theorem le_of_destroyedEveryCycle (hL : toSeconds config.minLifeToLive = .ok L)
    (hU : toSeconds config.billTimeUnit = .ok U) (hS : destroySafeTimeInSec config = .ok S)
    (hL0 : 0 < L) (hU0 : 0 < U) (hP0 : 0 < P) (hPS : P + S < U)
    (h : DestroyedEveryCycle T config L U P) : P ≤ S := by
  have hP : (0 : ℤ) < P := by omega
  let m : LBServerMeta := { providerName := "", workspace := .parse "", serverName := "",
                            createdTimestamp := 0 }
  have hcycle : L ≤ L * U := Nat.le_mul_of_pos_right L hU0
  have hring : ((L : ℤ) + 1) * U = L * U + U := by ring
  have hwindow : ∀ start ≤ (L : ℤ) * U, ∃ k,
      sample start (P : ℤ) k ∈ Set.Ico (((L : ℤ) + 1) * U - S) (((L : ℤ) + 1) * U - S + S) := by
    intro start hstart
    have hstart' : start ≤ m.createdTimestamp + L * U := by simpa [m] using hstart
    obtain ⟨k, ht, ht', hyes⟩ := h (fun _ => .empty) m (fun _ => rfl) rfl L hcycle start hstart'
    have hsafe := (needDestroy_in_cycle_iff hL hU hS hL0 hU0 rfl rfl hcycle ht ht').mp hyes
    simp only [m, zero_add] at hsafe ht'
    exact ⟨k, hsafe, by omega⟩
  have hle := (forall_phase_exists_sample_iff hP (by omega)).mp hwindow
  omega

/-- A tick falls into the safe time of every cycle. -/
theorem destroyedEveryCycle_of_le (hL : toSeconds config.minLifeToLive = .ok L)
    (hU : toSeconds config.billTimeUnit = .ok U) (hS : destroySafeTimeInSec config = .ok S)
    (hL0 : 0 < L) (hU0 : 0 < U) (hP0 : 0 < P) (hPS : P + S < U) (hle : P ≤ S) :
    DestroyedEveryCycle T config L U P := by
  intro table m hs hm n hn start hstart
  have hP : (0 : ℤ) < P := by omega
  have hring : ((n : ℤ) + 1) * U = n * U + U := by ring
  obtain ⟨k, ht, ht'⟩ : ∃ k, m.createdTimestamp + (n + 1) * U - S ≤ sample start (P : ℤ) k ∧
      sample start (P : ℤ) k < m.createdTimestamp + (n + 1) * U - S + S :=
    exists_sample_mem hP (by omega) (by omega)
  have ht₁ : m.createdTimestamp + n * U ≤ sample start (P : ℤ) k := by omega
  have ht₂ : sample start (P : ℤ) k < m.createdTimestamp + (n + 1) * U := by omega
  have hyes := (needDestroy_in_cycle_iff hL hU hS hL0 hU0 (hs k) hm hn ht₁ ht₂).mpr ht
  exact ⟨k, ht₁, ht₂, hyes⟩

/-- The documented rule is kept exactly when the safe time is at least the patrol period. -/
theorem destroyedEveryCycle_iff (hL : toSeconds config.minLifeToLive = .ok L)
    (hU : toSeconds config.billTimeUnit = .ok U) (hS : destroySafeTimeInSec config = .ok S)
    (hL0 : 0 < L) (hU0 : 0 < U) (hP0 : 0 < P) (hPS : P + S < U) :
    DestroyedEveryCycle T config L U P ↔ P ≤ S :=
  ⟨le_of_destroyedEveryCycle hL hU hS hL0 hU0 hP0 hPS,
    destroyedEveryCycle_of_le hL hU hS hL0 hU0 hP0 hPS⟩

/-- The safe time of the example configuration and a patrol every minute. -/
theorem destroyedEveryCycle_five_minutes :
    DestroyedEveryCycle Unit { minLifeToLive := some "55m", billTimeUnit := some "1h",
                               destroySafeTime := some "5m" } 3300 3600 60 :=
  (destroyedEveryCycle_iff (S := 300) rfl rfl rfl (by decide) (by decide) (by decide)
    (by decide)).mpr (by decide)

/-- Without a safe time, no tick of any patrol finds an idle server to be destroyed in its
second hour. -/
theorem not_destroyed_without_safe_time :
    let config : LBConfigProvider := { minLifeToLive := some "55m", billTimeUnit := some "1h" }
    let m : LBServerMeta := { providerName := "digitalocean",
                              workspace := .parse "/data/digitalocean/a", serverName := "a",
                              createdTimestamp := 0 }
    (∀ start, ¬ DestroyedInCycle (fun _ => .empty : ℕ → ActiveSession Unit) config m 3600 60 1
      start) ∧ ¬ DestroyedEveryCycle Unit config 3300 3600 60 := by
  intro config m
  have hmiss : ∀ start, ¬ DestroyedInCycle (fun _ => .empty : ℕ → ActiveSession Unit) config m 3600
      60 1 start := by
    rintro start ⟨k, ht, ht', hyes⟩
    have := (needDestroy_in_cycle_iff (L := 3300) (S := 0) rfl rfl rfl (by decide) (by decide) rfl
      rfl (by decide) ht ht').mp hyes
    simp only [m] at this ht'
    omega
  exact ⟨hmiss, fun h => hmiss 0 (h _ m (fun _ => rfl) rfl 1 (by decide) 0 (by decide))⟩

end Lobbyboy.ServerKiller
