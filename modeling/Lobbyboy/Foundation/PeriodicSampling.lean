import Mathlib.Algebra.Order.Archimedean.Basic
import Mathlib.Algebra.Order.Group.Int
import Mathlib.Data.Set.Operations

/-! Sampling at a fixed period, from an arbitrary phase. A window is hit from every phase
exactly when it is at least as long as the period. -/

namespace Lobbyboy.Foundation

open Set

variable {α : Type*} [AddCommGroup α] [LinearOrder α] [IsOrderedAddMonoid α] [Archimedean α]
  {period a b w : α}

/-- The sample times of a sampler that starts at `phase`. -/
def sample (phase period : α) (k : ℕ) : α := phase + k • period

theorem exists_sample_mem {phase : α} (hp : 0 < period) (hphase : phase ≤ a) (hw : period ≤ w) :
    ∃ k, sample phase period k ∈ Ico a (a + w) := by
  obtain ⟨n, ⟨hn, hn'⟩, -⟩ := existsUnique_add_zsmul_mem_Ico hp phase a
  have hpos : 0 ≤ n := by
    by_contra hneg
    have hlt : n • period < (0 : ℤ) • period := zsmul_lt_zsmul_left hp (not_le.mp hneg)
    rw [zero_zsmul] at hlt
    exact (hphase.trans hn).not_gt (add_lt_of_neg_right phase hlt)
  obtain ⟨k, rfl⟩ := Int.eq_ofNat_of_zero_le hpos
  rw [natCast_zsmul] at hn hn'
  exact ⟨k, hn, hn'.trans_le (by gcongr)⟩

/-- A shorter window is missed by a sampler that takes a sample right at its end. -/
theorem exists_phase_forall_sample_not_mem (hp : 0 < period) (hw : w < period) (b : α) :
    ∃ phase ≤ b, ∀ k, sample phase period k ∉ Ico a (a + w) := by
  obtain ⟨m, hm⟩ := Archimedean.arch (a + w - b) hp
  refine ⟨a + w - m • period, by rwa [sub_le_comm], fun k ⟨hk, hk'⟩ => ?_⟩
  rw [sample, sub_add_eq_add_sub, add_sub_assoc] at hk hk'
  have hkm : k < m := by
    by_contra hmk
    have hle : m • period ≤ k • period := nsmul_le_nsmul_left hp.le (not_lt.mp hmk)
    exact hk'.not_ge (le_add_of_nonneg_right (sub_nonneg.mpr hle))
  have hle : (k + 1) • period ≤ m • period := nsmul_le_nsmul_left hp.le hkm
  rw [succ_nsmul] at hle
  grind

/-- Every sampler that has started by `b` takes a sample in the window after `a`. -/
theorem forall_phase_exists_sample_iff (hp : 0 < period) (hb : b ≤ a) :
    (∀ phase ≤ b, ∃ k, sample phase period k ∈ Ico a (a + w)) ↔ period ≤ w := by
  constructor
  · intro h
    by_contra hw
    obtain ⟨phase, hphase, hmiss⟩ := exists_phase_forall_sample_not_mem (a := a) hp (not_le.mp hw) b
    obtain ⟨k, hk⟩ := h phase hphase
    exact hmiss k hk
  · exact fun hw phase hphase => exists_sample_mem hp (hphase.trans hb) hw

end Lobbyboy.Foundation
