import Lobbyboy.Foundation.OrderedDict

/-! A dictionary as the outcome of a history of edits. What the history says of a key
(which value was put under it last, since when it has been there) is stated on the list
of edits alone, and the dictionary is shown to hold exactly that, in that order. -/

namespace Lobbyboy.Foundation

variable {κ ν : Type*}

inductive DictEdit (κ ν : Type*)
  | put (k : κ) (v : ν)
  | drop (k : κ)

namespace DictEdit

def key : DictEdit κ ν → κ
  | .put k _ => k
  | .drop k => k

def apply [DecidableEq κ] (d : OrderedDict κ ν) : DictEdit κ ν → OrderedDict κ ν
  | .put k v => d.insert k v
  | .drop k => d.erase k

end DictEdit

/-- `v` was put under `k`, and no later edit is about `k`. -/
def LastPut (es : List (DictEdit κ ν)) (k : κ) (v : ν) : Prop :=
  ∃ before after, es = before ++ .put k v :: after ∧ ∀ e ∈ after, e.key ≠ k

/-- Whatever was put under `k` was dropped later. -/
def Gone (es : List (DictEdit κ ν)) (k : κ) : Prop :=
  ∀ before v after, es = before ++ .put k v :: after → .drop k ∈ after

/-- Edit number `i` put `k` where it was gone, and `k` was not dropped since. -/
def PresentSince (es : List (DictEdit κ ν)) (k : κ) (i : ℕ) : Prop :=
  ∃ before v after, es = before ++ .put k v :: after ∧ before.length = i ∧ Gone before k ∧
    .drop k ∉ after

/-! ### One more edit -/

theorem concat_eq_append_cons {α : Type*} {es before after : List α} {e x : α} :
    es ++ [e] = before ++ x :: after ↔
      (es = before ∧ e = x ∧ after = []) ∨ ∃ a, after = a ++ [e] ∧ es = before ++ x :: a := by
  induction after using List.reverseRecOn with
  | nil => simp
  | append_singleton after y =>
    rw [← List.cons_append, ← List.append_assoc, List.append_singleton_inj]
    constructor
    · rintro ⟨rfl, rfl⟩
      exact .inr ⟨after, rfl, rfl⟩
    · rintro (⟨-, -, h⟩ | ⟨a, h, rfl⟩)
      · simp at h
      · obtain ⟨rfl, rfl⟩ := List.append_singleton_inj.mp h
        exact ⟨rfl, rfl⟩

theorem lastPut_concat {es : List (DictEdit κ ν)} {e : DictEdit κ ν} {k : κ} {v : ν} :
    LastPut (es ++ [e]) k v ↔ e = .put k v ∨ e.key ≠ k ∧ LastPut es k v := by
  constructor
  · rintro ⟨before, after, h, hk⟩
    rcases concat_eq_append_cons.mp h with ⟨-, rfl, -⟩ | ⟨a, rfl, rfl⟩
    · exact .inl rfl
    · exact .inr ⟨hk e (by simp), before, a, rfl, fun e he => hk e (by simp [he])⟩
  · rintro (rfl | ⟨he, before, after, rfl, hk⟩)
    · exact ⟨es, [], rfl, by simp⟩
    · refine ⟨before, after ++ [e], by simp, ?_⟩
      rintro e' he'
      rcases List.mem_append.mp he' with h | h
      · exact hk e' h
      · rwa [List.mem_singleton.mp h]

theorem gone_concat {es : List (DictEdit κ ν)} {e : DictEdit κ ν} {k : κ} :
    Gone (es ++ [e]) k ↔ e = .drop k ∨ (∀ v, e ≠ .put k v) ∧ Gone es k := by
  constructor
  · intro h
    by_cases hd : e = .drop k
    · exact .inl hd
    · refine .inr ⟨?_, ?_⟩
      · rintro v rfl
        simpa using h es v [] rfl
      · rintro before v after rfl
        simpa [Ne.symm hd] using h before v (after ++ [e]) (by simp)
  · rintro (rfl | ⟨hp, hg⟩) before v after h
    · rcases concat_eq_append_cons.mp h with ⟨-, h, -⟩ | ⟨a, rfl, -⟩
      · cases h
      · simp
    · rcases concat_eq_append_cons.mp h with ⟨-, h, -⟩ | ⟨a, rfl, h'⟩
      · exact absurd h (hp v)
      · exact List.mem_append_left _ (hg before v a h')

theorem presentSince_concat {es : List (DictEdit κ ν)} {e : DictEdit κ ν} {k : κ} {i : ℕ} :
    PresentSince (es ++ [e]) k i ↔
      e ≠ .drop k ∧ PresentSince es k i ∨ (∃ v, e = .put k v) ∧ i = es.length ∧ Gone es k := by
  constructor
  · rintro ⟨before, v, after, h, rfl, hg, hd⟩
    rcases concat_eq_append_cons.mp h with ⟨rfl, rfl, -⟩ | ⟨a, rfl, rfl⟩
    · exact .inr ⟨⟨v, rfl⟩, rfl, hg⟩
    · simp only [List.mem_append, List.mem_singleton, not_or] at hd
      exact .inl ⟨Ne.symm hd.2, before, v, a, rfl, rfl, hg, hd.1⟩
  · rintro (⟨he, before, v, after, rfl, rfl, hg, hd⟩ | ⟨⟨v, rfl⟩, rfl, hg⟩)
    · exact ⟨before, v, after ++ [e], by simp, rfl, hg, by simp [hd, Ne.symm he]⟩
    · exact ⟨es, v, [], rfl, rfl, hg, by simp⟩

theorem PresentSince.lt {es : List (DictEdit κ ν)} {k : κ} {i : ℕ} (h : PresentSince es k i) :
    i < es.length := by
  obtain ⟨before, v, after, rfl, rfl, -⟩ := h
  simp

/-! ### The dictionary of a history -/

section Replay

variable [DecidableEq κ]

def replay (es : List (DictEdit κ ν)) : OrderedDict κ ν := es.foldl DictEdit.apply .empty

@[simp] theorem replay_nil : replay ([] : List (DictEdit κ ν)) = .empty := rfl

theorem replay_concat (es : List (DictEdit κ ν)) (e : DictEdit κ ν) :
    replay (es ++ [e]) = e.apply (replay es) := by simp [replay]

/-- A key holds the value put last. -/
theorem get?_replay {es : List (DictEdit κ ν)} {k : κ} {v : ν} :
    (replay es).get? k = some v ↔ LastPut es k v := by
  induction es using List.reverseRecOn with
  | nil => simp [LastPut]
  | append_singleton es e ih =>
    rw [replay_concat, lastPut_concat]
    cases e with
    | put k' v' =>
      by_cases hk : k = k'
      · simp [DictEdit.apply, DictEdit.key, hk]
      · simp [DictEdit.apply, DictEdit.key, OrderedDict.get?_insert, hk, Ne.symm hk, ih]
    | drop k' =>
      by_cases hk : k = k'
      · simp [DictEdit.apply, DictEdit.key, OrderedDict.get?_erase, hk]
      · simp [DictEdit.apply, DictEdit.key, OrderedDict.get?_erase, hk, Ne.symm hk, ih]

theorem mem_keys_apply {d : OrderedDict κ ν} {e : DictEdit κ ν} {k : κ} :
    k ∈ (e.apply d).keys ↔ (∃ v, e = .put k v) ∨ e ≠ .drop k ∧ k ∈ d.keys := by
  cases e with
  | put k' v' =>
    by_cases hk : k = k'
    · simp [DictEdit.apply, hk]
    · simp [DictEdit.apply, hk, Ne.symm hk]
  | drop k' =>
    by_cases hk : k = k'
    · simp [DictEdit.apply, hk]
    · simp [DictEdit.apply, hk, Ne.symm hk]

theorem not_mem_keys_replay {es : List (DictEdit κ ν)} {k : κ} :
    k ∉ (replay es).keys ↔ Gone es k := by
  induction es using List.reverseRecOn with
  | nil => simp [Gone]
  | append_singleton es e ih =>
    rw [replay_concat, gone_concat, ← ih, mem_keys_apply]
    by_cases hd : e = .drop k
    · simp [hd]
    · simp [hd]

theorem mem_keys_replay {es : List (DictEdit κ ν)} {k : κ} :
    k ∈ (replay es).keys ↔ ∃ i, PresentSince es k i := by
  induction es using List.reverseRecOn with
  | nil => simp [PresentSince]
  | append_singleton es e ih =>
    simp only [replay_concat, presentSince_concat, exists_or, exists_and_left, exists_eq_left, ← ih,
      ← not_mem_keys_replay, mem_keys_apply]
    by_cases hp : ∃ v, e = .put k v
    · obtain ⟨v, rfl⟩ := hp
      simp [em]
    · simp [hp]

/-- The keys stand in the order of the edits that brought them in. -/
theorem keys_replay_pairwise (es : List (DictEdit κ ν)) :
    (replay es).keys.Pairwise
      fun a b => ∀ i j, PresentSince es a i → PresentSince es b j → i < j := by
  induction es using List.reverseRecOn with
  | nil => simp
  | append_singleton es e ih =>
    rw [replay_concat]
    cases e with
    | put k v =>
      have hold : ∀ {a i}, a ∈ (replay es).keys →
          PresentSince (es ++ [.put k v]) a i → PresentSince es a i := by
        intro a i ha h
        rcases presentSince_concat.mp h with ⟨-, h⟩ | ⟨-, -, hg⟩
        · exact h
        · exact absurd ha (not_mem_keys_replay.mpr hg)
      have hkeys := List.Pairwise.imp_of_mem
        (fun ha hb h i j hi hj => h i j (hold ha hi) (hold hb hj)) ih
      rw [DictEdit.apply, OrderedDict.keys_insert]
      split_ifs with hk
      · exact hkeys
      · refine List.pairwise_append.mpr ⟨hkeys, List.pairwise_singleton _ _, ?_⟩
        rintro a ha b hb i j hi hj
        rw [List.mem_singleton.mp hb] at hj
        rcases presentSince_concat.mp hj with ⟨-, hj⟩ | ⟨-, rfl, -⟩
        · exact absurd (mem_keys_replay.mpr ⟨j, hj⟩) hk
        · exact (hold ha hi).lt
    | drop k =>
      rw [DictEdit.apply, OrderedDict.keys_erase]
      refine (ih.imp ?_).sublist List.filter_sublist
      intro a b h i j hi hj
      have hold : ∀ {c n}, PresentSince (es ++ [.drop k]) c n → PresentSince es c n := by
        intro c n hc
        rcases presentSince_concat.mp hc with ⟨-, hc⟩ | ⟨⟨v, hv⟩, -⟩
        · exact hc
        · cases hv
      exact h i j (hold hi) (hold hj)

end Replay

end Lobbyboy.Foundation
