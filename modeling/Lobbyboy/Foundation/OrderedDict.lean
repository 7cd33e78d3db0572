import Mathlib.Data.List.Nodup
import Mathlib.Data.List.Induction

/-! Dictionaries that remember insertion order. An insertion under a present key
overwrites the value in place, an insertion under a new key goes to the end, and a
removal keeps the order of the rest. Keys are unique by construction, so no
operation needs a well-formedness premise. -/

namespace Lobbyboy.Foundation

variable {κ ν : Type*}

/-- A list of entries with pairwise distinct keys. -/
@[ext] structure OrderedDict (κ ν : Type*) where
  entries : List (κ × ν)
  nodup : (entries.map Prod.fst).Nodup

deriving instance DecidableEq for OrderedDict

namespace OrderedDict

def empty : OrderedDict κ ν := ⟨[], List.nodup_nil⟩

def keys (d : OrderedDict κ ν) : List κ := d.entries.map Prod.fst

def values (d : OrderedDict κ ν) : List ν := d.entries.map Prod.snd

@[simp] theorem entries_empty : (empty : OrderedDict κ ν).entries = [] := rfl

@[simp] theorem keys_empty : (empty : OrderedDict κ ν).keys = [] := rfl

@[simp] theorem values_empty : (empty : OrderedDict κ ν).values = [] := rfl

theorem entries_eq_nil {d : OrderedDict κ ν} : d.entries = [] ↔ d = empty := by
  rw [OrderedDict.ext_iff, entries_empty]

theorem keys_eq_nil {d : OrderedDict κ ν} : d.keys = [] ↔ d = empty := by
  rw [keys, List.map_eq_nil_iff, entries_eq_nil]

/-- The last value that the pairs have for a key. -/
def LastOf (ps : List (κ × ν)) (k : κ) (v : ν) : Prop :=
  ∃ before after, ps = before ++ (k, v) :: after ∧ k ∉ after.map Prod.fst

theorem lastOf_cons {p : κ × ν} {ps : List (κ × ν)} {k : κ} {v : ν} :
    LastOf (p :: ps) k v ↔ LastOf ps k v ∨ p = (k, v) ∧ k ∉ ps.map Prod.fst := by
  constructor
  · rintro ⟨before, after, h, hk⟩
    cases before with
    | nil =>
      obtain ⟨rfl, rfl⟩ := List.cons.inj h
      exact .inr ⟨rfl, hk⟩
    | cons q before =>
      obtain ⟨rfl, rfl⟩ := List.cons.inj h
      exact .inl ⟨before, after, rfl, hk⟩
  · rintro (⟨before, after, rfl, hk⟩ | ⟨rfl, hk⟩)
    · exact ⟨p :: before, after, rfl, hk⟩
    · exact ⟨[], ps, rfl, hk⟩

variable [DecidableEq κ]

def lookup (k : κ) : List (κ × ν) → Option ν
  | [] => none
  | e :: es => if e.1 = k then some e.2 else lookup k es

def get? (d : OrderedDict κ ν) (k : κ) : Option ν := lookup k d.entries

@[simp] theorem get?_empty (k : κ) : (empty : OrderedDict κ ν).get? k = none := rfl

theorem lookup_eq_some_iff {k : κ} {v : ν} : ∀ {es : List (κ × ν)}, (es.map Prod.fst).Nodup →
    (lookup k es = some v ↔ (k, v) ∈ es)
  | [], _ => by simp [lookup]
  | (k', v') :: es, h => by
    rw [List.map_cons, List.nodup_cons] at h
    have ih := lookup_eq_some_iff (k := k) (v := v) h.2
    by_cases hk : k' = k
    · subst hk
      have hn : (k', v) ∉ es := fun hm => h.1 (List.mem_map.mpr ⟨_, hm, rfl⟩)
      simp [lookup, hn, eq_comm]
    · simp [lookup, hk, Ne.symm hk, ih]

theorem get?_eq_some_iff {d : OrderedDict κ ν} {k : κ} {v : ν} :
    d.get? k = some v ↔ (k, v) ∈ d.entries := lookup_eq_some_iff d.nodup

theorem mem_keys_iff {d : OrderedDict κ ν} {k : κ} : k ∈ d.keys ↔ ∃ v, d.get? k = some v := by
  simp [keys, get?_eq_some_iff]

theorem get?_eq_none_iff {d : OrderedDict κ ν} {k : κ} : d.get? k = none ↔ k ∉ d.keys := by
  rw [mem_keys_iff, not_exists, Option.eq_none_iff_forall_ne_some]

/-! ### Insertion -/

def insertEntries (k : κ) (v : ν) : List (κ × ν) → List (κ × ν)
  | [] => [(k, v)]
  | e :: es => if e.1 = k then (k, v) :: es else e :: insertEntries k v es

theorem keys_insertEntries (k : κ) (v : ν) (es : List (κ × ν)) :
    (insertEntries k v es).map Prod.fst =
      if k ∈ es.map Prod.fst then es.map Prod.fst else es.map Prod.fst ++ [k] := by
  induction es with
  | nil => simp [insertEntries]
  | cons e es ih =>
    by_cases he : e.1 = k
    · simp [insertEntries, he]
    · have hk : k ≠ e.1 := fun h => he h.symm
      simp only [insertEntries, he, ↓reduceIte, List.map_cons, ih, List.mem_cons, hk, false_or]
      split_ifs <;> rfl

/-- Overwrite in place, or append. -/
def insert (d : OrderedDict κ ν) (k : κ) (v : ν) : OrderedDict κ ν where
  entries := insertEntries k v d.entries
  nodup := by
    rw [keys_insertEntries]
    split_ifs with hk
    · exact d.nodup
    · exact d.nodup.append (List.nodup_singleton k) (by simpa using hk)

theorem keys_insert (d : OrderedDict κ ν) (k : κ) (v : ν) :
    (d.insert k v).keys = if k ∈ d.keys then d.keys else d.keys ++ [k] :=
  keys_insertEntries k v d.entries

@[simp] theorem mem_keys_insert {d : OrderedDict κ ν} {k k' : κ} {v : ν} :
    k' ∈ (d.insert k v).keys ↔ k' = k ∨ k' ∈ d.keys := by
  rw [keys_insert]
  split_ifs with hk
  · exact ⟨Or.inr, by rintro (rfl | h) <;> assumption⟩
  · simp [or_comm]

theorem insertEntries_of_not_mem {k : κ} {v : ν} : ∀ {es : List (κ × ν)}, k ∉ es.map Prod.fst →
    insertEntries k v es = es ++ [(k, v)]
  | [], _ => rfl
  | e :: es, h => by
    simp only [List.map_cons, List.mem_cons, not_or] at h
    simp [insertEntries, Ne.symm h.1, insertEntries_of_not_mem h.2]

/-- A new key goes to the end and leaves every other entry where it was. -/
theorem entries_insert_of_not_mem {d : OrderedDict κ ν} {k : κ} {v : ν} (h : k ∉ d.keys) :
    (d.insert k v).entries = d.entries ++ [(k, v)] := insertEntries_of_not_mem h

/-- A known key adds no entry. -/
theorem not_mem_keys_of_entries_insert {d : OrderedDict κ ν} {k : κ} {v : ν} {e : κ × ν}
    (h : (d.insert k v).entries = d.entries ++ [e]) : k ∉ d.keys := by
  intro hk
  have hkeys : (d.insert k v).keys = d.keys ++ [e.1] := by simp [keys, h]
  rw [keys_insert, if_pos hk] at hkeys
  simpa using congrArg List.length hkeys

theorem get?_insert (d : OrderedDict κ ν) (k k' : κ) (v : ν) :
    (d.insert k v).get? k' = if k' = k then some v else d.get? k' := by
  simp only [get?, insert]
  induction d.entries with
  | nil => simp [insertEntries, lookup, eq_comm]
  | cons e es ih =>
    by_cases he : e.1 = k
    · by_cases hk : k' = k
      · simp [insertEntries, lookup, he, hk]
      · simp [insertEntries, lookup, he, hk, Ne.symm hk]
    · by_cases hk : k' = k
      · subst hk
        simpa [insertEntries, lookup, he] using ih
      · simp only [insertEntries, he, ↓reduceIte, lookup, hk]
        split_ifs
        · rfl
        · simpa [hk] using ih

@[simp] theorem get?_insert_self (d : OrderedDict κ ν) (k : κ) (v : ν) :
    (d.insert k v).get? k = some v := by simp [get?_insert]

theorem get?_insert_of_ne {d : OrderedDict κ ν} {k k' : κ} {v : ν} (h : k' ≠ k) :
    (d.insert k v).get? k' = d.get? k' := by simp [get?_insert, h]

theorem insertEntries_insertEntries_self (k : κ) (v v' : ν) (es : List (κ × ν)) :
    insertEntries k v (insertEntries k v' es) = insertEntries k v es := by
  induction es with
  | nil => simp [insertEntries]
  | cons e es ih => by_cases he : e.1 = k <;> simp [insertEntries, he, ih]

theorem insert_insert_self (d : OrderedDict κ ν) (k : κ) (v v' : ν) :
    (d.insert k v').insert k v = d.insert k v := by
  ext1
  exact insertEntries_insertEntries_self k v v' d.entries

theorem insertEntries_comm {k k' : κ} (hne : k ≠ k') (v v' : ν) : ∀ {es : List (κ × ν)},
    k ∈ es.map Prod.fst →
      insertEntries k v (insertEntries k' v' es) = insertEntries k' v' (insertEntries k v es)
  | [], h => by simp at h
  | e :: es, h => by
    by_cases he : e.1 = k
    · simp [insertEntries, he, hne]
    · have hm : k ∈ es.map Prod.fst := by simpa [Ne.symm he] using h
      by_cases he' : e.1 = k'
      · simp [insertEntries, he', hne.symm]
      · simp [insertEntries, he, he', insertEntries_comm hne v v' hm]

/-- Overwriting a present key commutes with any other insertion. -/
theorem insert_comm {d : OrderedDict κ ν} {k k' : κ} (hk : k ∈ d.keys) (hne : k ≠ k') (v v' : ν) :
    (d.insert k' v').insert k v = (d.insert k v).insert k' v' := by
  ext1
  exact insertEntries_comm hne v v' hk

/-! ### Removal -/

/-- Remove a key, present or not. -/
def erase (d : OrderedDict κ ν) (k : κ) : OrderedDict κ ν where
  entries := d.entries.filter fun e => e.1 ≠ k
  nodup := d.nodup.sublist (List.Sublist.map _ List.filter_sublist)

theorem entries_erase (d : OrderedDict κ ν) (k : κ) :
    (d.erase k).entries = d.entries.filter fun e => e.1 ≠ k := rfl

theorem keys_erase (d : OrderedDict κ ν) (k : κ) :
    (d.erase k).keys = d.keys.filter fun k' => k' ≠ k := by
  simp only [keys, entries_erase, List.filter_map]
  rfl

@[simp] theorem mem_keys_erase {d : OrderedDict κ ν} {k k' : κ} :
    k' ∈ (d.erase k).keys ↔ k' ∈ d.keys ∧ k' ≠ k := by simp [keys_erase]

theorem get?_erase (d : OrderedDict κ ν) (k k' : κ) :
    (d.erase k).get? k' = if k' = k then none else d.get? k' := by
  ext v
  simp only [get?_eq_some_iff, entries_erase, List.mem_filter, decide_eq_true_eq]
  by_cases hk : k' = k <;> simp [hk, get?_eq_some_iff]

theorem get?_erase_of_ne {d : OrderedDict κ ν} {k k' : κ} (h : k' ≠ k) :
    (d.erase k).get? k' = d.get? k' := by simp [get?_erase, h]

/-! ### Several keys at once -/

/-- Insert the pairs from left to right. -/
def insertAll (d : OrderedDict κ ν) (ps : List (κ × ν)) : OrderedDict κ ν :=
  ps.foldl (fun d p => d.insert p.1 p.2) d

def eraseAll (d : OrderedDict κ ν) (ks : List κ) : OrderedDict κ ν := ks.foldl erase d

/-- The dictionary of a list of pairs: the first occurrence of a key gives the place,
the last one the value. -/
def ofPairs (ps : List (κ × ν)) : OrderedDict κ ν := empty.insertAll ps

@[simp] theorem insertAll_nil (d : OrderedDict κ ν) : d.insertAll [] = d := rfl

@[simp] theorem insertAll_cons (d : OrderedDict κ ν) (p : κ × ν) (ps : List (κ × ν)) :
    d.insertAll (p :: ps) = (d.insert p.1 p.2).insertAll ps := rfl

theorem insertAll_append (d : OrderedDict κ ν) (ps qs : List (κ × ν)) :
    d.insertAll (ps ++ qs) = (d.insertAll ps).insertAll qs := List.foldl_append

@[simp] theorem eraseAll_nil (d : OrderedDict κ ν) : d.eraseAll [] = d := rfl

@[simp] theorem eraseAll_cons (d : OrderedDict κ ν) (k : κ) (ks : List κ) :
    d.eraseAll (k :: ks) = (d.erase k).eraseAll ks := rfl

theorem eraseAll_eraseAll (d : OrderedDict κ ν) (ks ks' : List κ) :
    (d.eraseAll ks).eraseAll ks' = d.eraseAll (ks ++ ks') := List.foldl_append.symm

theorem mem_keys_insertAll {d : OrderedDict κ ν} {ps : List (κ × ν)} {k : κ} :
    k ∈ (d.insertAll ps).keys ↔ k ∈ d.keys ∨ k ∈ ps.map Prod.fst := by
  induction ps generalizing d with
  | nil => simp
  | cons p ps ih =>
    rw [insertAll_cons, ih, mem_keys_insert, List.map_cons, List.mem_cons]
    tauto

theorem mem_keys_eraseAll {d : OrderedDict κ ν} {ks : List κ} {k : κ} :
    k ∈ (d.eraseAll ks).keys ↔ k ∈ d.keys ∧ k ∉ ks := by
  induction ks generalizing d with
  | nil => simp
  | cons k' ks ih =>
    rw [eraseAll_cons, ih, mem_keys_erase, List.mem_cons]
    tauto

theorem entries_eraseAll (d : OrderedDict κ ν) (ks : List κ) :
    (d.eraseAll ks).entries = d.entries.filter fun e => e.1 ∉ ks := by
  induction ks generalizing d with
  | nil => simp
  | cons k ks ih =>
    rw [eraseAll_cons, ih, entries_erase, List.filter_filter]
    refine List.filter_congr fun e _ => ?_
    rw [← Bool.decide_and, decide_eq_decide, List.mem_cons, not_or, and_comm]

/-- After the insertions a key has its last new value, or else its old one. -/
theorem get?_insertAll_eq_some {d : OrderedDict κ ν} {ps : List (κ × ν)} {k : κ} {v : ν} :
    (d.insertAll ps).get? k = some v ↔
      LastOf ps k v ∨ k ∉ ps.map Prod.fst ∧ d.get? k = some v := by
  induction ps generalizing d with
  | nil => simp [LastOf]
  | cons p ps ih =>
    obtain ⟨k', v'⟩ := p
    rw [insertAll_cons, ih, lastOf_cons, get?_insert]
    by_cases hk : k = k'
    · subst hk
      simp only [if_true, Option.some.injEq, List.map_cons, List.mem_cons, true_or, not_true,
        false_and, or_false, Prod.mk.injEq, true_and]
      exact or_congr Iff.rfl and_comm
    · simp [hk, Ne.symm hk]

theorem get?_eraseAll (d : OrderedDict κ ν) (ks : List κ) (k : κ) :
    (d.eraseAll ks).get? k = if k ∈ ks then none else d.get? k := by
  induction ks generalizing d with
  | nil => simp
  | cons k' ks ih =>
    rw [eraseAll_cons, ih, get?_erase]
    by_cases hk : k = k' <;> by_cases hks : k ∈ ks <;> simp [hk, hks]

theorem mem_values_iff {d : OrderedDict κ ν} {v : ν} : v ∈ d.values ↔ ∃ k, d.get? k = some v := by
  simp [values, get?_eq_some_iff]

/-- What holds of every old value holds of every value afterwards if it holds of the new
ones that stay. -/
theorem forall_mem_values_merge {d : OrderedDict κ ν} {ps : List (κ × ν)} {ks : List κ}
    {P : ν → Prop} (hd : ∀ v ∈ d.values, P v) :
    (∀ v ∈ ((d.insertAll ps).eraseAll ks).values, P v) ↔
      ∀ k v, LastOf ps k v → k ∉ ks → P v := by
  simp only [mem_values_iff, get?_eraseAll]
  constructor
  · intro h k v hv hk
    exact h v ⟨k, by rw [if_neg hk, get?_insertAll_eq_some]; exact .inl hv⟩
  · rintro h v ⟨k, hv⟩
    split_ifs at hv with hk
    rcases get?_insertAll_eq_some.mp hv with hnew | ⟨-, hold⟩
    · exact h k v hnew hk
    · exact hd v (mem_values_iff.mpr ⟨k, hold⟩)

/-- Entries with distinct new keys are appended as they come. -/
theorem entries_insertAll_of_nodup : ∀ {ps : List (κ × ν)} {d : OrderedDict κ ν},
    ((d.entries ++ ps).map Prod.fst).Nodup → (d.insertAll ps).entries = d.entries ++ ps
  | [], d, _ => by simp
  | p :: ps, d, h => by
    have hk : p.1 ∉ d.keys := by
      rw [List.map_append, List.map_cons, List.nodup_append'] at h
      exact fun hm => h.2.2 hm (by simp)
    have he := entries_insert_of_not_mem (v := p.2) hk
    rw [insertAll_cons, entries_insertAll_of_nodup, he, List.append_assoc]
    · rfl
    · rw [he, List.append_assoc]
      exact h

/-- Rebuilding a dictionary from its own entries gives it back. -/
theorem ofPairs_entries (d : OrderedDict κ ν) : ofPairs d.entries = d := by
  ext1
  have h : (empty.insertAll d.entries).entries = empty.entries ++ d.entries :=
    entries_insertAll_of_nodup (by simpa using d.nodup)
  simpa [ofPairs] using h

theorem insertAll_insert_comm {k : κ} (v : ν) : ∀ {ps : List (κ × ν)} {d : OrderedDict κ ν},
    k ∈ d.keys → k ∉ ps.map Prod.fst → (d.insertAll ps).insert k v = (d.insert k v).insertAll ps
  | [], _, _, _ => rfl
  | p :: ps, d, hk, hp => by
    simp only [List.map_cons, List.mem_cons, not_or] at hp
    rw [insertAll_cons, insertAll_insert_comm v (by simp [hk]) hp.2, insert_comm hk hp.1,
      insertAll_cons]

theorem insertAll_insertEntries (k : κ) (v : ν) : ∀ {ps : List (κ × ν)} (d : OrderedDict κ ν),
    (ps.map Prod.fst).Nodup → d.insertAll (insertEntries k v ps) = (d.insertAll ps).insert k v
  | [], _, _ => rfl
  | p :: ps, d, h => by
    rw [List.map_cons, List.nodup_cons] at h
    by_cases hp : p.1 = k
    · subst hp
      rw [insertAll_cons, insertAll_insert_comm v (by simp) h.1, insert_insert_self]
      simp [insertEntries]
    · simp only [insertEntries, hp, ↓reduceIte, insertAll_cons]
      exact insertAll_insertEntries k v _ h.2

/-- Inserting the entries of a dictionary literal is inserting its pairs one by one:
repeated keys in the literal make no difference. -/
theorem insertAll_ofPairs (d : OrderedDict κ ν) (ps : List (κ × ν)) :
    d.insertAll (ofPairs ps).entries = d.insertAll ps := by
  induction ps using List.reverseRecOn with
  | nil => rfl
  | append_singleton ps p ih =>
    rw [ofPairs, insertAll_append] at *
    rw [insertAll_append, ← ih]
    exact insertAll_insertEntries p.1 p.2 d (empty.insertAll ps).nodup

/-! ### Other values under the same keys -/

section MapValues

variable {μ : Type*}

def mapValues (f : ν → μ) (d : OrderedDict κ ν) : OrderedDict κ μ where
  entries := d.entries.map fun e => (e.1, f e.2)
  nodup := by
    rw [List.map_map]
    exact d.nodup

omit [DecidableEq κ] in
theorem keys_mapValues (f : ν → μ) (d : OrderedDict κ ν) : (d.mapValues f).keys = d.keys := by
  simp [keys, mapValues, Function.comp_def]

omit [DecidableEq κ] in
theorem values_mapValues (f : ν → μ) (d : OrderedDict κ ν) :
    (d.mapValues f).values = d.values.map f := by
  simp [values, mapValues, Function.comp_def]

theorem mapValues_insert (f : ν → μ) (d : OrderedDict κ ν) (k : κ) (v : ν) :
    (d.insert k v).mapValues f = (d.mapValues f).insert k (f v) := by
  have hentries : ∀ es : List (κ × ν), (insertEntries k v es).map (fun e => (e.1, f e.2)) =
      insertEntries k (f v) (es.map fun e => (e.1, f e.2)) := by
    intro es
    induction es with
    | nil => rfl
    | cons e es ih =>
      by_cases hk : e.1 = k
      · simp [insertEntries, hk]
      · simp [insertEntries, hk, ih]
  exact OrderedDict.ext (hentries d.entries)

theorem mapValues_erase (f : ν → μ) (d : OrderedDict κ ν) (k : κ) :
    (d.erase k).mapValues f = (d.mapValues f).erase k :=
  OrderedDict.ext (by simp [mapValues, entries_erase, List.filter_map, Function.comp_def])

theorem mapValues_insertAll (f : ν → μ) (d : OrderedDict κ ν) (ps : List (κ × ν)) :
    (d.insertAll ps).mapValues f = (d.mapValues f).insertAll (ps.map fun p => (p.1, f p.2)) := by
  induction ps generalizing d with
  | nil => rfl
  | cons p ps ih => rw [insertAll_cons, ih, mapValues_insert]; rfl

theorem mapValues_eraseAll (f : ν → μ) (d : OrderedDict κ ν) (ks : List κ) :
    (d.eraseAll ks).mapValues f = (d.mapValues f).eraseAll ks := by
  induction ks generalizing d with
  | nil => rfl
  | cons k ks ih => rw [eraseAll_cons, ih, mapValues_erase]; rfl

end MapValues

end OrderedDict

end Lobbyboy.Foundation
