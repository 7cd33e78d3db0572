import Lobbyboy.Foundation.PosixPath

/-! Files and directories by their paths. Paths are told apart by their letters: there are
no links, and `..` is a name like any other. Only what lies in a directory is there. -/

namespace Lobbyboy.Foundation

inductive Node where
  | dir
  | file (bytes : List UInt8)
  deriving DecidableEq

inductive FileError where
  | fileNotFound | fileExists | isADirectory | notADirectory
  deriving DecidableEq

structure FileTree where
  node : PosixPath → Option Node
  top : ∀ p, p.parts = [] → node p = some .dir
  above : ∀ p q, p.isAbove q = true → p ≠ q → (node q).isSome → node p = some .dir

namespace FileTree

variable (t : FileTree)

/-- `path.exists()`. -/
def pathExists (p : PosixPath) : Bool := (t.node p).isSome

def isFile (p : PosixPath) : Bool :=
  match t.node p with
  | some (.file _) => true
  | _ => false

theorem isFile_iff {p : PosixPath} :
    t.isFile p = true ↔ ∃ bytes, t.node p = some (.file bytes) := by
  unfold isFile
  split <;> simp_all

theorem isFile_eq_false_iff {p : PosixPath} :
    t.isFile p = false ↔ ∀ bytes, t.node p ≠ some (.file bytes) := by
  rw [← Bool.not_eq_true, isFile_iff]
  exact not_exists

/-- Nothing but the roots. -/
def empty : FileTree where
  node p := if p.parts = [] then some .dir else none
  top p hp := if_pos hp
  above p q h hne hq := by
    have hnil : q.parts = [] := by
      by_contra hparts
      rw [if_neg hparts] at hq
      cases hq
    have hprefix := (PosixPath.isAbove_iff.mp h).2
    rw [hnil, List.prefix_nil] at hprefix
    exact if_pos hprefix

theorem isFile_empty (p : PosixPath) : empty.isFile p = false := by
  refine (empty.isFile_eq_false_iff).mpr fun bytes h => ?_
  simp only [empty] at h
  split_ifs at h
  cases h

/-! ### Directories -/

/-- `path.mkdir(parents=True, exist_ok=True)`. -/
def makeDirs (p : PosixPath) : Except FileError FileTree :=
  if h : ∀ a ∈ p.ancestors, t.isFile a = false then
    .ok {
      node := fun q => if q.isAbove p then some .dir else t.node q
      top := fun q hq => by rw [t.top q hq, ite_self]
      above := fun a q ha hne hq => by
        by_cases hqp : q.isAbove p = true
        · exact if_pos (PosixPath.isAbove_trans ha hqp)
        · rw [if_neg hqp] at hq
          rw [t.above a q ha hne hq, ite_self] }
  else .error (if t.isFile p then .fileExists else .notADirectory)

variable {t} {t' : FileTree} {p : PosixPath}

theorem makeDirs_ok_iff :
    (∃ t', t.makeDirs p = .ok t') ↔ ∀ a, a.isAbove p = true → t.isFile a = false := by
  simp only [← PosixPath.mem_ancestors]
  unfold makeDirs
  split
  · next h => exact iff_of_true ⟨_, rfl⟩ h
  · next h => exact iff_of_false (by simp) h

theorem node_makeDirs (h : t.makeDirs p = .ok t') (q : PosixPath) :
    t'.node q = if q.isAbove p then some .dir else t.node q := by
  unfold makeDirs at h
  split at h
  · cases h
    rfl
  · cases h

/-- A file stays what it was. -/
theorem makeDirs_file (h : t.makeDirs p = .ok t') {q : PosixPath} {bytes : List UInt8} :
    t'.node q = some (.file bytes) ↔ t.node q = some (.file bytes) := by
  rw [node_makeDirs h]
  by_cases hq : q.isAbove p = true
  · have hfile := makeDirs_ok_iff.mp ⟨t', h⟩ q hq
    simpa [hq] using t.isFile_eq_false_iff.mp hfile bytes
  · rw [if_neg hq]

/-! ### Files -/

variable (t) in
/-- `open(path, "r")`. -/
def read (p : PosixPath) : Except FileError (List UInt8) :=
  match t.node p with
  | some (.file bytes) => .ok bytes
  | some .dir => .error .isADirectory
  | none => .error .fileNotFound

theorem read_eq_ok_iff {bytes : List UInt8} :
    t.read p = .ok bytes ↔ t.node p = some (.file bytes) := by
  unfold read
  split <;> simp_all

/-- What is read depends on what is there alone. -/
theorem read_congr (h : t.node p = t'.node p) : t.read p = t'.read p := by rw [read, read, h]

variable (t) in
/-- A file is there, or there is a directory to make it in. -/
def Writable (p : PosixPath) : Prop := t.node p ≠ some .dir ∧ t.node p.parent = some .dir

instance : Decidable (t.Writable p) := inferInstanceAs (Decidable (_ ∧ _))

variable (t) in
/-- `open(path, "w")`, and the writing of all of that. -/
def write (p : PosixPath) (bytes : List UInt8) : Except FileError FileTree :=
  if h : t.Writable p then
    .ok {
      node := fun q => if q = p then some (.file bytes) else t.node q
      top := fun q hq => by
        have hne : q ≠ p := by
          rintro rfl
          exact h.1 (t.top q hq)
        rw [if_neg hne, t.top q hq]
      above := fun a q ha hne hq => by
        have hparent : (t.node p.parent).isSome := by rw [h.2]; rfl
        by_cases hap : a = p
        · subst hap
          rw [if_neg (Ne.symm hne)] at hq
          exact absurd (t.above a q ha hne hq) h.1
        · rw [if_neg hap]
          by_cases hqp : q = p
          · subst hqp
            by_cases hpar : a = q.parent
            · rw [hpar, h.2]
            · exact t.above a q.parent (PosixPath.isAbove_parent ha hne) hpar hparent
          · rw [if_neg hqp] at hq
            exact t.above a q ha hne hq }
  else .error (
    if t.node p = some .dir then .isADirectory
    else if t.pathExists p.parent then .notADirectory
    else .fileNotFound)

theorem write_ok_iff (bytes : List UInt8) : (∃ t', t.write p bytes = .ok t') ↔ t.Writable p := by
  unfold write
  split <;> simp [*]

theorem node_write {bytes : List UInt8} (h : t.write p bytes = .ok t') (q : PosixPath) :
    t'.node q = if q = p then some (.file bytes) else t.node q := by
  unfold write at h
  split at h
  · cases h
    rfl
  · cases h

variable (t) in
/-- The writing of all of that through a file that was opened before: at its start, where
what is behind stays. -/
def overwrite (p : PosixPath) (bytes : List UInt8) : Except FileError FileTree := do
  t.write p (bytes ++ (← t.read p).drop bytes.length)

theorem overwrite_of_node {old : List UInt8} (h : t.node p = some (.file old))
    (bytes : List UInt8) : t.overwrite p bytes = t.write p (bytes ++ old.drop bytes.length) := by
  rw [overwrite, read_eq_ok_iff.mpr h]
  rfl

/-! ### What changes nothing -/

theorem ext_node (h : ∀ q, t.node q = t'.node q) : t = t' := by
  cases t
  cases t'
  congr
  exact funext h

/-- The directory is there. -/
theorem makeDirs_of_dir (h : t.node p = some .dir) : t.makeDirs p = .ok t := by
  have habove : ∀ a, a.isAbove p = true → t.node a = some .dir := by
    intro a ha
    by_cases hap : a = p
    · rw [hap, h]
    · exact t.above a p ha hap (by rw [h]; rfl)
  obtain ⟨t', h'⟩ := makeDirs_ok_iff.mpr fun a ha => by rw [isFile, habove a ha]
  have hsame : t' = t := by
    refine ext_node fun q => ?_
    rw [node_makeDirs h']
    split_ifs with hq
    · exact (habove q hq).symm
    · rfl
  rw [h', hsame]

/-! ### What a write keeps -/

theorem exists_write {bytes : List UInt8} (h : t.write p bytes = .ok t') {q : PosixPath}
    (hq : t.pathExists q = true) : t'.pathExists q = true := by
  show (t'.node q).isSome = true
  rw [node_write h]
  by_cases hqp : q = p
  · rw [if_pos hqp]
    rfl
  · rw [if_neg hqp]
    exact hq

theorem dir_write {bytes : List UInt8} (h : t.write p bytes = .ok t') {q : PosixPath}
    (hq : t.node q = some .dir) : t'.node q = some .dir := by
  have hp := (write_ok_iff bytes).mp ⟨t', h⟩
  have hne : q ≠ p := by
    rintro rfl
    exact hp.1 hq
  rw [node_write h, if_neg hne, hq]

theorem Writable.write {bytes : List UInt8} {q : PosixPath} (hq : t.Writable q)
    (h : t.write p bytes = .ok t') : t'.Writable q := by
  refine ⟨?_, dir_write h hq.2⟩
  rw [node_write h]
  split_ifs
  · simp
  · exact hq.1

/-- What is written replaces what was written before. -/
theorem write_write {bytes : List UInt8} (h : t.write p bytes = .ok t') (bytes' : List UInt8) :
    t'.write p bytes' = t.write p bytes' := by
  have hp := (write_ok_iff bytes).mp ⟨t', h⟩
  obtain ⟨t₁, h₁⟩ := (write_ok_iff bytes').mpr hp
  obtain ⟨t₂, h₂⟩ := (write_ok_iff bytes').mpr (hp.write h)
  have hsame : t₂ = t₁ := by
    refine ext_node fun q => ?_
    rw [node_write h₂, node_write h₁, node_write h]
    split_ifs <;> rfl
  rw [h₁, h₂, hsame]

/-- After its opening a file is written as if at once. -/
theorem overwrite_opened (h : t.write p [] = .ok t') (bytes : List UInt8) :
    t'.overwrite p bytes = t.write p bytes := by
  have hnode : t'.node p = some (.file []) := by rw [node_write h, if_pos rfl]
  rw [overwrite_of_node hnode, List.drop_nil, List.append_nil, write_write h]

end FileTree

end Lobbyboy.Foundation
