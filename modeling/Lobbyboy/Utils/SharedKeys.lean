import Lobbyboy.Foundation.Loop
import Lobbyboy.Foundation.Simulation
import Lobbyboy.Utils.SshKeys

/-! Calls of `confirm_ssh_key_pair` for the same files, from any number of threads. Between
any two steps of one call the others take theirs: a call can find a file that another has
opened and has yet to write, and each can write its own pair. The opening truncates a file
and the writing does not, so a text can be laid over the beginning of a longer one. -/

namespace Lobbyboy.Utils

open Foundation

namespace SharedKeys

/-- Where a call is: what it has loaded, or the pair that was generated for it and how far
that has come. -/
inductive Phase
  | outside
  | loading (priKey : String)
  | loaded (priKey pubKey : String)
  | generated (pair : String × String)
  | inDirectory (pair : String × String)
  | privateThere (pair : String × String)
  | writing (pair : String × String)
  | openedPrivate (pair : String × String)
  | wrotePrivate (pair : String × String)
  | openedPublic (pair : String × String)
  | returned (pair : String × String)
  | raised (e : PyExc)
  deriving DecidableEq

/-- What thread takes a step; `generated` is what `generate_ssh_key_pair` gives if it is
called in it. -/
structure Action where
  thread : ℕ
  generated : Except PyExc (String × String)

structure State where
  tree : FileTree
  phase : ℕ → Phase := fun _ => .outside

/-- The `write` of an open file, which is buffered and arrives as a whole with the `close`. -/
def overwriteText (path : PosixPath) (text : String) : OnDisk Unit := do
  match (← get).overwrite path (Utf8.encode text) with
  | .ok t => set t
  | .error e => throw (osError path e)

variable (savePath : PosixPath) (keyType : KeyTypeSupport) (keyName : Option String)

/-- The next step of a call. The loading of a file is one step: `exists()` comes first, and
no file goes away. The modes of the files are left out. -/
def advance (generated : Except PyExc (String × String)) : Phase → OnDisk Phase
  | .outside => do return .loading (← liftExcept
      (textAt (← get) (privateKeyFile savePath keyType keyName)))
  | .loading priKey => do return .loaded priKey (← liftExcept
      (textAt (← get) (publicKeyFile savePath keyType keyName)))
  | .loaded priKey pubKey =>
    if priKey ≠ "" ∧ pubKey ≠ "" then return .returned (priKey, pubKey)
    else do return .generated (← liftExcept generated)
  | .generated pair => do
    mkdir savePath
    return .inDirectory pair
  | .inDirectory pair => do
    if (← get).pathExists (privateKeyFile savePath keyType keyName) then return .privateThere pair
    else return .writing pair
  | .privateThere pair => do
    if (← get).pathExists (publicKeyFile savePath keyType keyName) then return .returned pair
    else return .writing pair
  | .writing pair => do
    writeText (privateKeyFile savePath keyType keyName) ""
    return .openedPrivate pair
  | .openedPrivate pair => do
    overwriteText (privateKeyFile savePath keyType keyName) pair.1
    return .wrotePrivate pair
  | .wrotePrivate pair => do
    writeText (publicKeyFile savePath keyType keyName) ""
    return .openedPublic pair
  | .openedPublic pair => do
    overwriteText (publicKeyFile savePath keyType keyName) pair.2
    return .returned pair
  | .returned pair => return .returned pair
  | .raised e => return .raised e

namespace Phase

/-- The call is over. -/
def ended : Phase → Bool
  | returned _ | raised _ => true
  | _ => false

/-- The private key file is open, and has yet to be written. -/
def holdsPrivate : Phase → Bool
  | openedPrivate _ => true
  | _ => false

/-- The public key file is open, and has yet to be written. -/
def holdsPublic : Phase → Bool
  | openedPublic _ => true
  | _ => false

/-- The call has written the private key, and not yet the public key. -/
def hasWritten : Phase → Bool
  | wrotePrivate _ | openedPublic _ => true
  | _ => false

/-- The call has opened the private key file, and will write the public key. -/
def owesPublic : Phase → Bool
  | openedPrivate _ | wrotePrivate _ | openedPublic _ => true
  | _ => false

/-- The pair that was generated for the call, while it is under way. -/
def pair? : Phase → Option (String × String)
  | generated pair | inDirectory pair | privateThere pair | writing pair | openedPrivate pair
  | wrotePrivate pair | openedPublic pair => some pair
  | _ => none

end Phase

namespace State

def put (s : State) (i : ℕ) (t : FileTree) (p : Phase) : State :=
  { tree := t, phase := Function.update s.phase i p }

/-- Some call is there. -/
def has (s : State) (q : Phase → Bool) : Prop := ∃ i, q (s.phase i) = true

variable {s : State} {i : ℕ} {t : FileTree} {p : Phase} {q : Phase → Bool}

@[simp] theorem put_tree : (s.put i t p).tree = t := rfl

@[simp] theorem put_phase (j : ℕ) : (s.put i t p).phase j = if j = i then p else s.phase j :=
  Function.update_apply ..

theorem has_put (h : q p = true) : (s.put i t p).has q := ⟨i, by simpa using h⟩

theorem has_of_put (h : (s.put i t p).has q) (hp : q p = false) : s.has q := by
  obtain ⟨j, hj⟩ := h
  rw [put_phase] at hj
  split_ifs at hj
  · rw [hp] at hj
    cases hj
  · exact ⟨j, hj⟩

theorem has_put_of_has (h : s.has q) (hi : q (s.phase i) = false) : (s.put i t p).has q := by
  obtain ⟨j, hj⟩ := h
  have hne : j ≠ i := by
    rintro rfl
    rw [hi] at hj
    cases hj
  exact ⟨j, by simpa [hne] using hj⟩

end State

/-- One step of one call. -/
def step (s : State) (a : Action) : Option State :=
  if (s.phase a.thread).ended then none
  else
    match advance savePath keyType keyName a.generated (s.phase a.thread) s.tree with
    | .ok p t => some (s.put a.thread t p)
    | .error e t => some (s.put a.thread t (.raised e))

/-- A text is written to the beginning of an older one. -/
def overlay (text old : String) : String :=
  String.ofList (text.toList ++ old.toList.drop text.toList.length)

/-- What becomes of the text of a file. -/
inductive FileOp
  | opened
  | written (text : String)

def FileOp.apply (old : String) : FileOp → String
  | .opened => ""
  | .written text => overlay text old

inductive KeyOp
  | privateKey (op : FileOp)
  | publicKey (op : FileOp)

def KeyOp.apply (texts : String × String) : KeyOp → String × String
  | .privateKey op => (op.apply texts.1, texts.2)
  | .publicKey op => (texts.1, op.apply texts.2)

/-- What is done to the files with the step. -/
def fileOps (s : State) (a : Action) : List KeyOp :=
  match s.phase a.thread with
  | .writing _ => [.privateKey .opened]
  | .openedPrivate pair => [.privateKey (.written pair.1)]
  | .wrotePrivate _ => [.publicKey .opened]
  | .openedPublic pair => [.publicKey (.written pair.2)]
  | _ => []

theorem overlay_ne_empty {text : String} (h : text ≠ "") (old : String) :
    overlay text old ≠ "" := by
  intro hempty
  have hlist := congrArg String.toList hempty
  rw [overlay, String.toList_ofList, String.toList_empty, List.append_eq_nil_iff] at hlist
  exact h (String.toList_eq_nil_iff.mp hlist.1)

/-! ### One call alone -/

section Alone

variable {savePath keyType keyName} {s : State} {a : Action}

/-- What holds of the next step of the call holds of the state after. -/
theorem of_step {s' : State} {P : State → Prop} (h : step savePath keyType keyName s a = some s')
    (hp : (s.phase a.thread).ended = false →
      wp (advance savePath keyType keyName a.generated (s.phase a.thread))
        (fun p t => P (s.put a.thread t p)) (fun e t => P (s.put a.thread t (.raised e))) s.tree) :
    P s' := by
  rw [step] at h
  split_ifs at h with hended
  have hwp := hp (by simpa using hended)
  split at h
  · next hr =>
    cases h
    exact wp_of_ok hwp hr
  · next hr =>
    cases h
    exact wp_of_error hwp hr

/-- The steps of one thread, for which this is generated. -/
def alone (savePath : PosixPath) (keyType : KeyTypeSupport) (keyName : Option String) (i : ℕ)
    (generated : Except PyExc (String × String)) : Frame State :=
  reaching (step savePath keyType keyName) (· = ⟨i, generated⟩)

theorem follows_advance {i : ℕ} {generated : Except PyExc (String × String)} {t : FileTree}
    {p : Phase} (hs : s.tree = t) (hp : s.phase i = p) (hended : p.ended = false) :
    Follows (alone savePath keyType keyName i generated)
      (advance savePath keyType keyName generated p)
      (fun p' t' s' => s' = s.put i t' p') (fun e t' s' => s' = s.put i t' (.raised e)) t s := by
  subst hs hp
  refine wp_iff.mpr ⟨fun p' t' hr => ⟨_, reaching_step rfl ?_, rfl⟩,
    fun e t' hr => ⟨_, reaching_step rfl ?_, rfl⟩⟩
  all_goals simp only [step, hended, Bool.false_eq_true, if_false, hr]

variable (savePath keyType keyName) in
/-- One step after another; the call is left with what it has returned or raised. -/
def turn (generated : Except PyExc (String × String)) :
    Phase → OnDisk (Phase ⊕ (String × String))
  | .returned pair => return .inr pair
  | .raised e => throw e
  | p => Sum.inl <$> advance savePath keyType keyName generated p

@[simp] theorem wp_overwriteText {Q : Unit → FileTree → Prop} {E : PyExc → FileTree → Prop}
    {t : FileTree} (path : PosixPath) (text : String) :
    wp (overwriteText path text) Q E t ↔
      (∀ t', t.overwrite path (Utf8.encode text) = .ok t' → Q () t') ∧
        ∀ e, t.overwrite path (Utf8.encode text) = .error e → E (osError path e) t := by
  simp only [overwriteText, wp_bind, wp_get]
  cases t.overwrite path (Utf8.encode text) <;> simp

/-- The opening and the writing of a file, one right after the other. -/
theorem wp_reopened {Q : Unit → FileTree → Prop} {E : PyExc → FileTree → Prop} {t : FileTree}
    (path : PosixPath) (text : String) :
    wp (writeText path "") (fun _ t' => wp (overwriteText path text) Q E t') E t ↔
      wp (writeText path text) Q E t := by
  simp only [wp_writeText, wp_overwriteText]
  by_cases hpath : t.Writable path
  · obtain ⟨t₁, h₁⟩ := (FileTree.write_ok_iff (Utf8.encode "")).mpr hpath
    obtain ⟨t₂, h₂⟩ := (FileTree.write_ok_iff (Utf8.encode text)).mpr hpath
    simp [h₁, h₂, FileTree.overwrite_opened h₁]
  · simp [FileTree.write, hpath]

/-- The steps one after another are the call. -/
theorem wp_confirmSshKeyPair {Q : String × String → FileTree → Prop} {E : PyExc → FileTree → Prop}
    {t : FileTree} (generate : Generator) (keyLen : Option ℤ) :
    wp (confirmSshKeyPair savePath keyType keyName generate keyLen) Q E t ↔
      wp (passes (turn savePath keyType keyName (generateSshKeyPair generate keyType keyLen)) 11
        .outside) (fun r => r.elim (fun _ _ => False) Q) E t := by
  simp only [confirmSshKeyPair, writeKeyToFile, passes, turn, advance, wp_bind, wp_map, wp_ite,
    wp_pure, wp_get, wp_liftExcept, wp_tryLoadKeyFromFile, wp_mkdir, wp_reopened, ite_and,
    Sum.elim_inr, Bool.false_eq_true, and_false, if_false]

theorem turn_of_not_ended {generated : Except PyExc (String × String)} {p : Phase}
    (h : p.ended = false) : turn savePath keyType keyName generated p =
      Sum.inl <$> advance savePath keyType keyName generated p := by
  cases p with
  | returned | raised => cases h
  | _ => rfl

theorem follows_passes {i : ℕ} {generated : Except PyExc (String × String)} (n : ℕ)
    {t : FileTree} {p : Phase} (hs : s.tree = t) (hp : s.phase i = p) :
    Follows (alone savePath keyType keyName i generated)
      (passes (turn savePath keyType keyName generated) n p)
      (fun r t' s' => s'.tree = t' ∧ s'.phase i = r.elim id .returned)
      (fun e t' s' => s'.tree = t' ∧ s'.phase i = .raised e) t s := by
  induction n generalizing s t p with
  | zero => exact .pure ⟨hs, hp⟩
  | succ n ih =>
    refine Follows.bind ?_
    by_cases hended : p.ended = true
    · cases p with
      | returned pair => exact .pure (.pure ⟨hs, hp⟩)
      | raised e => exact .throw ⟨hs, hp⟩
      | _ => cases hended
    · rw [Bool.not_eq_true] at hended
      rw [turn_of_not_ended hended, Follows, wp_map]
      apply wp_mono (follows_advance hs hp hended)
      · rintro p' t' ⟨s', hs', rfl⟩
        exact ⟨_, hs', ih rfl (by simp)⟩
      · rintro e t' ⟨s', hs', rfl⟩
        exact ⟨_, hs', rfl, by simp⟩

theorem passes_left {t : FileTree} (generate : Generator) (keyLen : Option ℤ) :
    wp (passes (turn savePath keyType keyName (generateSshKeyPair generate keyType keyLen)) 11
      .outside) (fun r _ => r.isRight = true) (fun _ _ => True) t := by
  have hends : wp (confirmSshKeyPair savePath keyType keyName generate keyLen) (fun _ _ => True)
      (fun _ _ => True) t := wp_iff.mpr ⟨fun _ _ _ => trivial, fun _ _ _ => trivial⟩
  refine wp_mono ((wp_confirmSshKeyPair generate keyLen).mp hends) ?_ fun _ _ h => h
  rintro (p | pair) t' hr
  · exact hr.elim
  · rfl

/-- A call is what the steps of its thread do, if the other threads take none. -/
theorem follows_confirmSshKeyPair {i : ℕ} {t : FileTree} (hs : s.tree = t)
    (hi : s.phase i = .outside) (generate : Generator) (keyLen : Option ℤ) :
    Follows (alone savePath keyType keyName i (generateSshKeyPair generate keyType keyLen))
      (confirmSshKeyPair savePath keyType keyName generate keyLen)
      (fun pair t' s' => s'.tree = t' ∧ s'.phase i = .returned pair)
      (fun e t' s' => s'.tree = t' ∧ s'.phase i = .raised e) t s := by
  rw [Follows, wp_confirmSshKeyPair]
  apply wp_mono (wp_and (passes_left generate keyLen) (follows_passes 11 hs hi))
  · rintro (p | pair) t' ⟨hr, h⟩
    · cases hr
    · exact h
  · exact fun _ _ h => h.2

end Alone

/-! ### Many calls -/

section Many

variable {savePath keyType keyName} {t t' : FileTree} {s s' : State} {a : Action}

variable (savePath keyType keyName) in
/-- The directory is there, and what is at the places of the two files, if anything, is a
file. -/
structure Room (t : FileTree) : Prop where
  directory : t.node savePath = some .dir
  privateKey : t.Writable (privateKeyFile savePath keyType keyName)
  publicKey : t.Writable (publicKeyFile savePath keyType keyName)

/-- ASCII, in which no newline is changed: each character is a byte. -/
def PlainText (text : String) : Prop := ∀ c ∈ text.toList, c.toNat < 128 ∧ c ≠ '\r'

theorem plainText_empty : PlainText "" := by simp [PlainText]

/-- What is assumed of a generated pair: two plain texts that are not empty. -/
structure PlainPair (pair : String × String) : Prop where
  private_ne : pair.1 ≠ ""
  public_ne : pair.2 ≠ ""
  private_plain : PlainText pair.1
  public_plain : PlainText pair.2

/-- The file has this text, byte by byte. -/
structure Held (t : FileTree) (path : PosixPath) (text : String) : Prop where
  node : t.node path = some (.file (Utf8.encode text))
  plain : PlainText text

theorem Room.write {path : PosixPath} {bytes : List UInt8} (h : Room savePath keyType keyName t)
    (hw : t.write path bytes = .ok t') : Room savePath keyType keyName t' :=
  ⟨FileTree.dir_write hw h.directory, h.privateKey.write hw, h.publicKey.write hw⟩

theorem PlainText.overlay {text old : String} (h : PlainText text) (hold : PlainText old) :
    PlainText (overlay text old) := by
  intro c hc
  rw [SharedKeys.overlay, String.toList_ofList, List.mem_append] at hc
  exact hc.elim (h c) fun hdrop => hold c (List.mem_of_mem_drop hdrop)

/-- What is laid over byte by byte is laid over character by character. -/
theorem encode_overlay {text old : String} (h : PlainText text) (hold : PlainText old) :
    Utf8.encode (overlay text old) =
      Utf8.encode text ++ (Utf8.encode old).drop (Utf8.encode text).length := by
  have hchars : ∀ {s : String}, PlainText s →
      Utf8.encode s = s.toList.map fun c => UInt8.ofNat c.toNat :=
    fun hs => Utf8.encode_ascii fun c hc => (hs c hc).1
  rw [hchars (h.overlay hold), hchars h, hchars hold, overlay, String.toList_ofList,
    List.map_append, List.length_map, List.map_drop]

theorem held_write {path : PosixPath} {text : String} (h : PlainText text)
    (hw : t.write path (Utf8.encode text) = .ok t') : Held t' path text :=
  ⟨by rw [FileTree.node_write hw, if_pos rfl], h⟩

theorem Held.write_of_ne {path q : PosixPath} {text : String} {bytes : List UInt8}
    (h : Held t q text) (hne : q ≠ path) (hw : t.write path bytes = .ok t') : Held t' q text :=
  ⟨by rw [FileTree.node_write hw, if_neg hne, h.node], h.plain⟩

theorem Held.textAt {path : PosixPath} {text : String} (h : Held t path text) :
    textAt t path = .ok text :=
  textAt_of_readText (readText_of_node (fun hc => (h.plain _ hc).2 rfl) h.node)

variable (savePath keyType keyName) in
/-- What a call has seen to be there. -/
def Phase.Knows (t : FileTree) : Phase → Prop
  | loading priKey => priKey ≠ "" → t.pathExists (privateKeyFile savePath keyType keyName) = true
  | loaded priKey pubKey =>
    (priKey ≠ "" → t.pathExists (privateKeyFile savePath keyType keyName) = true) ∧
      (pubKey ≠ "" → t.pathExists (publicKeyFile savePath keyType keyName) = true)
  | privateThere _ | openedPrivate _ | wrotePrivate _ =>
    t.pathExists (privateKeyFile savePath keyType keyName) = true
  | openedPublic _ | returned _ =>
    t.pathExists (privateKeyFile savePath keyType keyName) = true ∧
      t.pathExists (publicKeyFile savePath keyType keyName) = true
  | _ => True

theorem Phase.Knows.mono {p : Phase} (h : p.Knows savePath keyType keyName t)
    (hexists : ∀ q, t.pathExists q = true → t'.pathExists q = true) :
    p.Knows savePath keyType keyName t' := by
  cases p with
  | loading priKey => exact fun hne => hexists _ (h hne)
  | loaded priKey pubKey => exact ⟨fun hne => hexists _ (h.1 hne), fun hne => hexists _ (h.2 hne)⟩
  | privateThere | openedPrivate | wrotePrivate => exact hexists _ h
  | openedPublic | returned => exact ⟨hexists _ h.1, hexists _ h.2⟩
  | _ => trivial

variable (savePath keyType keyName) in
/-- The files have these texts. Each is plain while it is open, and where both files are
there, neither stays empty for good. -/
structure Tied (s : State) (texts : String × String) : Prop where
  room : Room savePath keyType keyName s.tree
  privateText : textAt s.tree (privateKeyFile savePath keyType keyName) = .ok texts.1
  publicText : textAt s.tree (publicKeyFile savePath keyType keyName) = .ok texts.2
  privateHeld : s.has Phase.holdsPrivate →
    Held s.tree (privateKeyFile savePath keyType keyName) texts.1
  publicHeld : s.has Phase.holdsPublic →
    Held s.tree (publicKeyFile savePath keyType keyName) texts.2
  written : s.has Phase.hasWritten → texts.1 ≠ "" ∨ s.has Phase.holdsPrivate
  filled : s.tree.pathExists (privateKeyFile savePath keyType keyName) = true →
    s.tree.pathExists (publicKeyFile savePath keyType keyName) = true →
    (texts.1 ≠ "" ∨ s.has Phase.holdsPrivate) ∧ (texts.2 ≠ "" ∨ s.has Phase.owesPublic)
  knows : ∀ i, (s.phase i).Knows savePath keyType keyName s.tree
  plain : ∀ i, ∀ pair ∈ (s.phase i).pair?, PlainPair pair

variable {texts : String × String}

theorem exists_of_textAt {path : PosixPath} {text : String} (h : textAt t path = .ok text)
    (hne : text ≠ "") : t.pathExists path = true := by
  unfold textAt at h
  split_ifs at h with hpath
  · exact hpath
  · exact absurd (Except.ok.inj h).symm hne

theorem textAt_congr {path : PosixPath} (h : t'.node path = t.node path) :
    textAt t' path = textAt t path := by
  rw [textAt, textAt, FileTree.pathExists, FileTree.pathExists, h, readText_congr h]

theorem textAt_write_of_ne {path q : PosixPath} {bytes : List UInt8} (hne : q ≠ path)
    (h : t.write path bytes = .ok t') : textAt t' q = textAt t q :=
  textAt_congr (by rw [FileTree.node_write h, if_neg hne])

theorem exists_of_write {path : PosixPath} {bytes : List UInt8} (h : t.write path bytes = .ok t') :
    t'.pathExists path = true := by
  rw [FileTree.pathExists, FileTree.node_write h, if_pos rfl]
  rfl

theorem wp_writeText_of_writable {Q : Unit → FileTree → Prop} {E : PyExc → FileTree → Prop}
    {path : PosixPath} {text : String} (h : t.Writable path)
    (hQ : ∀ t', t.write path (Utf8.encode text) = .ok t' → Q () t') :
    wp (writeText path text) Q E t := by
  rw [wp_writeText]
  refine ⟨hQ, fun e he => ?_⟩
  obtain ⟨t', hw⟩ := (FileTree.write_ok_iff (Utf8.encode text)).mpr h
  cases hw.symm.trans he

/-- The writing of a file that is held, as the writing of what it then has. -/
theorem wp_overwriteText_of_held {Q : Unit → FileTree → Prop} {E : PyExc → FileTree → Prop}
    {path : PosixPath} {text old : String} (hold : Held t path old) (htext : PlainText text)
    (h : t.Writable path)
    (hQ : ∀ t', t.write path (Utf8.encode (overlay text old)) = .ok t' → Q () t') :
    wp (overwriteText path text) Q E t := by
  have hsame : t.overwrite path (Utf8.encode text) =
      t.write path (Utf8.encode (overlay text old)) := by
    rw [FileTree.overwrite_of_node hold.node, encode_overlay htext hold.plain]
  rw [wp_overwriteText, hsame, ← wp_writeText]
  exact wp_writeText_of_writable h hQ

theorem Phase.plain_of_none {p : Phase} (h : p.pair? = none) :
    ∀ pair ∈ p.pair?, PlainPair pair := by
  simp [h]

/-- Between the opening of the private key file and the writing of the public key. -/
theorem Phase.of_not_owes {p : Phase} (h : p.owesPublic = false) :
    p.holdsPrivate = false ∧ p.holdsPublic = false ∧ p.hasWritten = false := by
  cases p with
  | openedPrivate | wrotePrivate | openedPublic => cases h
  | _ => exact ⟨rfl, rfl, rfl⟩

theorem Phase.owes_of_ended {p : Phase} (h : p.ended = true) : p.owesPublic = false := by
  cases p with
  | openedPrivate | wrotePrivate | openedPublic => cases h
  | _ => rfl

section Steps

variable {i : ℕ} {p : Phase} {pair : String × String} {bytes : List UInt8} {path : PosixPath}

theorem Tied.knows_put (h : Tied savePath keyType keyName s texts)
    (hexists : ∀ q, s.tree.pathExists q = true → t'.pathExists q = true)
    (hp : p.Knows savePath keyType keyName t') (j : ℕ) :
    ((s.put i t' p).phase j).Knows savePath keyType keyName t' := by
  rw [State.put_phase]
  split_ifs
  · exact hp
  · exact (h.knows j).mono hexists

theorem Tied.plain_put (h : Tied savePath keyType keyName s texts)
    (hp : ∀ pair ∈ p.pair?, PlainPair pair) (j : ℕ) :
    ∀ pair ∈ ((s.put i t' p).phase j).pair?, PlainPair pair := by
  rw [State.put_phase]
  split_ifs
  · exact hp
  · exact h.plain j

theorem Tied.plain_of (h : Tied savePath keyType keyName s texts)
    (hi : (s.phase i).pair? = some pair) : PlainPair pair := h.plain i pair hi

/-- A step that touches no file. -/
theorem Tied.move (h : Tied savePath keyType keyName s texts)
    (hi : (s.phase i).owesPublic = false) (hp : p.owesPublic = false)
    (hknows : p.Knows savePath keyType keyName s.tree) (hplain : ∀ pair ∈ p.pair?, PlainPair pair) :
    Tied savePath keyType keyName (s.put i s.tree p) texts := by
  obtain ⟨hiPrivate, -, -⟩ := Phase.of_not_owes hi
  obtain ⟨hpPrivate, hpPublic, hpWritten⟩ := Phase.of_not_owes hp
  constructor
  · exact h.room
  · exact h.privateText
  · exact h.publicText
  · exact fun hhas => h.privateHeld (State.has_of_put hhas hpPrivate)
  · exact fun hhas => h.publicHeld (State.has_of_put hhas hpPublic)
  · exact fun hhas => (h.written (State.has_of_put hhas hpWritten)).imp_right
      fun hopen => State.has_put_of_has hopen hiPrivate
  · exact fun hpri hpub => (h.filled hpri hpub).imp
      (fun hfirst => hfirst.imp_right fun hopen => State.has_put_of_has hopen hiPrivate)
      fun hsecond => hsecond.imp_right fun howes => State.has_put_of_has howes hi
  · exact h.knows_put (fun _ hq => hq) hknows
  · exact h.plain_put hplain

theorem Tied.openPrivate (h : Tied savePath keyType keyName s texts)
    (hi : s.phase i = .writing pair)
    (hw : s.tree.write (privateKeyFile savePath keyType keyName) (Utf8.encode "") = .ok t') :
    Tied savePath keyType keyName (s.put i t' (.openedPrivate pair)) ("", texts.2) := by
  have hfiles := privateKeyFile_ne_publicKeyFile savePath keyType keyName
  have hheld : Held t' (privateKeyFile savePath keyType keyName) "" := held_write plainText_empty hw
  constructor
  · exact h.room.write hw
  · exact hheld.textAt
  · rw [State.put_tree, textAt_write_of_ne hfiles.symm hw]
    exact h.publicText
  · exact fun _ => hheld
  · exact fun hhas => (h.publicHeld (State.has_of_put hhas rfl)).write_of_ne hfiles.symm hw
  · exact fun _ => .inr (State.has_put rfl)
  · exact fun _ _ => ⟨.inr (State.has_put rfl), .inr (State.has_put rfl)⟩
  · exact h.knows_put (fun _ => FileTree.exists_write hw) (exists_of_write hw)
  · exact h.plain_put fun pair' hpair' => by
      cases hpair'
      exact h.plain_of (i := i) (by rw [hi]; rfl)

theorem Tied.writePrivate (h : Tied savePath keyType keyName s texts)
    (hi : s.phase i = .openedPrivate pair)
    (hw : s.tree.write (privateKeyFile savePath keyType keyName)
      (Utf8.encode (overlay pair.1 texts.1)) = .ok t') :
    Tied savePath keyType keyName (s.put i t' (.wrotePrivate pair))
      (overlay pair.1 texts.1, texts.2) := by
  have hfiles := privateKeyFile_ne_publicKeyFile savePath keyType keyName
  have hplain : PlainPair pair := h.plain_of (i := i) (by rw [hi]; rfl)
  have hbefore := h.privateHeld ⟨i, by rw [hi]; rfl⟩
  have hheld : Held t' (privateKeyFile savePath keyType keyName) (overlay pair.1 texts.1) :=
    held_write (hplain.private_plain.overlay hbefore.plain) hw
  have hne := overlay_ne_empty hplain.private_ne texts.1
  constructor
  · exact h.room.write hw
  · exact hheld.textAt
  · rw [State.put_tree, textAt_write_of_ne hfiles.symm hw]
    exact h.publicText
  · exact fun _ => hheld
  · exact fun hhas => (h.publicHeld (State.has_of_put hhas rfl)).write_of_ne hfiles.symm hw
  · exact fun _ => .inl hne
  · exact fun _ _ => ⟨.inl hne, .inr (State.has_put rfl)⟩
  · exact h.knows_put (fun _ => FileTree.exists_write hw) (exists_of_write hw)
  · exact h.plain_put fun pair' hpair' => by
      cases hpair'
      exact hplain

theorem Tied.openPublic (h : Tied savePath keyType keyName s texts)
    (hi : s.phase i = .wrotePrivate pair)
    (hw : s.tree.write (publicKeyFile savePath keyType keyName) (Utf8.encode "") = .ok t') :
    Tied savePath keyType keyName (s.put i t' (.openedPublic pair)) (texts.1, "") := by
  have hfiles := privateKeyFile_ne_publicKeyFile savePath keyType keyName
  have hheld : Held t' (publicKeyFile savePath keyType keyName) "" := held_write plainText_empty hw
  have hthere : s.tree.pathExists (privateKeyFile savePath keyType keyName) = true := by
    have hknows := h.knows i
    rwa [hi] at hknows
  have hwritten : texts.1 ≠ "" ∨ (s.put i t' (.openedPublic pair)).has Phase.holdsPrivate :=
    (h.written ⟨i, by rw [hi]; rfl⟩).imp_right
      fun hopen => State.has_put_of_has hopen (by rw [hi]; rfl)
  constructor
  · exact h.room.write hw
  · rw [State.put_tree, textAt_write_of_ne hfiles hw]
    exact h.privateText
  · exact hheld.textAt
  · exact fun hhas => (h.privateHeld (State.has_of_put hhas rfl)).write_of_ne hfiles hw
  · exact fun _ => hheld
  · exact fun _ => hwritten
  · exact fun _ _ => ⟨hwritten, .inr (State.has_put rfl)⟩
  · exact h.knows_put (fun _ => FileTree.exists_write hw)
      ⟨FileTree.exists_write hw hthere, exists_of_write hw⟩
  · exact h.plain_put fun pair' hpair' => by
      cases hpair'
      exact h.plain_of (i := i) (by rw [hi]; rfl)

theorem Tied.writePublic (h : Tied savePath keyType keyName s texts)
    (hi : s.phase i = .openedPublic pair)
    (hw : s.tree.write (publicKeyFile savePath keyType keyName)
      (Utf8.encode (overlay pair.2 texts.2)) = .ok t') :
    Tied savePath keyType keyName (s.put i t' (.returned pair))
      (texts.1, overlay pair.2 texts.2) := by
  have hfiles := privateKeyFile_ne_publicKeyFile savePath keyType keyName
  have hplain : PlainPair pair := h.plain_of (i := i) (by rw [hi]; rfl)
  have hbefore := h.publicHeld ⟨i, by rw [hi]; rfl⟩
  have hheld : Held t' (publicKeyFile savePath keyType keyName) (overlay pair.2 texts.2) :=
    held_write (hplain.public_plain.overlay hbefore.plain) hw
  have hthere : s.tree.pathExists (privateKeyFile savePath keyType keyName) = true := by
    have hknows := h.knows i
    rw [hi] at hknows
    exact hknows.1
  have hwritten : texts.1 ≠ "" ∨ (s.put i t' (.returned pair)).has Phase.holdsPrivate :=
    (h.written ⟨i, by rw [hi]; rfl⟩).imp_right
      fun hopen => State.has_put_of_has hopen (by rw [hi]; rfl)
  constructor
  · exact h.room.write hw
  · rw [State.put_tree, textAt_write_of_ne hfiles hw]
    exact h.privateText
  · exact hheld.textAt
  · exact fun hhas => (h.privateHeld (State.has_of_put hhas rfl)).write_of_ne hfiles hw
  · exact fun _ => hheld
  · exact fun _ => hwritten
  · exact fun _ _ => ⟨hwritten, .inl (overlay_ne_empty hplain.public_ne texts.2)⟩
  · exact h.knows_put (fun _ => FileTree.exists_write hw)
      ⟨FileTree.exists_write hw hthere, exists_of_write hw⟩
  · exact h.plain_put (Phase.plain_of_none rfl)

end Steps

/-- Every step keeps the files tied to what is done to them with it. -/
theorem tied_step (hplain : ∀ pair, a.generated = .ok pair → PlainPair pair)
    (h : Tied savePath keyType keyName s texts)
    (hstep : step savePath keyType keyName s a = some s') :
    Tied savePath keyType keyName s' ((fileOps s a).foldl KeyOp.apply texts) := by
  refine of_step (P := fun s' => Tied savePath keyType keyName s'
    ((fileOps s a).foldl KeyOp.apply texts)) hstep fun hended => ?_
  have hknows := h.knows a.thread
  have hpair := h.plain a.thread
  have hmove : ∀ p : Phase, (s.phase a.thread).owesPublic = false → p.owesPublic = false →
      p.Knows savePath keyType keyName s.tree → (∀ pair ∈ p.pair?, PlainPair pair) →
      Tied savePath keyType keyName (s.put a.thread s.tree p) texts := fun p => h.move
  cases hi : s.phase a.thread with
  | outside =>
    rw [hi] at hmove
    simp only [advance, wp_bind, wp_get, wp_liftExcept, wp_pure, fileOps, hi]
    exact ⟨fun priKey hpri => hmove _ rfl rfl (exists_of_textAt hpri) (Phase.plain_of_none rfl),
      fun e _ => hmove _ rfl rfl trivial (Phase.plain_of_none rfl)⟩
  | loading priKey =>
    rw [hi] at hmove hknows
    simp only [advance, wp_bind, wp_get, wp_liftExcept, wp_pure, fileOps, hi]
    exact ⟨fun pubKey hpub => hmove _ rfl rfl ⟨hknows, exists_of_textAt hpub⟩
      (Phase.plain_of_none rfl), fun e _ => hmove _ rfl rfl trivial (Phase.plain_of_none rfl)⟩
  | loaded priKey pubKey =>
    rw [hi] at hmove hknows
    simp only [advance, wp_bind, wp_ite, wp_liftExcept, wp_pure, fileOps, hi]
    split_ifs with hboth
    · exact hmove _ rfl rfl ⟨hknows.1 hboth.1, hknows.2 hboth.2⟩ (Phase.plain_of_none rfl)
    · refine ⟨fun pair hgenerated => hmove _ rfl rfl trivial fun pair' hpair' => ?_,
        fun e _ => hmove _ rfl rfl trivial (Phase.plain_of_none rfl)⟩
      cases hpair'
      exact hplain pair hgenerated
  | generated pair =>
    rw [hi] at hmove hpair
    simp only [advance, wp_bind, wp_mkdir, FileTree.makeDirs_of_dir h.room.directory, wp_pure,
      fileOps, hi]
    refine ⟨fun t' ht' => ?_, fun e he => ?_⟩
    · cases ht'
      exact hmove _ rfl rfl trivial hpair
    · cases he
  | inDirectory pair =>
    rw [hi] at hmove hpair
    simp only [advance, wp_bind, wp_get, wp_ite, wp_pure, fileOps, hi]
    split_ifs with hthere
    · exact hmove _ rfl rfl hthere hpair
    · exact hmove _ rfl rfl trivial hpair
  | privateThere pair =>
    rw [hi] at hmove hpair hknows
    simp only [advance, wp_bind, wp_get, wp_ite, wp_pure, fileOps, hi]
    split_ifs with hthere
    · exact hmove _ rfl rfl ⟨hknows, hthere⟩ (Phase.plain_of_none rfl)
    · exact hmove _ rfl rfl trivial hpair
  | writing pair =>
    simp only [advance, wp_bind, wp_pure, fileOps, hi]
    exact wp_writeText_of_writable h.room.privateKey fun t' hw => h.openPrivate hi hw
  | openedPrivate pair =>
    simp only [advance, wp_bind, wp_pure, fileOps, hi]
    have hheld := h.privateHeld ⟨a.thread, by rw [hi]; rfl⟩
    have hpri := (h.plain_of (i := a.thread) (by rw [hi]; rfl) : PlainPair pair).private_plain
    exact wp_overwriteText_of_held hheld hpri h.room.privateKey fun t' hw => h.writePrivate hi hw
  | wrotePrivate pair =>
    simp only [advance, wp_bind, wp_pure, fileOps, hi]
    exact wp_writeText_of_writable h.room.publicKey fun t' hw => h.openPublic hi hw
  | openedPublic pair =>
    simp only [advance, wp_bind, wp_pure, fileOps, hi]
    have hheld := h.publicHeld ⟨a.thread, by rw [hi]; rfl⟩
    have hpub := (h.plain_of (i := a.thread) (by rw [hi]; rfl) : PlainPair pair).public_plain
    exact wp_overwriteText_of_held hheld hpub h.room.publicKey fun t' hw => h.writePublic hi hw
  | returned | raised =>
    rw [hi] at hended
    cases hended

/-- Nobody has a file open, and where the files are not overlooked neither is empty. -/
theorem tied_start (hroom : Room savePath keyType keyName t)
    (hpri : textAt t (privateKeyFile savePath keyType keyName) = .ok texts.1)
    (hpub : textAt t (publicKeyFile savePath keyType keyName) = .ok texts.2)
    (hover : ¬ Overlooked savePath keyType keyName t) :
    Tied savePath keyType keyName { tree := t } texts := by
  have hnobody : ∀ {q : Phase → Bool}, q .outside = false →
      ¬ State.has { tree := t } q := by
    rintro q hq ⟨i, hi⟩
    cases hq.symm.trans hi
  constructor
  · exact hroom
  · exact hpri
  · exact hpub
  · exact fun hhas => absurd hhas (hnobody rfl)
  · exact fun hhas => absurd hhas (hnobody rfl)
  · exact fun hhas => absurd hhas (hnobody rfl)
  · intro hprivate hpublic
    have hnone : ¬ (texts.1 = "" ∨ texts.2 = "") := by
      intro hempty
      refine hover ⟨⟨_, hpri⟩, ⟨_, hpub⟩, ?_, FileTree.makeDirs_ok_iff.mp
        ⟨t, FileTree.makeDirs_of_dir hroom.directory⟩, .inl hprivate, .inl hpublic⟩
      rw [hpri, hpub]
      exact hempty.imp (congrArg _) (congrArg _)
    rw [not_or] at hnone
    exact ⟨.inl hnone.1, .inl hnone.2⟩
  · exact fun _ => trivial
  · exact fun _ => Phase.plain_of_none rfl

/-- Once all calls are over, the files have what was made of them, and neither is empty. -/
theorem Tied.settled (h : Tied savePath keyType keyName s texts)
    (hrest : ∀ i, (s.phase i).owesPublic = false) {i : ℕ} {pair : String × String}
    (hreturned : s.phase i = .returned pair) :
    (readText s.tree (privateKeyFile savePath keyType keyName) = .ok texts.1 ∧ texts.1 ≠ "") ∧
      readText s.tree (publicKeyFile savePath keyType keyName) = .ok texts.2 ∧ texts.2 ≠ "" := by
  have hnobody : ∀ {q : Phase → Bool}, (∀ p, p.owesPublic = false → q p = false) →
      ¬ s.has q := by
    rintro q hq ⟨j, hj⟩
    rw [hq _ (hrest j)] at hj
    cases hj
  have hthere := h.knows i
  rw [hreturned] at hthere
  obtain ⟨hfirst, hsecond⟩ := h.filled hthere.1 hthere.2
  have hpri := hfirst.resolve_right (hnobody fun p hp => (Phase.of_not_owes hp).1)
  have hpub := hsecond.resolve_right (hnobody fun _ hp => hp)
  exact ⟨⟨readText_of_textAt h.privateText hpri, hpri⟩, readText_of_textAt h.publicText hpub, hpub⟩

/-- All that a call sees of a pair that is there. -/
def Phase.Reads (pair : String × String) : Phase → Prop
  | outside => True
  | loading priKey => priKey = pair.1
  | loaded priKey pubKey => priKey = pair.1 ∧ pubKey = pair.2
  | returned pair' => pair' = pair
  | _ => False

/-- The files are as they were, and the calls since then only read the pair. -/
structure Unchanged (s₀ : State) (pair : String × String) (s : State) : Prop where
  tree : s.tree = s₀.tree
  phase : ∀ i, (s₀.phase i).ended = true ∧ s.phase i = s₀.phase i ∨
    s₀.phase i = .outside ∧ (s.phase i).Reads pair

theorem unchanged_step {s₀ : State} {pair : String × String}
    (hpri : textAt s₀.tree (privateKeyFile savePath keyType keyName) = .ok pair.1)
    (hpub : textAt s₀.tree (publicKeyFile savePath keyType keyName) = .ok pair.2)
    (hne : pair.1 ≠ "" ∧ pair.2 ≠ "") (h : Unchanged s₀ pair s)
    (hstep : step savePath keyType keyName s a = some s') : Unchanged s₀ pair s' := by
  refine of_step (P := Unchanged s₀ pair) hstep fun hended => ?_
  have houtside : s₀.phase a.thread = .outside ∧ (s.phase a.thread).Reads pair := by
    refine (h.phase a.thread).resolve_left fun hover => ?_
    rw [hover.2, hover.1] at hended
    cases hended
  have hput : ∀ p : Phase, p.Reads pair → Unchanged s₀ pair (s.put a.thread s.tree p) := by
    refine fun p hp => ⟨h.tree, fun j => ?_⟩
    rw [State.put_phase]
    split_ifs with hj
    · exact .inr ⟨hj ▸ houtside.1, hp⟩
    · exact h.phase j
  have hreads := houtside.2
  rw [← h.tree] at hpri hpub
  cases hi : s.phase a.thread with
  | outside =>
    simp only [advance, wp_bind, wp_get, wp_liftExcept, wp_pure, hpri]
    refine ⟨fun priKey hpriKey => hput _ ?_, fun e he => ?_⟩
    · cases hpriKey
      rfl
    · cases he
  | loading priKey =>
    rw [hi] at hreads
    simp only [advance, wp_bind, wp_get, wp_liftExcept, wp_pure, hpub]
    refine ⟨fun pubKey hpubKey => hput _ ⟨hreads, ?_⟩, fun e he => ?_⟩
    · cases hpubKey
      rfl
    · cases he
  | loaded priKey pubKey =>
    rw [hi] at hreads
    obtain ⟨rfl, rfl⟩ := hreads
    simp only [advance, wp_pure, if_pos hne]
    exact hput _ rfl
  | returned | raised =>
    rw [hi] at hended
    cases hended
  | _ =>
    rw [hi] at hreads
    exact hreads.elim

/-- Any number of calls at once. When all of them are over and one has returned, each file
holds what its openings and writings have made of it, which need not be a key of one call;
from then on nothing is written, and every call returns that. -/
theorem confirmed_at_once (hroom : Room savePath keyType keyName t)
    (hpri : textAt t (privateKeyFile savePath keyType keyName) = .ok texts.1)
    (hpub : textAt t (publicKeyFile savePath keyType keyName) = .ok texts.2)
    (hover : ¬ Overlooked savePath keyType keyName t) {as : List Action}
    (hplain : ∀ a ∈ as, ∀ pair, a.generated = .ok pair → PlainPair pair)
    (hr : run (step savePath keyType keyName) { tree := t } as = some s)
    (hrest : ∀ i, s.phase i = .outside ∨ (s.phase i).ended = true)
    (hreturned : ∃ i pair, s.phase i = .returned pair) :
    let pair := (seen (step savePath keyType keyName) fileOps { tree := t } as).foldl
      KeyOp.apply texts
    Kept savePath keyType keyName pair s.tree ∧
      ∀ bs s', run (step savePath keyType keyName) s bs = some s' → s'.tree = s.tree ∧
        ∀ i pair', s.phase i = .outside → s'.phase i = .returned pair' → pair' = pair := by
  intro pair
  have htied : Tied savePath keyType keyName s pair :=
    seen_invariant (C := fun a => ∀ pair, a.generated = .ok pair → PlainPair pair)
      (R := Tied savePath keyType keyName) (fun hC hR => tied_step hC hR) hplain
      (tied_start hroom hpri hpub hover) hr
  obtain ⟨i, returned, hi⟩ := hreturned
  have howes : ∀ j, (s.phase j).owesPublic = false := by
    intro j
    rcases hrest j with houtside | hended
    · rw [houtside]
      rfl
    · exact Phase.owes_of_ended hended
  obtain ⟨⟨hprivate, hpriKey⟩, hpublic, hpubKey⟩ := htied.settled howes hi
  refine ⟨kept_of_readText hprivate hpublic hpriKey hpubKey, fun bs s' hbs => ?_⟩
  have hstart : Unchanged s pair s := by
    refine ⟨rfl, fun j => ?_⟩
    rcases hrest j with houtside | hended
    · exact .inr ⟨houtside, by rw [houtside]; trivial⟩
    · exact .inl ⟨hended, rfl⟩
  have hunchanged : Unchanged s pair s' := run_invariant'
    (fun h hstep => unchanged_step (textAt_of_readText hprivate) (textAt_of_readText hpublic)
      ⟨hpriKey, hpubKey⟩ h hstep) hstart hbs
  refine ⟨hunchanged.tree, fun j pair' houtside hj => ?_⟩
  rcases hunchanged.phase j with hended | hreads
  · rw [houtside] at hended
    cases hended.1
  · have hpair := hreads.2
    rwa [hj] at hpair

theorem phase_of_forall_ne {as : List Action} {i : ℕ} (hne : ∀ a ∈ as, a.thread ≠ i)
    (hr : run (step savePath keyType keyName) s as = some s') : s'.phase i = s.phase i := by
  refine run_invariant (C := fun _ a => a.thread ≠ i) (P := fun s' => s'.phase i = s.phase i) ?_
    (along_of_forall (fun a ha _ => hne a ha) s) rfl hr
  intro s₁ a s₂ hi h₁ hstep
  refine of_step (P := fun s' => s'.phase i = s.phase i) hstep fun _ => wp_iff.mpr ⟨?_, ?_⟩
  all_goals
    intros
    rw [State.put_phase, if_neg (Ne.symm hi), h₁]

/-- Two first calls at once: one's private key lies over the beginning of the other's, whose
public key stays. -/
theorem confirmed_at_once_two :
    let savePath : PosixPath := .parse "/data"
    let keyName := some "ssh_host_rsa_key"
    let pair : ℕ → String × String := fun i =>
      if i = 0 then ("PEM 00", "ssh-rsa 0") else ("PEM 1", "ssh-rsa 1")
    ∃ t as s, (∀ a ∈ as, a.generated = .ok (pair a.thread)) ∧
      run (step savePath .rsa keyName) { tree := t } as = some s ∧
      Kept savePath .rsa keyName ("PEM 10", "ssh-rsa 0") s.tree := by
  intro savePath keyName pair
  let t := (FileTree.empty.makeDirs savePath).toOption.getD .empty
  let as : List Action := [0, 0, 0, 0, 0, 1, 1, 1, 1, 1, 0, 1, 0, 1, 1, 1, 0, 0].map
    fun i => ⟨i, .ok (pair i)⟩
  have hphases : (run (step savePath .rsa keyName) { tree := t } as).map
      (fun s => (s.phase 0, s.phase 1)) = some (.returned (pair 0), .returned (pair 1)) := by
    decide +kernel
  have hwritten : (seen (step savePath .rsa keyName) fileOps { tree := t } as).foldl KeyOp.apply
      ("", "") = ("PEM 10", "ssh-rsa 0") := by decide +kernel
  obtain ⟨s, hr, hs⟩ := Option.map_eq_some_iff.mp hphases
  rw [Prod.mk.injEq] at hs
  have has : ∀ a ∈ as, (a.thread = 0 ∨ a.thread = 1) ∧ a.generated = .ok (pair a.thread) := by
    simp [as]
  have hplain : ∀ a ∈ as, ∀ pair, a.generated = .ok pair → PlainPair pair := by
    intro a ha pair' hpair'
    obtain ⟨hthread, hgenerated⟩ := has a ha
    cases hgenerated.symm.trans hpair'
    rcases hthread with hthread | hthread <;> rw [hthread]
    · exact ⟨by decide, by decide, by simp [PlainText, pair], by simp [PlainText, pair]⟩
    · exact ⟨by decide, by decide, by simp [PlainText, pair], by simp [PlainText, pair]⟩
  have hrest : ∀ i, s.phase i = .outside ∨ (s.phase i).ended = true := by
    intro i
    by_cases h0 : i = 0
    · exact .inr (by rw [h0, hs.1]; rfl)
    by_cases h1 : i = 1
    · exact .inr (by rw [h1, hs.2]; rfl)
    refine .inl (phase_of_forall_ne (fun a ha => ?_) hr)
    rintro rfl
    exact (has a ha).1.elim h0 h1
  have hover : ¬ Overlooked savePath .rsa keyName t := by
    intro hover
    have hno := hover.private_exists
    revert hno
    decide +kernel
  have hroom : Room savePath .rsa keyName t :=
    ⟨by decide +kernel, by decide +kernel, by decide +kernel⟩
  have hpri : textAt t (privateKeyFile savePath .rsa keyName) = .ok ("", "").1 := by
    decide +kernel
  have hpub : textAt t (publicKeyFile savePath .rsa keyName) = .ok ("", "").2 := by
    decide +kernel
  have hkept := (confirmed_at_once hroom hpri hpub hover hplain hr hrest ⟨0, _, hs.1⟩).1
  rw [hwritten] at hkept
  exact ⟨t, as, s, fun a ha => (has a ha).2, hr, hkept⟩

end Many

end SharedKeys

end Lobbyboy.Utils
