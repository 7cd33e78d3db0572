import Mathlib.Data.Int.Notation
import Lobbyboy.Exceptions
import Lobbyboy.Foundation.FileTree
import Lobbyboy.Foundation.Program
import Lobbyboy.Foundation.Utf8

/-! The pair of key files. `try_load_key_from_file` takes a pair for present when both texts
are not empty, `write_key_to_file` when both paths exist; where the two disagree, a new pair
is returned that is on no disk. -/

namespace Lobbyboy.Utils

open Foundation

/-! ### Text files -/

abbrev OnDisk := EStateM PyExc FileTree

/-- The `OSError` of that file. -/
def osError (path : PosixPath) : FileError → PyExc
  | .fileNotFound => ⟨.fileNotFoundError, s!"[Errno 2] No such file or directory: '{path.str}'"⟩
  | .fileExists => ⟨.fileExistsError, s!"[Errno 17] File exists: '{path.str}'"⟩
  | .isADirectory => ⟨.osError, s!"[Errno 21] Is a directory: '{path.str}'"⟩
  | .notADirectory => ⟨.osError, s!"[Errno 20] Not a directory: '{path.str}'"⟩

/-- All newlines of a text that is read are `\n`. -/
def universalNewlines : List Char → List Char
  | '\r' :: '\n' :: cs => '\n' :: universalNewlines cs
  | '\r' :: cs => '\n' :: universalNewlines cs
  | c :: cs => c :: universalNewlines cs
  | [] => []

/-- `open(path, "r+").read()`. -/
def readText (t : FileTree) (path : PosixPath) : Except PyExc String :=
  match t.read path with
  | .error e => .error (osError path e)
  | .ok bytes =>
    match Utf8.decode? bytes with
    | some text => .ok (String.ofList (universalNewlines text.toList))
    | none => .error ⟨.valueError, "'utf-8' codec can't decode"⟩

/-- `open(path, "w+").write(text)`, where `\n` is a newline. -/
def writeText (path : PosixPath) (text : String) : OnDisk Unit := do
  match (← get).write path (Utf8.encode text) with
  | .ok t => set t
  | .error e => throw (osError path e)

/-- `path.mkdir(parents=True, exist_ok=True)`. -/
def mkdir (path : PosixPath) : OnDisk Unit := do
  match (← get).makeDirs path with
  | .ok t => set t
  | .error e => throw (osError path e)

/-- The text of a file, and the empty one if there is no file. -/
def textAt (t : FileTree) (path : PosixPath) : Except PyExc String :=
  if t.pathExists path then readText t path else .ok ""

/-! ### Key types -/

inductive KeyTypeSupport where
  | rsa | dss | ed25519 | ecdsa
  deriving DecidableEq

namespace KeyTypeSupport

def key : KeyTypeSupport → String
  | .rsa => "RSA"
  | .dss => "DSS"
  | .ed25519 => "ED25519"
  | .ecdsa => "ECDSA"

def defaultKeyLength : KeyTypeSupport → ℤ
  | .rsa => 3072
  | .dss => 1024
  | .ed25519 => 256
  | .ecdsa => 256

/-- `f"id_{key_type.key.lower()}"`. -/
def defaultKeyName (keyType : KeyTypeSupport) : String :=
  "id_" ++ String.ofList (keyType.key.toList.map Char.toLower)

end KeyTypeSupport

/-- A generated key, as it is written: what `write_private_key`, `get_name` and `get_base64`
give. -/
structure PKey where
  privateKey : String
  name : String
  base64 : String

/-- `f"{key.get_name()} {key.get_base64()}"`. -/
def PKey.publicKey (key : PKey) : String := s!"{key.name} {key.base64}"

/-- `Key.generate(bits=…)`, of the class of that type. -/
abbrev Generator := KeyTypeSupport → ℤ → Except PyExc PKey

/-- `key_len or key_type.default_key_length`. -/
def keyLength (keyType : KeyTypeSupport) : Option ℤ → ℤ
  | none => keyType.defaultKeyLength
  | some n => if n = 0 then keyType.defaultKeyLength else n

def generateSshKeyPair (generate : Generator) (keyType : KeyTypeSupport) (keyLen : Option ℤ) :
    Except PyExc (String × String) :=
  if keyLength keyType keyLen = 0 then .error ⟨.unsupportedPrivateKeyTypeException, ""⟩
  else
    match keyType with
    -- `KeyTypeSupport` has no `Ed25519`: the member is `ED25519`
    | .ed25519 => .error ⟨.attributeError, "Ed25519"⟩
    | .rsa | .dss | .ecdsa => do
      let key ← generate keyType (keyLength keyType keyLen)
      return (key.privateKey, key.publicKey)

theorem keyLength_ne_zero (keyType : KeyTypeSupport) (keyLen : Option ℤ) :
    keyLength keyType keyLen ≠ 0 := by
  have hdefault : keyType.defaultKeyLength ≠ 0 := by cases keyType <;> decide
  unfold keyLength
  split
  · exact hdefault
  · split_ifs with hn
    · exact hdefault
    · exact hn

theorem generateSshKeyPair_eq {generate : Generator} {keyType : KeyTypeSupport}
    (hsupported : keyType ≠ .ed25519) {keyLen : Option ℤ} {key : PKey}
    (hkey : generate keyType (keyLength keyType keyLen) = .ok key) :
    generateSshKeyPair generate keyType keyLen = .ok (key.privateKey, key.publicKey) := by
  unfold generateSshKeyPair
  rw [if_neg (keyLength_ne_zero keyType keyLen)]
  cases keyType with
  | ed25519 => exact absurd rfl hsupported
  | rsa | dss | ecdsa =>
    simp only [hkey]
    rfl

/-! ### The program -/

/-- `if not key_name: key_name = …`. -/
def keyNameOr (keyType : KeyTypeSupport) : Option String → String
  | none => keyType.defaultKeyName
  | some keyName => if keyName = "" then keyType.defaultKeyName else keyName

section Files

variable (savePath : PosixPath) (keyType : KeyTypeSupport) (keyName : Option String)

def privateKeyFile : PosixPath := savePath.joinpath (keyNameOr keyType keyName)

def publicKeyFile : PosixPath := savePath.joinpath (keyNameOr keyType keyName ++ ".pub")

def tryLoadKeyFromFile (raiseError : Bool := false) : OnDisk (String × String) := do
  let priKey ← liftExcept (textAt (← get) (privateKeyFile savePath keyType keyName))
  let pubKey ← liftExcept (textAt (← get) (publicKeyFile savePath keyType keyName))
  if ¬ (priKey ≠ "" ∧ pubKey ≠ "") ∧ raiseError then
    let privateFile := (privateKeyFile savePath keyType keyName).str
    let publicFile := (publicKeyFile savePath keyType keyName).str
    throw ⟨.fileNotFoundError, s!"ssh key pair not found: {privateFile}/{publicFile}"⟩
  else return (priKey, pubKey)

/-- The modes of the files are left out. -/
def writeKeyToFile (priKey pubKey : String) : OnDisk (String × String) := do
  mkdir savePath
  let t ← get
  if t.pathExists (privateKeyFile savePath keyType keyName) ∧
      t.pathExists (publicKeyFile savePath keyType keyName) then
    return (priKey, pubKey)
  else do
    writeText (privateKeyFile savePath keyType keyName) priKey
    writeText (publicKeyFile savePath keyType keyName) pubKey
    return (priKey, pubKey)

def confirmSshKeyPair (generate : Generator) (keyLen : Option ℤ := none) :
    OnDisk (String × String) := do
  let (priKey, pubKey) ← tryLoadKeyFromFile savePath keyType keyName
  if priKey ≠ "" ∧ pubKey ≠ "" then return (priKey, pubKey)
  else do
    let (priKey, pubKey) ← liftExcept (generateSshKeyPair generate keyType keyLen)
    -- a path is never falsy, so there is always somewhere to write to
    writeKeyToFile savePath keyType keyName priKey pubKey

/-- One call after another. -/
def confirmAll : List (Generator × Option ℤ) → OnDisk (List (String × String))
  | [] => return []
  | (generate, keyLen) :: calls => do
    let pair ← confirmSshKeyPair savePath keyType keyName generate keyLen
    return pair :: (← confirmAll calls)

end Files

/-! ### Rules -/

section Rules

variable {t t' : FileTree} {E : PyExc → FileTree → Prop}

@[simp] theorem wp_mkdir {Q : Unit → FileTree → Prop} (path : PosixPath) :
    wp (mkdir path) Q E t ↔ (∀ t', t.makeDirs path = .ok t' → Q () t') ∧
      ∀ e, t.makeDirs path = .error e → E (osError path e) t := by
  simp only [mkdir, wp_bind, wp_get]
  cases t.makeDirs path <;> simp

@[simp] theorem wp_writeText {Q : Unit → FileTree → Prop} (path : PosixPath) (text : String) :
    wp (writeText path text) Q E t ↔ (∀ t', t.write path (Utf8.encode text) = .ok t' → Q () t') ∧
      ∀ e, t.write path (Utf8.encode text) = .error e → E (osError path e) t := by
  simp only [writeText, wp_bind, wp_get]
  cases t.write path (Utf8.encode text) <;> simp

theorem universalNewlines_eq_self {cs : List Char} (h : '\r' ∉ cs) : universalNewlines cs = cs := by
  induction cs with
  | nil => rfl
  | cons c cs ih =>
    rw [List.mem_cons, not_or] at h
    rw [universalNewlines, ih h.2]
    · exact fun _ hc => absurd hc.symm h.1
    · exact fun hc => h.1 hc.symm

theorem readText_congr {p : PosixPath} (h : t.node p = t'.node p) :
    readText t p = readText t' p := by
  rw [readText, readText, FileTree.read_congr h]

/-- What was written is read, if no newline of it is changed. -/
theorem readText_of_node {p : PosixPath} {text : String} (h : '\r' ∉ text.toList)
    (hnode : t.node p = some (.file (Utf8.encode text))) : readText t p = .ok text := by
  simp only [readText, FileTree.read_eq_ok_iff.mpr hnode, Utf8.decode?_encode,
    universalNewlines_eq_self h, String.ofList_toList]

theorem isFile_of_readText {p : PosixPath} {text : String} (h : readText t p = .ok text) :
    t.isFile p = true := by
  unfold readText at h
  rw [FileTree.isFile_iff]
  cases hread : t.read p with
  | error e => simp [hread] at h
  | ok bytes => exact ⟨bytes, FileTree.read_eq_ok_iff.mp hread⟩

theorem textAt_of_readText {p : PosixPath} {text : String} (h : readText t p = .ok text) :
    textAt t p = .ok text := by
  obtain ⟨bytes, hbytes⟩ := t.isFile_iff.mp (isFile_of_readText h)
  rw [textAt, FileTree.pathExists, hbytes]
  exact h

theorem readText_of_textAt {p : PosixPath} {text : String} (h : textAt t p = .ok text)
    (hne : text ≠ "") : readText t p = .ok text := by
  unfold textAt at h
  split_ifs at h
  · exact h
  · exact absurd (Except.ok.inj h).symm hne

/-- Making directories gives an empty file no text, and a path without a file neither. -/
theorem eq_empty_of_makeDirs {path p : PosixPath} {text : String} (h : t.makeDirs path = .ok t')
    (hempty : textAt t p = .ok "") (htext : readText t' p = .ok text) : text = "" := by
  obtain ⟨bytes, hbytes⟩ := t'.isFile_iff.mp (isFile_of_readText htext)
  have hsame : t.node p = t'.node p := ((FileTree.makeDirs_file h).mp hbytes).trans hbytes.symm
  rw [← readText_congr hsame] at htext
  rw [textAt_of_readText htext] at hempty
  exact Except.ok.inj hempty

variable (savePath : PosixPath) (keyType : KeyTypeSupport) (keyName : Option String)

/-- Loading leaves the files as they are. -/
@[simp] theorem wp_tryLoadKeyFromFile {Q : String × String → FileTree → Prop} (raiseError : Bool) :
    wp (tryLoadKeyFromFile savePath keyType keyName raiseError) Q E t ↔
      (∀ priKey, textAt t (privateKeyFile savePath keyType keyName) = .ok priKey →
        (∀ pubKey, textAt t (publicKeyFile savePath keyType keyName) = .ok pubKey →
          if ¬ (priKey ≠ "" ∧ pubKey ≠ "") ∧ raiseError then
            E ⟨.fileNotFoundError, "ssh key pair not found: " ++
              (privateKeyFile savePath keyType keyName).str ++ "/" ++
              (publicKeyFile savePath keyType keyName).str⟩ t
          else Q (priKey, pubKey) t) ∧
        ∀ e, textAt t (publicKeyFile savePath keyType keyName) = .error e → E e t) ∧
      ∀ e, textAt t (privateKeyFile savePath keyType keyName) = .error e → E e t := by
  simp only [tryLoadKeyFromFile, wp_bind, wp_get, wp_liftExcept, wp_ite, wp_throw, wp_pure]
  rfl

theorem privateKeyFile_ne_publicKeyFile :
    privateKeyFile savePath keyType keyName ≠ publicKeyFile savePath keyType keyName :=
  (savePath.joinpath_append_ne _ (by decide) ⟨'p', by decide⟩).symm

end Rules

/-! ### A pair that stays -/

section Kept

variable (savePath : PosixPath) (keyType : KeyTypeSupport) (keyName : Option String)

/-- The files hold the pair, and it is what is loaded and confirmed from now on. -/
structure Kept (pair : String × String) (t : FileTree) : Prop where
  privateKey : readText t (privateKeyFile savePath keyType keyName) = .ok pair.1
  publicKey : readText t (publicKeyFile savePath keyType keyName) = .ok pair.2
  loaded : ∀ raiseError, tryLoadKeyFromFile savePath keyType keyName raiseError t = .ok pair t
  confirmed : ∀ calls, confirmAll savePath keyType keyName calls t = .ok (calls.map fun _ => pair) t

/-- Both paths are there once the directory is, but one of the texts is empty. Besides a
file, a directory can be there, if the key has the name of one above `save_path`. -/
structure Overlooked (t : FileTree) : Prop where
  private_text : ∃ text, textAt t (privateKeyFile savePath keyType keyName) = .ok text
  public_text : ∃ text, textAt t (publicKeyFile savePath keyType keyName) = .ok text
  empty : textAt t (privateKeyFile savePath keyType keyName) = .ok "" ∨
    textAt t (publicKeyFile savePath keyType keyName) = .ok ""
  room : ∀ a, a.isAbove savePath = true → t.isFile a = false
  private_exists : t.pathExists (privateKeyFile savePath keyType keyName) = true ∨
    (privateKeyFile savePath keyType keyName).isAbove savePath = true
  public_exists : t.pathExists (publicKeyFile savePath keyType keyName) = true ∨
    (publicKeyFile savePath keyType keyName).isAbove savePath = true

/-- What is assumed of a generated key: it is not empty, and a text that is written as it
is. -/
structure PKey.Plain (key : PKey) : Prop where
  nonempty : key.privateKey ≠ ""
  private_newlines : '\r' ∉ key.privateKey.toList
  public_newlines : '\r' ∉ key.publicKey.toList

theorem PKey.publicKey_ne_empty (key : PKey) : key.publicKey ≠ "" := by
  intro h
  have hlist := congrArg String.toList h
  rw [publicKey] at hlist
  simp [toString] at hlist

variable {savePath keyType keyName} {t t' : FileTree}

/-- A pair that is there is returned. -/
theorem confirmSshKeyPair_of_readText {pair : String × String}
    (hprivate : readText t (privateKeyFile savePath keyType keyName) = .ok pair.1)
    (hpublic : readText t (publicKeyFile savePath keyType keyName) = .ok pair.2)
    (hpri : pair.1 ≠ "") (hpub : pair.2 ≠ "") (generate : Generator) (keyLen : Option ℤ) :
    confirmSshKeyPair savePath keyType keyName generate keyLen t = .ok pair t := by
  refine eq_ok_of_wp ?_
  rw [confirmSshKeyPair, wp_bind, wp_tryLoadKeyFromFile, textAt_of_readText hprivate,
    textAt_of_readText hpublic]
  simp [hpri, hpub]

theorem kept_of_readText {pair : String × String}
    (hprivate : readText t (privateKeyFile savePath keyType keyName) = .ok pair.1)
    (hpublic : readText t (publicKeyFile savePath keyType keyName) = .ok pair.2)
    (hpri : pair.1 ≠ "") (hpub : pair.2 ≠ "") : Kept savePath keyType keyName pair t where
  privateKey := hprivate
  publicKey := hpublic
  loaded raiseError := by
    refine eq_ok_of_wp ?_
    rw [wp_tryLoadKeyFromFile, textAt_of_readText hprivate, textAt_of_readText hpublic]
    simp [hpri, hpub]
  confirmed calls := by
    induction calls with
    | nil => rfl
    | cons call calls ih =>
      obtain ⟨generate, keyLen⟩ := call
      rw [confirmAll, bind_apply,
        confirmSshKeyPair_of_readText hprivate hpublic hpri hpub generate keyLen]
      simp only
      rw [bind_apply, ih]
      rfl

/-- The file does not hold the text, before or after. -/
theorem overlooked_of_makeDirs {text text' : String} (hmake : t.makeDirs savePath = .ok t')
    (hprivate : textAt t (privateKeyFile savePath keyType keyName) = .ok text)
    (hpublic : textAt t (publicKeyFile savePath keyType keyName) = .ok text')
    (hempty : ¬ (text ≠ "" ∧ text' ≠ ""))
    (hthere : t'.pathExists (privateKeyFile savePath keyType keyName) = true ∧
      t'.pathExists (publicKeyFile savePath keyType keyName) = true) :
    Overlooked savePath keyType keyName t := by
  have hexists : ∀ p, t'.pathExists p = true →
      t.pathExists p = true ∨ p.isAbove savePath = true := by
    intro p hp
    rw [FileTree.pathExists, FileTree.node_makeDirs hmake] at hp
    by_cases habove : p.isAbove savePath = true
    · exact .inr habove
    · rw [if_neg habove] at hp
      exact .inl hp
  refine ⟨⟨text, hprivate⟩, ⟨text', hpublic⟩, ?_, FileTree.makeDirs_ok_iff.mp ⟨t', hmake⟩,
    hexists _ hthere.1, hexists _ hthere.2⟩
  rw [hprivate, hpublic]
  by_cases hpri : text = ""
  · exact .inl (congrArg _ hpri)
  · exact .inr (congrArg _ (by_contra fun hpub => hempty ⟨hpri, hpub⟩))

variable {generate : Generator} {keyLen : Option ℤ} {key : PKey}

/-- A pair that is overlooked is neither returned nor replaced. -/
theorem confirmSshKeyPair_of_overlooked (hsupported : keyType ≠ .ed25519)
    (hkey : generate keyType (keyLength keyType keyLen) = .ok key)
    (h : Overlooked savePath keyType keyName t) :
    ∃ t', t.makeDirs savePath = .ok t' ∧
      confirmSshKeyPair savePath keyType keyName generate keyLen t =
        .ok (key.privateKey, key.publicKey) t' := by
  obtain ⟨t', hmake⟩ := FileTree.makeDirs_ok_iff.mpr h.room
  obtain ⟨text, hprivate⟩ := h.private_text
  obtain ⟨text', hpublic⟩ := h.public_text
  have hempty : ¬ (text ≠ "" ∧ text' ≠ "") := by
    rintro ⟨hpri, hpub⟩
    rcases h.empty with hempty | hempty
    · exact hpri (Except.ok.inj (hprivate.symm.trans hempty))
    · exact hpub (Except.ok.inj (hpublic.symm.trans hempty))
  have hthere : ∀ p, t.pathExists p = true ∨ p.isAbove savePath = true →
      t'.pathExists p = true := by
    intro p hp
    rw [FileTree.pathExists, FileTree.node_makeDirs hmake]
    split_ifs with habove
    · rfl
    · exact hp.resolve_right habove
  refine ⟨t', hmake, eq_ok_of_wp ?_⟩
  rw [confirmSshKeyPair, wp_bind, wp_tryLoadKeyFromFile, hprivate, hpublic]
  refine ⟨fun priKey hpri => ⟨fun pubKey hpub => ?_, nofun⟩, nofun⟩
  cases hpri
  cases hpub
  rw [if_neg (by simp), wp_ite, if_neg hempty, wp_bind, wp_liftExcept,
    generateSshKeyPair_eq hsupported hkey]
  simp [writeKeyToFile, hmake, hthere _ h.private_exists, hthere _ h.public_exists]

/-- Where there are no files, new ones are made. -/
theorem confirmSshKeyPair_of_absent {t₁ t₂ : FileTree} (hsupported : keyType ≠ .ed25519)
    (hkey : generate keyType (keyLength keyType keyLen) = .ok key)
    (hprivate : t.node (privateKeyFile savePath keyType keyName) = none)
    (hpublic : t.node (publicKeyFile savePath keyType keyName) = none)
    (hmake : t.makeDirs savePath = .ok t₁)
    (habsent : t₁.node (privateKeyFile savePath keyType keyName) = none)
    (hpri : t₁.write (privateKeyFile savePath keyType keyName) (Utf8.encode key.privateKey) =
      .ok t₂)
    (hpub : t₂.write (publicKeyFile savePath keyType keyName) (Utf8.encode key.publicKey) =
      .ok t') :
    confirmSshKeyPair savePath keyType keyName generate keyLen t =
      .ok (key.privateKey, key.publicKey) t' := by
  have htext : ∀ p, t.node p = none → textAt t p = .ok "" := by
    intro p hp
    simp [textAt, FileTree.pathExists, hp]
  refine eq_ok_of_wp ?_
  rw [confirmSshKeyPair, wp_bind, wp_tryLoadKeyFromFile, htext _ hprivate, htext _ hpublic]
  simp [generateSshKeyPair_eq hsupported hkey, writeKeyToFile, hmake, FileTree.pathExists, habsent,
    hpri, hpub]

/-- What is written is kept. -/
theorem kept_writeKeyToFile (hplain : key.Plain)
    (hover : ¬ Overlooked savePath keyType keyName t) {text text' : String}
    (hprivate : textAt t (privateKeyFile savePath keyType keyName) = .ok text)
    (hpublic : textAt t (publicKeyFile savePath keyType keyName) = .ok text')
    (hempty : ¬ (text ≠ "" ∧ text' ≠ "")) :
    wp (writeKeyToFile savePath keyType keyName key.privateKey key.publicKey)
      (Kept savePath keyType keyName) (fun _ _ => True) t := by
  rw [writeKeyToFile, wp_bind, wp_mkdir]
  refine ⟨fun t₁ h₁ => ?_, fun _ _ => trivial⟩
  rw [wp_bind, wp_get, wp_ite, if_neg (fun hthere =>
    hover (overlooked_of_makeDirs h₁ hprivate hpublic hempty hthere)), wp_bind, wp_writeText]
  refine ⟨fun t₂ h₂ => ?_, fun _ _ => trivial⟩
  rw [wp_bind, wp_writeText]
  refine ⟨fun t₃ h₃ => ?_, fun _ _ => trivial⟩
  rw [wp_pure]
  refine kept_of_readText ?_ ?_ hplain.nonempty key.publicKey_ne_empty
  · refine readText_of_node hplain.private_newlines ?_
    rw [FileTree.node_write h₃, if_neg (privateKeyFile_ne_publicKeyFile savePath keyType keyName),
      FileTree.node_write h₂, if_pos rfl]
  · refine readText_of_node hplain.public_newlines ?_
    rw [FileTree.node_write h₃, if_pos rfl]

/-- Whatever the files hold, the returned pair is on disk and every further call returns
it, if and only if the files are not overlooked. -/
theorem confirmSshKeyPair_kept_iff (savePath : PosixPath) (keyName : Option String)
    (hsupported : keyType ≠ .ed25519)
    (hkey : generate keyType (keyLength keyType keyLen) = .ok key) (hplain : key.Plain)
    (t : FileTree) :
    wp (confirmSshKeyPair savePath keyType keyName generate keyLen)
        (Kept savePath keyType keyName) (fun _ _ => True) t ↔
      ¬ Overlooked savePath keyType keyName t := by
  constructor
  · intro h hover
    obtain ⟨t', hmake, hconfirm⟩ := confirmSshKeyPair_of_overlooked hsupported hkey hover
    have hkept := (wp_eq_ok hconfirm).mp h
    rcases hover.empty with hempty | hempty
    · exact hplain.nonempty (eq_empty_of_makeDirs hmake hempty hkept.privateKey)
    · exact key.publicKey_ne_empty (eq_empty_of_makeDirs hmake hempty hkept.publicKey)
  · intro hover
    rw [confirmSshKeyPair, wp_bind, wp_tryLoadKeyFromFile]
    refine ⟨fun text hprivate => ⟨fun text' hpublic => ?_, fun _ _ => trivial⟩, fun _ _ => trivial⟩
    rw [if_neg (by simp), wp_ite]
    split_ifs with hboth
    · rw [wp_pure]
      exact kept_of_readText (readText_of_textAt hprivate hboth.1)
        (readText_of_textAt hpublic hboth.2) hboth.1 hboth.2
    · rw [wp_bind, wp_liftExcept, generateSshKeyPair_eq hsupported hkey]
      refine ⟨fun pair hpair => ?_, fun _ _ => trivial⟩
      cases hpair
      exact kept_writeKeyToFile hplain hover hprivate hpublic hboth

/-- The first start, with an empty disk. -/
theorem confirmSshKeyPair_kept_iff_first :
    wp (confirmSshKeyPair (.parse "/data") .rsa (some "ssh_host_rsa_key")
        (fun _ _ => .ok ⟨"PEM", "ssh-rsa", "AAAA"⟩))
      (Kept (.parse "/data") .rsa (some "ssh_host_rsa_key")) (fun _ _ => True) .empty := by
  refine (confirmSshKeyPair_kept_iff (.parse "/data") (some "ssh_host_rsa_key") (by decide) rfl
    ⟨by decide, by decide, by decide⟩ .empty).mpr fun hover => ?_
  have hno := hover.private_exists
  revert hno
  decide

/-- What a crash leaves between the opening of the files and the writing. -/
theorem overlooked_of_empty_files
    (hprivate : t.node (privateKeyFile savePath keyType keyName) = some (.file []))
    (hpublic : t.node (publicKeyFile savePath keyType keyName) = some (.file []))
    (hbelow : savePath.isAbove (privateKeyFile savePath keyType keyName) = true)
    (hne : savePath ≠ privateKeyFile savePath keyType keyName) :
    Overlooked savePath keyType keyName t := by
  have htext : ∀ p, t.node p = some (.file []) → textAt t p = .ok "" := fun p hp =>
    textAt_of_readText (show readText t p = .ok "" from readText_of_node (by decide) hp)
  refine ⟨⟨_, htext _ hprivate⟩, ⟨_, htext _ hpublic⟩, .inl (htext _ hprivate), fun a ha => ?_,
    .inl ?_, .inl ?_⟩
  · have hnot : a ≠ privateKeyFile savePath keyType keyName := by
      rintro rfl
      exact hne (PosixPath.isAbove_antisymm hbelow ha)
    have hdir := t.above a _ (PosixPath.isAbove_trans ha hbelow) hnot (by rw [hprivate]; rfl)
    rw [FileTree.isFile, hdir]
  · rw [FileTree.pathExists, hprivate]
    rfl
  · rw [FileTree.pathExists, hpublic]
    rfl

/-- Two empty files: every call returns the pair that was generated for it, and the files
stay empty. -/
theorem confirmSshKeyPair_returns_every_new_pair :
    let savePath : PosixPath := .parse "/data"
    let keyName := some "ssh_host_rsa_key"
    ∃ t : FileTree, t.node (privateKeyFile savePath .rsa keyName) = some (.file []) ∧
      t.node (publicKeyFile savePath .rsa keyName) = some (.file []) ∧
      (∀ key : PKey, ∃ t', confirmSshKeyPair savePath .rsa keyName (fun _ _ => .ok key) none t =
          .ok (key.privateKey, key.publicKey) t' ∧
        t'.node (privateKeyFile savePath .rsa keyName) = some (.file []) ∧
        t'.node (publicKeyFile savePath .rsa keyName) = some (.file [])) ∧
      ¬ wp (confirmSshKeyPair savePath .rsa keyName fun _ _ => .ok ⟨"PEM", "ssh-rsa", "AAAA"⟩)
        (Kept savePath .rsa keyName) (fun _ _ => True) t := by
  intro savePath keyName
  obtain ⟨t₁, h₁⟩ := (FileTree.makeDirs_ok_iff (p := savePath)).mpr fun a _ =>
    FileTree.isFile_empty a
  obtain ⟨t₂, h₂⟩ := (FileTree.write_ok_iff []).mpr
    (show t₁.Writable (privateKeyFile savePath .rsa keyName) by
      simp only [FileTree.Writable, FileTree.node_makeDirs h₁]
      decide)
  obtain ⟨t, h₃⟩ := (FileTree.write_ok_iff []).mpr
    (show t₂.Writable (publicKeyFile savePath .rsa keyName) by
      simp only [FileTree.Writable, FileTree.node_write h₂, FileTree.node_makeDirs h₁]
      decide)
  have hprivate : t.node (privateKeyFile savePath .rsa keyName) = some (.file []) := by
    rw [FileTree.node_write h₃, if_neg (privateKeyFile_ne_publicKeyFile savePath .rsa keyName),
      FileTree.node_write h₂, if_pos rfl]
  have hpublic : t.node (publicKeyFile savePath .rsa keyName) = some (.file []) := by
    rw [FileTree.node_write h₃, if_pos rfl]
  have hover := overlooked_of_empty_files hprivate hpublic (by decide) (by decide)
  have hcall : ∀ key : PKey, ∃ t', t.makeDirs savePath = .ok t' ∧
      confirmSshKeyPair savePath .rsa keyName (fun _ _ => .ok key) none t =
        .ok (key.privateKey, key.publicKey) t' := fun key =>
    confirmSshKeyPair_of_overlooked (by decide) rfl hover
  refine ⟨t, hprivate, hpublic, fun key => ?_, fun hkept => ?_⟩
  · obtain ⟨t', hmake, hconfirm⟩ := hcall key
    exact ⟨t', hconfirm, (FileTree.makeDirs_file hmake).mpr hprivate,
      (FileTree.makeDirs_file hmake).mpr hpublic⟩
  · obtain ⟨t', hmake, hconfirm⟩ := hcall ⟨"PEM", "ssh-rsa", "AAAA"⟩
    rw [wp_eq_ok hconfirm] at hkept
    have hread : readText t (privateKeyFile savePath .rsa keyName) = .ok "" :=
      readText_of_node (by decide) hprivate
    have hempty := eq_empty_of_makeDirs hmake (textAt_of_readText hread) hkept.privateKey
    revert hempty
    decide

end Kept

end Lobbyboy.Utils
