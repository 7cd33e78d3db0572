import Lobbyboy.Config.Loading
import Lobbyboy.Foundation.Base64
import Lobbyboy.Utils.Channel

/-! The authentication callbacks of `Server`. Passwords and public keys are looked up in the
configuration file as it is at that moment; what the GSSAPI layer reports is passed on. -/

namespace Lobbyboy.Server

open Foundation Utils Config Base64

/-- `AUTH_SUCCESSFUL`, `AUTH_PARTIALLY_SUCCESSFUL` and `AUTH_FAILED`. -/
inductive AuthResult where
  | successful | partiallySuccessful | failed
  deriving DecidableEq

/-! ### Keys -/

inductive KeyClass where
  | rsaKey | dssKey | ecdsaKey | ed25519Key
  deriving DecidableEq

/-- What the SSH library offers: `key.get_name()`, `key_cls(data=...)` and `==`. -/
structure PublicKeys (Key : Type) where
  getName : Key → String
  ofData : KeyClass → Bytes → Except PyExc Key
  beq : Key → Key → Bool

variable {Key : Type} (keys : PublicKeys Key)

def keyClasses : List (String × KeyClass) :=
  [("ssh-rsa", .rsaKey), ("ssh-dss", .dssKey), ("ssh-ecdsa", .ecdsaKey),
    ("ssh-ed25519", .ed25519Key)]

def getKeyClass (keyType : String) : Except PyExc KeyClass :=
  match keyClasses.lookup keyType with
  | some cls => .ok cls
  | none => .error ⟨.unsupportedPrivateKeyTypeException, s!"Unknown key type {keyType}"⟩

/-- `s.lower()`, as far as it matters for the names above. -/
def lower (s : String) : String := String.ofList (s.toList.map Char.toLower)

/-- `base64.b64decode(s)`. -/
def b64decode (s : String) : Except PyExc Bytes :=
  if s.toList.all fun c => c.toNat < 128 then
    match decodeLenient s.toList with
    | some data => .ok data
    | none =>
      let n := s.toList.countP fun c => (value? c).isSome
      .error ⟨.valueError, if n % 4 = 1 then
          s!"Invalid base64-encoded string: number of data characters ({n}) " ++
            "cannot be 1 more than a multiple of 4"
        else "Incorrect padding"⟩
  else .error ⟨.valueError, "string argument should contain only ASCII characters"⟩

def tryAuth (key : Key) (keyStr : String) : Except PyExc Bool := do
  let keyType := lower (keys.getName key)
  let keyCls ← getKeyClass keyType
  let acceptKey ← keys.ofData keyCls (← b64decode keyStr)
  return keys.beq key acceptKey

/-! ### Lines -/

/-- `s.split(maxsplit=1)`; the second word reaches to the end of the line. -/
def splitWords (s : List Char) : List (List Char) :=
  let s := s.dropWhile isSpace
  let word := s.takeWhile fun c => !isSpace c
  let rest := (s.dropWhile fun c => !isSpace c).dropWhile isSpace
  if s = [] then [] else if rest = [] then [word] else [word, rest]

def sshKeys (authorizedKeys : String) : List (List Char) :=
  (authorizedKeys.toList.splitOn '\n').filter fun line => line ≠ []

def authKeyPairs : Confirmed → Except PyExc (List (List (List Char)))
  | .raw _ => .error ⟨.attributeError, "object has no attribute 'auth_key_pairs'"⟩
  | user => do
    let authorizedKeys ← getattr user "authorized_keys"
    if authorizedKeys.truthy then
      match authorizedKeys with
      | .str text => return (sshKeys text).map splitWords
      | _ => throw ⟨.attributeError, "object has no attribute 'split'"⟩
    else return []

/-! ### The callbacks -/

/-- What the client sends; what is no text stays bytes. -/
inductive Password where
  | text (s : String)
  | raw (data : Bytes)

/-- `password == v`. -/
def Password.beq : Password → PyVal → Bool
  | .text s, .str s' => s = s'
  | _, _ => false

variable (importModule : Importer) (file : Except PyExc PyDict)

def checkAuthPassword (username : String) (password : Password) : Except PyExc AuthResult := do
  let config ← LBConfig.reload importModule file
  match config.user.get? username with
  | none => return .failed
  | some user =>
    if password.beq (← getattr user "password") then return .successful else return .failed

/-- The loop over the pairs. -/
def tryPairs (key : Key) : List (List (List Char)) → Except PyExc AuthResult
  | [] => .ok .failed
  | [keyType, keyData] :: pairs =>
    if keys.getName key ≠ String.ofList keyType then tryPairs key pairs
    else do
      if ← tryAuth keys key (String.ofList keyData) then return .successful else tryPairs key pairs
  | pair :: _ =>
    .error ⟨.valueError, s!"not enough values to unpack (expected 2, got {pair.length})"⟩

def checkAuthPublickey (username : String) (key : Key) : Except PyExc AuthResult := do
  let config ← LBConfig.reload importModule file
  match config.user.get? username with
  | none => throw ⟨.keyError, username⟩
  | some user => tryPairs keys key (← authKeyPairs user)

def checkAuthGssapiWithMic (gssAuthenticated : AuthResult) : AuthResult :=
  if gssAuthenticated = .successful then .successful else .failed

def checkAuthGssapiKeyex (gssAuthenticated : AuthResult) : AuthResult :=
  if gssAuthenticated = .successful then .successful else .failed

/-- The methods `get_allowed_auths` names, each with what its callback is given. -/
inductive Attempt (Key : Type) where
  | gssapiKeyex (gssAuthenticated : AuthResult)
  | gssapiWithMic (gssAuthenticated : AuthResult)
  | password (password : Password)
  | publickey (key : Key)

/-- The callback of a method. -/
def answer (username : String) : Attempt Key → Except PyExc AuthResult
  | .gssapiKeyex r => .ok (checkAuthGssapiKeyex r)
  | .gssapiWithMic r => .ok (checkAuthGssapiWithMic r)
  | .password password => checkAuthPassword importModule file username password
  | .publickey key => checkAuthPublickey keys importModule file username key

/-! ### Who gets in -/

variable {keys} {importModule} {file} {username : String} {key : Key}

/-- The line has the type of the key and decodes, as `try_auth` reads it, to an equal key. -/
def Decodes (keys : PublicKeys Key) (key : Key) (line : List Char) : Prop :=
  ∃ keyData cls data k, splitWords line = [(keys.getName key).toList, keyData] ∧
    getKeyClass (lower (keys.getName key)) = .ok cls ∧
      b64decode (String.ofList keyData) = .ok data ∧ keys.ofData cls data = .ok k ∧
        keys.beq key k = true

/-- What stands behind an attempt: an entry of the user in the file, or the word of the
GSSAPI layer. -/
def Backed (keys : PublicKeys Key) (importModule : Importer) (file : Except PyExc PyDict)
    (username : String) : Attempt Key → Prop
  | .gssapiKeyex r | .gssapiWithMic r => r = .successful
  | .password password => ∃ config user s, LBConfig.reload importModule file = .ok config ∧
      config.user.get? username = some user ∧ password = .text s ∧
        user.attr? "password" = some (.str s)
  | .publickey key => ∃ config user text, LBConfig.reload importModule file = .ok config ∧
      config.user.get? username = some user ∧ user.attr? "authorized_keys" = some (.str text) ∧
        ∃ line ∈ sshKeys text, Decodes keys key line

theorem Password.beq_iff {password : Password} {v : PyVal} :
    password.beq v = true ↔ ∃ s, password = .text s ∧ v = .str s := by
  cases password <;> cases v <;> simp [Password.beq, eq_comm]

theorem tryAuth_eq_ok_iff {keyStr : String} {b : Bool} :
    tryAuth keys key keyStr = .ok b ↔
      ∃ cls data k, getKeyClass (lower (keys.getName key)) = .ok cls ∧ b64decode keyStr = .ok data ∧
        keys.ofData cls data = .ok k ∧ keys.beq key k = b := by
  simp only [tryAuth, bind_eq_ok, pure, Except.pure, Except.ok.injEq]
  constructor
  · rintro ⟨cls, hcls, data, hdata, k, hk, hb⟩
    exact ⟨cls, data, k, hcls, hdata, hk, hb⟩
  · rintro ⟨cls, data, k, hcls, hdata, hk, hb⟩
    exact ⟨cls, hcls, data, hdata, k, hk, hb⟩

theorem authKeyPairs_eq_ok {user : Confirmed} {pairs : List (List (List Char))}
    (h : authKeyPairs user = .ok pairs) (hne : pairs ≠ []) :
    ∃ text, user.attr? "authorized_keys" = some (.str text) ∧
      pairs = (sshKeys text).map splitWords := by
  cases user with
  | raw v => cases h
  | object attrs =>
    obtain ⟨v, hv, h⟩ := bind_eq_ok.mp h
    have hattr := getattr_eq_ok_iff.mp hv
    split_ifs at h
    · cases v <;> cases h
      exact ⟨_, hattr, rfl⟩
    · cases h
      exact absurd rfl hne

/-- The loop over the lines stops at one that decodes to the key. -/
theorem decodes_of_tryPairs {lines : List (List Char)}
    (h : tryPairs keys key (lines.map splitWords) = .ok .successful) :
    ∃ line ∈ lines, Decodes keys key line := by
  induction lines with
  | nil => cases h
  | cons line lines ih =>
    have hlater : tryPairs keys key (lines.map splitWords) = .ok .successful →
        ∃ l ∈ line :: lines, Decodes keys key l := by
      intro hrest
      obtain ⟨l, hl, hdecodes⟩ := ih hrest
      exact ⟨l, List.mem_cons_of_mem _ hl, hdecodes⟩
    rw [List.map_cons] at h
    generalize hwords : splitWords line = words at h
    match words with
    | [] | [_] | _ :: _ :: _ :: _ => cases h
    | [keyType, keyData] =>
      rw [tryPairs] at h
      split_ifs at h with htype
      · exact hlater h
      · obtain ⟨b, hb, h⟩ := bind_eq_ok.mp h
        cases b with
        | false => exact hlater h
        | true =>
          obtain ⟨cls, data, k, hcls, hdata, hk, heq⟩ := tryAuth_eq_ok_iff.mp hb
          have htype : (keys.getName key).toList = keyType := by
            rw [not_not.mp htype, String.toList_ofList]
          exact ⟨line, List.mem_cons_self, keyData, cls, data, k, by rw [hwords, htype], hcls,
            hdata, hk, heq⟩

theorem checkAuthPassword_backed {password : Password}
    (h : checkAuthPassword importModule file username password = .ok .successful) :
    Backed keys importModule file username (.password password) := by
  obtain ⟨config, hconfig, h⟩ := bind_eq_ok.mp h
  split at h
  · cases h
  · next user huser =>
    obtain ⟨v, hv, h⟩ := bind_eq_ok.mp h
    split_ifs at h with heq
    · obtain ⟨s, rfl, rfl⟩ := Password.beq_iff.mp heq
      exact ⟨config, user, s, hconfig, huser, rfl, getattr_eq_ok_iff.mp hv⟩
    · cases h

theorem checkAuthPublickey_backed
    (h : checkAuthPublickey keys importModule file username key = .ok .successful) :
    Backed keys importModule file username (.publickey key) := by
  obtain ⟨config, hconfig, h⟩ := bind_eq_ok.mp h
  split at h
  · cases h
  · next user huser =>
    obtain ⟨pairs, hpairs, h⟩ := bind_eq_ok.mp h
    have hne : pairs ≠ [] := by
      rintro rfl
      cases h
    obtain ⟨text, htext, rfl⟩ := authKeyPairs_eq_ok hpairs hne
    exact ⟨config, user, text, hconfig, huser, htext, decodes_of_tryPairs h⟩

/-- Nobody gets in without being backed, and the GSSAPI layer is always believed. -/
theorem answer_successful (keys : PublicKeys Key) (importModule : Importer)
    (file : Except PyExc PyDict) (username : String) :
    (∀ attempt, answer keys importModule file username attempt = .ok .successful →
      Backed keys importModule file username attempt) ∧
    ∀ r, (answer keys importModule file username (.gssapiKeyex r) = .ok .successful ↔
        r = .successful) ∧
      (answer keys importModule file username (.gssapiWithMic r) = .ok .successful ↔
        r = .successful) := by
  constructor
  · intro attempt h
    cases attempt with
    | gssapiKeyex r | gssapiWithMic r => cases r <;> first | rfl | cases h
    | password password => exact checkAuthPassword_backed h
    | publickey key => exact checkAuthPublickey_backed h
  · intro r
    cases r <;> simp [answer, checkAuthGssapiKeyex, checkAuthGssapiWithMic]

/-- The username is a user of the configuration that is reloaded for the attempt. -/
def KnownUser (importModule : Importer) (file : Except PyExc PyDict) (username : String) : Prop :=
  ∃ config user, LBConfig.reload importModule file = .ok config ∧
    config.user.get? username = some user

/-- Whom an attempt may admit: a user of the reloaded configuration, for a password with
that user's own password, for a key with a line of that user's own `authorized_keys`. -/
def Entitled (keys : PublicKeys Key) (importModule : Importer) (file : Except PyExc PyDict)
    (username : String) (attempt : Attempt Key) : Prop :=
  ∃ config user, LBConfig.reload importModule file = .ok config ∧
    config.user.get? username = some user ∧
      match attempt with
      | .gssapiKeyex _ | .gssapiWithMic _ => True
      | .password password => ∃ s, password = .text s ∧ user.attr? "password" = some (.str s)
      | .publickey key => ∃ text, user.attr? "authorized_keys" = some (.str text) ∧
          ∃ line ∈ sshKeys text, Decodes keys key line

/-- What the GSSAPI layer reports of the principal, if it is asked. -/
def Attempt.gssAuthenticated : Attempt Key → Option AuthResult
  | .gssapiKeyex r | .gssapiWithMic r => some r
  | .password _ | .publickey _ => none

theorem KnownUser.entitled {attempt : Attempt Key} (h : KnownUser importModule file username)
    (hgss : attempt.gssAuthenticated.isSome) :
    Entitled keys importModule file username attempt := by
  obtain ⟨config, user, hconfig, huser⟩ := h
  refine ⟨config, user, hconfig, huser, ?_⟩
  cases attempt with
  | gssapiKeyex r | gssapiWithMic r => trivial
  | password password | publickey key => cases hgss

/-- Without the GSSAPI layer, an entry of the user is what `Backed` asks for. -/
theorem Backed.entitled {attempt : Attempt Key} (h : Backed keys importModule file username attempt)
    (hgss : attempt.gssAuthenticated = none) :
    Entitled keys importModule file username attempt := by
  cases attempt with
  | gssapiKeyex r | gssapiWithMic r => cases hgss
  | password password =>
    obtain ⟨config, user, s, hconfig, huser, hs, hattr⟩ := h
    exact ⟨config, user, hconfig, huser, s, hs, hattr⟩
  | publickey key =>
    obtain ⟨config, user, text, hconfig, huser, hattr, hline⟩ := h
    exact ⟨config, user, hconfig, huser, text, hattr, hline⟩

theorem answer_of_gssAuthenticated {attempt : Attempt Key}
    (h : attempt.gssAuthenticated = some .successful) :
    answer keys importModule file username attempt = .ok .successful := by
  have hall := (answer_successful keys importModule file username).2
  cases attempt with
  | gssapiKeyex r =>
    cases h
    exact (hall .successful).1.mpr rfl
  | gssapiWithMic r =>
    cases h
    exact (hall .successful).2.mpr rfl
  | password password | publickey key => cases h

/-- An attempt admits nobody but whom it may, exactly if the GSSAPI layer does not report
success for a username that the reloaded configuration does not have. -/
theorem answer_entitled_iff (keys : PublicKeys Key) (importModule : Importer)
    (file : Except PyExc PyDict) (username : String) (attempt : Attempt Key) :
    (answer keys importModule file username attempt = .ok .successful →
      Entitled keys importModule file username attempt) ↔
    (attempt.gssAuthenticated = some .successful → KnownUser importModule file username) := by
  constructor
  · intro h hgss
    obtain ⟨config, user, hconfig, huser, -⟩ := h (answer_of_gssAuthenticated hgss)
    exact ⟨config, user, hconfig, huser⟩
  · intro hknown hanswer
    have hbacked := (answer_successful keys importModule file username).1 attempt hanswer
    cases hgss : attempt.gssAuthenticated with
    | none => exact hbacked.entitled hgss
    | some r =>
      -- the layer's answer is passed on, so here it was a success
      have hr : r = .successful := by
        cases attempt with
        | gssapiKeyex r' | gssapiWithMic r' => exact (Option.some.inj hgss).symm.trans hbacked
        | password password | publickey key => cases hgss
      exact (hknown (by rw [hgss, hr])).entitled (by rw [hgss]; rfl)

/-- Keys of one class, as 32 bytes after a fixed header. -/
def ed25519Keys : PublicKeys Bytes where
  getName _ := "ssh-ed25519"
  ofData cls data :=
    let header := [0, 0, 0, 11] ++ "ssh-ed25519".toUTF8.toList ++ [0, 0, 0, 32]
    if cls = .ed25519Key ∧ header <+: data ∧ 51 ≤ data.length then
      .ok ((data.drop header.length).take 32)
    else .error ⟨.sshException, "Invalid key"⟩
  beq k k' := k == k'

def noModule : Importer := fun _ => .error ⟨.exception, "No module named"⟩

/-- A file with one user. -/
def userFile (authorizedKeys : String) : PyDict :=
  .ofPairs [("data_dir", .str "./dev_datadir"), ("user", .dict [("Gustave", .dict
    [("authorized_keys", .str authorizedKeys), ("password", .str "Fiennes")])])]

/-- Whom no file knows is admitted on the word of the GSSAPI layer. -/
theorem unknown_user_admitted :
    ∃ config, LBConfig.reload noModule (.ok (userFile "\n")) = .ok config ∧
      config.user.get? "Zero" = none ∧
        answer ed25519Keys noModule (.ok (userFile "\n")) "Zero" (.gssapiWithMic .successful) =
          .ok .successful ∧
          answer ed25519Keys noModule (.ok (userFile "\n")) "Zero" (.gssapiKeyex .successful) =
            .ok .successful :=
  ⟨_, rfl, rfl, rfl, rfl⟩

end Lobbyboy.Server
