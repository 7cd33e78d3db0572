import Lobbyboy.Server.Auth

/-! When the public-key callback answers as the lines of the user ask for. It has no answer
for an unknown user, and a line it cannot take apart ends the attempt; and as it decodes a
line to its end, a comment can be taken for more of the key. -/

namespace Lobbyboy.Server

open Foundation Utils Config Base64

variable {Key : Type} {keys : PublicKeys Key} {importModule : Importer}
  {file : Except PyExc PyDict} {username : String} {key : Key} {cls : KeyClass}
  {line : List Char} {lines : List (List Char)} {pairs : List (List (List Char))}

/-! ### Lines -/

/-- The data is that of a key equal to the one offered. -/
def DataOf (keys : PublicKeys Key) (cls : KeyClass) (key : Key) (data : Bytes) : Prop :=
  ∃ k, keys.ofData cls data = .ok k ∧ keys.beq key k = true

/-- The type of the key, a word of base64 with its data, and perhaps a comment. -/
def StandardLine (keys : PublicKeys Key) (cls : KeyClass) (key : Key) (line : List Char) : Prop :=
  ∃ lead gap word tail data, line = lead ++ ((keys.getName key).toList ++ (gap ++ (word ++ tail))) ∧
    (∀ c ∈ lead, isSpace c) ∧ gap ≠ [] ∧ (∀ c ∈ gap, isSpace c) ∧ word ≠ [] ∧
      (∀ c ∈ tail.head?, isSpace c) ∧ decodeStandard word = some data ∧ DataOf keys cls key data

/-- Two words, the second of which is that of some key if the type is the one offered. -/
def Readable (keys : PublicKeys Key) (cls : KeyClass) (key : Key) (line : List Char) : Prop :=
  ∃ keyType keyData, splitWords line = [keyType, keyData] ∧
    (keyType = (keys.getName key).toList →
      ∃ data k, b64decode (String.ofList keyData) = .ok data ∧ keys.ofData cls data = .ok k)

/-- With these lines the answer is right: what comes before the first line that decodes to
the key is readable, and there is such a line exactly if there is one in standard form. -/
def RightLines (keys : PublicKeys Key) (cls : KeyClass) (key : Key)
    (lines : List (List Char)) : Prop :=
  (∃ pre line post, lines = pre ++ line :: post ∧ Decodes keys key line ∧
    (∀ l ∈ pre, Readable keys cls key l) ∧ ∃ l ∈ lines, StandardLine keys cls key l) ∨
  ∀ l ∈ lines, Readable keys cls key l ∧ ¬ Decodes keys key l ∧ ¬ StandardLine keys cls key l

/-! ### The loop -/

theorem tryPairs_of_decodes (h : Decodes keys key line) :
    tryPairs keys key (splitWords line :: pairs) = .ok .successful := by
  obtain ⟨keyData, cls, data, k, hwords, hcls, hdata, hk, heq⟩ := h
  have hauth : tryAuth keys key (String.ofList keyData) = .ok true :=
    tryAuth_eq_ok_iff.mpr ⟨cls, data, k, hcls, hdata, hk, heq⟩
  simp [hwords, tryPairs, hauth, pure, Except.pure]

theorem tryPairs_of_readable (hcls : getKeyClass (lower (keys.getName key)) = .ok cls)
    (h : Readable keys cls key line) (hnot : ¬ Decodes keys key line) :
    tryPairs keys key (splitWords line :: pairs) = tryPairs keys key pairs := by
  obtain ⟨keyType, keyData, hwords, hkey⟩ := h
  by_cases htype : keyType = (keys.getName key).toList
  · obtain ⟨data, k, hdata, hk⟩ := hkey htype
    have hne : keys.beq key k = false := by
      by_contra heq
      exact hnot ⟨keyData, cls, data, k, htype ▸ hwords, hcls, hdata, hk,
        Bool.not_eq_false _ ▸ heq⟩
    have hauth : tryAuth keys key (String.ofList keyData) = .ok false :=
      tryAuth_eq_ok_iff.mpr ⟨cls, data, k, hcls, hdata, hk, hne⟩
    simp [hwords, htype, tryPairs, hauth]
  · have hother : keys.getName key ≠ String.ofList keyType := by
      rintro heq
      rw [heq, String.toList_ofList] at htype
      exact htype rfl
    rw [hwords, tryPairs, if_pos hother]

theorem tryPairs_of_not_readable (hcls : getKeyClass (lower (keys.getName key)) = .ok cls)
    (h : ¬ Readable keys cls key line) :
    ∃ e, tryPairs keys key (splitWords line :: pairs) = .error e := by
  generalize hwords : splitWords line = words
  match words with
  | [] | [_] | _ :: _ :: _ :: _ => exact ⟨_, rfl⟩
  | [keyType, keyData] =>
    have htype : keys.getName key = String.ofList keyType := by
      by_contra hother
      refine h ⟨keyType, keyData, hwords, fun heq => absurd ?_ hother⟩
      rw [heq, String.ofList_toList]
    have hauth : ∃ e, tryAuth keys key (String.ofList keyData) = .error e := by
      cases hb : tryAuth keys key (String.ofList keyData) with
      | error e => exact ⟨e, rfl⟩
      | ok b =>
        obtain ⟨cls', data, k, hcls', hdata, hk, -⟩ := tryAuth_eq_ok_iff.mp hb
        have heq : cls' = cls := Except.ok.inj (hcls'.symm.trans hcls)
        exact absurd ⟨keyType, keyData, hwords, fun _ => ⟨data, k, hdata, heq ▸ hk⟩⟩ h
    obtain ⟨e, he⟩ := hauth
    exact ⟨e, by simp [tryPairs, htype, he, bind, Except.bind]⟩

theorem tryPairs_eq_successful_iff (hcls : getKeyClass (lower (keys.getName key)) = .ok cls) :
    tryPairs keys key (lines.map splitWords) = .ok .successful ↔
      ∃ pre line post, lines = pre ++ line :: post ∧ Decodes keys key line ∧
        ∀ l ∈ pre, Readable keys cls key l := by
  induction lines with
  | nil => simp [tryPairs]
  | cons line lines ih =>
    by_cases hdecodes : Decodes keys key line
    · rw [List.map_cons, tryPairs_of_decodes hdecodes]
      exact ⟨fun _ => ⟨[], line, lines, rfl, hdecodes, by simp⟩, fun _ => rfl⟩
    · by_cases hread : Readable keys cls key line
      · rw [List.map_cons, tryPairs_of_readable hcls hread hdecodes, ih]
        constructor
        · rintro ⟨pre, l, post, rfl, hl, hpre⟩
          exact ⟨line :: pre, l, post, rfl, hl, List.forall_mem_cons.mpr ⟨hread, hpre⟩⟩
        · rintro ⟨pre, l, post, heq, hl, hpre⟩
          rcases List.cons_eq_append_iff.mp heq with ⟨rfl, hhead⟩ | ⟨pre', rfl, hrest⟩
          · cases hhead
            exact absurd hl hdecodes
          · exact ⟨pre', l, post, hrest, hl, (List.forall_mem_cons.mp hpre).2⟩
      · obtain ⟨e, he⟩ : ∃ e, tryPairs keys key (splitWords line :: lines.map splitWords) =
            .error e := tryPairs_of_not_readable hcls hread
        rw [List.map_cons, he]
        simp only [reduceCtorEq, false_iff]
        rintro ⟨pre, l, post, heq, hl, hpre⟩
        rcases List.cons_eq_append_iff.mp heq with ⟨rfl, hhead⟩ | ⟨pre', rfl, -⟩
        · cases hhead
          exact hdecodes hl
        · exact hread (List.forall_mem_cons.mp hpre).1

theorem tryPairs_eq_failed_iff (hcls : getKeyClass (lower (keys.getName key)) = .ok cls) :
    tryPairs keys key (lines.map splitWords) = .ok .failed ↔
      ∀ l ∈ lines, Readable keys cls key l ∧ ¬ Decodes keys key l := by
  induction lines with
  | nil => simp [tryPairs]
  | cons line lines ih =>
    rw [List.map_cons, List.forall_mem_cons]
    by_cases hdecodes : Decodes keys key line
    · simp [tryPairs_of_decodes hdecodes, hdecodes]
    · by_cases hread : Readable keys cls key line
      · simp [tryPairs_of_readable hcls hread hdecodes, hdecodes, hread, ih]
      · obtain ⟨e, he⟩ : ∃ e, tryPairs keys key (splitWords line :: lines.map splitWords) =
            .error e := tryPairs_of_not_readable hcls hread
        simp [he, hread]

/-! ### A line in standard form -/

theorem takeWhile_append_cons {p : Char → Bool} {c : Char} {xs ys : List Char}
    (hxs : ∀ x ∈ xs, p x) (hc : p c = false) : (xs ++ c :: ys).takeWhile p = xs := by
  rw [List.takeWhile_append_of_pos hxs, List.takeWhile_cons_of_neg (by simp [hc]), List.append_nil]

theorem dropWhile_append_cons {p : Char → Bool} {c : Char} {xs ys : List Char}
    (hxs : ∀ x ∈ xs, p x) (hc : p c = false) : (xs ++ c :: ys).dropWhile p = c :: ys := by
  rw [List.dropWhile_append_of_pos hxs, List.dropWhile_cons_of_neg (by simp [hc])]

theorem splitWords_eq {lead word gap rest : List Char} {c : Char}
    (hlead : ∀ c ∈ lead, isSpace c) (hne : word ≠ []) (hword : ∀ c ∈ word, isSpace c = false)
    (hgap : ∀ c ∈ gap, isSpace c) (hgapne : gap ≠ []) (hc : isSpace c = false) :
    splitWords (lead ++ (word ++ (gap ++ c :: rest))) = [word, c :: rest] := by
  obtain ⟨w, ws, rfl⟩ := List.exists_cons_of_ne_nil hne
  obtain ⟨g, gs, rfl⟩ := List.exists_cons_of_ne_nil hgapne
  have hg : (!isSpace g) = false := by simp [hgap g List.mem_cons_self]
  have hstart : (lead ++ (w :: ws ++ (g :: gs ++ c :: rest))).dropWhile isSpace =
      w :: ws ++ (g :: gs ++ c :: rest) :=
    dropWhile_append_cons hlead (hword w List.mem_cons_self)
  have htake : (w :: ws ++ (g :: gs ++ c :: rest)).takeWhile (fun c => !isSpace c) = w :: ws :=
    takeWhile_append_cons (by simpa using hword) hg
  have hdrop : (w :: ws ++ (g :: gs ++ c :: rest)).dropWhile (fun c => !isSpace c) =
      g :: gs ++ c :: rest :=
    dropWhile_append_cons (by simpa using hword) hg
  have hrest : (g :: gs ++ c :: rest).dropWhile isSpace = c :: rest :=
    dropWhile_append_cons hgap hc
  simp only [splitWords, hstart, htake, hdrop, hrest]
  simp

theorem name_of_getKeyClass {name : String} (h : getKeyClass name = .ok cls) :
    lower name = name ∧ name.toList ≠ [] ∧ ∀ c ∈ name.toList, isSpace c = false := by
  unfold getKeyClass at h
  split at h
  · next cls' hlookup =>
    obtain ⟨l₁, l₂, hsplit, -⟩ := List.lookup_eq_some_iff.mp hlookup
    have hmem : (name, cls') ∈ keyClasses := by
      rw [hsplit]
      simp
    simp only [keyClasses, List.mem_cons, Prod.mk.injEq, List.not_mem_nil, or_false] at hmem
    rcases hmem with ⟨rfl, -⟩ | ⟨rfl, -⟩ | ⟨rfl, -⟩ | ⟨rfl, -⟩ <;>
      exact ⟨by decide +kernel, by decide, by simp [isSpace]⟩
  · cases h

theorem isSpace_of_mid {c : Char} (h : 43 ≤ c.toNat ∧ c.toNat ≤ 122) : isSpace c = false := by
  simp only [isSpace, Bool.or_eq_false_iff, Bool.and_eq_false_iff, decide_eq_false_iff_not]
  omega

/-- A standard line is accepted if its comment, in ASCII, does not touch the word before
it: the word is padded, or nothing in the comment is of the alphabet. -/
theorem decodes_of_standard {lead gap word tail : List Char} {data : Bytes}
    (hcls : getKeyClass (keys.getName key) = .ok cls) (hlead : ∀ c ∈ lead, isSpace c)
    (hgapne : gap ≠ []) (hgap : ∀ c ∈ gap, isSpace c) (hwordne : word ≠ [])
    (hdecode : decodeStandard word = some data) (hdata : DataOf keys cls key data)
    (hascii : ∀ c ∈ tail, c.toNat < 128)
    (hharmless : '=' ∈ word ∨ ∀ c ∈ tail, value? c = none) :
    Decodes keys key (lead ++ ((keys.getName key).toList ++ (gap ++ (word ++ tail)))) := by
  obtain ⟨hlower, hnamene, hname⟩ := name_of_getKeyClass hcls
  obtain ⟨k, hk, heq⟩ := hdata
  obtain ⟨w, ws, rfl⟩ := List.exists_cons_of_ne_nil hwordne
  have hchars := mem_of_decodeStandard hdecode
  have hw : isSpace w = false := isSpace_of_mid (hchars w List.mem_cons_self)
  have hlenient : decodeLenient (w :: ws ++ tail) = some data := by
    rcases hharmless with hpad | htail
    · rw [decodeLenient_append hdecode, if_pos hpad]
    · exact decodeLenient_append_of_no_value hdecode htail
  have hall : ∀ c ∈ w :: ws ++ tail, c.toNat < 128 := by
    intro c hc
    rcases List.mem_append.mp hc with hc | hc
    · exact (hchars c hc).2.trans_lt (by decide)
    · exact hascii c hc
  have hb64 : b64decode (String.ofList (w :: ws ++ tail)) = .ok data := by
    rw [b64decode, String.toList_ofList, if_pos (List.all_eq_true.mpr (by simpa using hall)),
      hlenient]
  refine ⟨w :: ws ++ tail, cls, data, k, ?_, ?_, hb64, hk, heq⟩
  · exact splitWords_eq hlead hnamene hname hgap hgapne hw
  · rw [hlower]
    exact hcls

/-! ### The callback -/

/-- The text of a user, if `auth_key_pairs` can take it apart; what is false counts as
empty. -/
def authorizedText (user : Confirmed) : Option String :=
  match user.attr? "authorized_keys" with
  | some (.str text) => some text
  | some v => if v.truthy then none else some ""
  | none => none

/-- Some line of the user is in standard form for the key. -/
def HasStandardLine (keys : PublicKeys Key) (cls : KeyClass) (key : Key) (config : LBConfig)
    (username : String) : Prop :=
  ∃ user text, config.user.get? username = some user ∧ authorizedText user = some text ∧
    ∃ line ∈ text.toList.splitOn '\n', StandardLine keys cls key line

theorem authKeyPairs_of_text {user : Confirmed} {text : String}
    (h : authorizedText user = some text) :
    authKeyPairs user = .ok ((sshKeys text).map splitWords) := by
  cases user with
  | raw v => cases h
  | object attrs =>
    simp only [authorizedText] at h
    split at h
    · next s hs =>
      cases h
      simp only [authKeyPairs, getattr, hs, ok_bind]
      by_cases hempty : text = ""
      · subst hempty
        rfl
      · simp [PyVal.truthy, hempty, pure, Except.pure]
    · next v _ hv =>
      split_ifs at h with htruthy
      cases h
      simp only [authKeyPairs, getattr, hv, ok_bind, if_neg htruthy]
      rfl
    · cases h

theorem authKeyPairs_of_no_text {user : Confirmed} (h : authorizedText user = none) :
    ∃ e, authKeyPairs user = .error e := by
  cases user with
  | raw v => exact ⟨_, rfl⟩
  | object attrs =>
    simp only [authorizedText] at h
    split at h
    · cases h
    · next v _ hv =>
      split_ifs at h with htruthy
      simp only [authKeyPairs, getattr, hv, ok_bind, if_pos htruthy]
      cases v <;> exact ⟨_, rfl⟩
    · next hv =>
      simp only [authKeyPairs, getattr, hv]
      exact ⟨_, rfl⟩

/-- The empty lines the code leaves out are in no form. -/
theorem exists_standardLine_iff {text : String} :
    (∃ line ∈ text.toList.splitOn '\n', StandardLine keys cls key line) ↔
      ∃ line ∈ sshKeys text, StandardLine keys cls key line := by
  constructor
  · rintro ⟨line, hmem, hstandard⟩
    refine ⟨line, ?_, hstandard⟩
    obtain ⟨lead, gap, word, tail, data, rfl, -, hgapne, -⟩ := hstandard
    have hne : lead ++ ((keys.getName key).toList ++ (gap ++ (word ++ tail))) ≠ [] := by
      simp [hgapne]
    simpa [sshKeys, hne] using hmem
  · rintro ⟨line, hmem, hstandard⟩
    exact ⟨line, (List.mem_filter.mp hmem).1, hstandard⟩

/-- For the lines of a known user the loop answers right exactly with `RightLines`. -/
theorem tryPairs_right_iff (hcls : getKeyClass (lower (keys.getName key)) = .ok cls) :
    (((∃ l ∈ lines, StandardLine keys cls key l) →
        tryPairs keys key (lines.map splitWords) = .ok .successful) ∧
      ((¬ ∃ l ∈ lines, StandardLine keys cls key l) →
        tryPairs keys key (lines.map splitWords) = .ok .failed)) ↔
      RightLines keys cls key lines := by
  rw [tryPairs_eq_successful_iff hcls, tryPairs_eq_failed_iff hcls]
  constructor
  · rintro ⟨hyes, hno⟩
    by_cases hstandard : ∃ l ∈ lines, StandardLine keys cls key l
    · obtain ⟨pre, line, post, heq, hline, hpre⟩ := hyes hstandard
      exact .inl ⟨pre, line, post, heq, hline, hpre, hstandard⟩
    · refine .inr fun l hl => ⟨(hno hstandard l hl).1, (hno hstandard l hl).2, fun hl' => ?_⟩
      exact hstandard ⟨l, hl, hl'⟩
  · rintro (⟨pre, line, post, heq, hline, hpre, hstandard⟩ | hnone)
    · exact ⟨fun _ => ⟨pre, line, post, heq, hline, hpre⟩, fun hno => absurd hstandard hno⟩
    · constructor
      · rintro ⟨l, hl, hstandard⟩
        exact absurd hstandard (hnone l hl).2.2
      · exact fun _ l hl => ⟨(hnone l hl).1, (hnone l hl).2.1⟩

theorem hasStandardLine_iff {config : LBConfig} {user : Confirmed} {text : String}
    (huser : config.user.get? username = some user) (htext : authorizedText user = some text) :
    HasStandardLine keys cls key config username ↔
      ∃ line ∈ sshKeys text, StandardLine keys cls key line := by
  rw [← exists_standardLine_iff]
  constructor
  · rintro ⟨user', text', hsome, htext', h⟩
    cases huser.symm.trans hsome
    cases htext.symm.trans htext'
    exact h
  · exact fun h => ⟨user, text, huser, htext, h⟩

/-- Neither answer was given. -/
theorem not_right_of_raises {P : Prop} {e : PyExc} :
    ¬ ((P → (.error e : Except PyExc AuthResult) = .ok .successful) ∧
      (¬ P → (.error e : Except PyExc AuthResult) = .ok .failed)) := by
  rintro ⟨hyes, hno⟩
  by_cases h : P
  · cases hyes h
  · cases hno h

/-- The callback says yes to a user with a standard line for the key and no to everybody
else exactly if the user is known and the lines are such that the answer is right. -/
theorem checkAuthPublickey_right_iff {config : LBConfig}
    (hconfig : LBConfig.reload importModule file = .ok config)
    (hcls : getKeyClass (keys.getName key) = .ok cls) :
    ((HasStandardLine keys cls key config username →
        checkAuthPublickey keys importModule file username key = .ok .successful) ∧
      (¬ HasStandardLine keys cls key config username →
        checkAuthPublickey keys importModule file username key = .ok .failed)) ↔
      ∃ user text, config.user.get? username = some user ∧ authorizedText user = some text ∧
        RightLines keys cls key (sshKeys text) := by
  have hlower : getKeyClass (lower (keys.getName key)) = .ok cls := by
    rw [(name_of_getKeyClass hcls).1]
    exact hcls
  rw [checkAuthPublickey, hconfig, ok_bind]
  cases huser : config.user.get? username with
  | none => exact ⟨fun h => absurd h not_right_of_raises, fun ⟨_, _, h, _⟩ => by cases h⟩
  | some user =>
    cases htext : authorizedText user with
    | none =>
      obtain ⟨e, he⟩ := authKeyPairs_of_no_text htext
      dsimp only
      rw [he]
      refine ⟨fun h => absurd h not_right_of_raises, ?_⟩
      rintro ⟨user', text, hsome, htext', -⟩
      cases hsome
      rw [htext] at htext'
      cases htext'
    | some text =>
      dsimp only
      rw [authKeyPairs_of_text htext, ok_bind, hasStandardLine_iff huser htext,
        tryPairs_right_iff hlower]
      constructor
      · exact fun h => ⟨user, text, rfl, htext, h⟩
      · rintro ⟨user', text', hsome, htext', h⟩
        cases hsome
        cases htext.symm.trans htext'
        exact h

def zeroKey : Bytes := List.replicate 32 0

/-- The line of that key, without a comment. -/
def zeroLine : String :=
  "ssh-ed25519 AAAAC3NzaC1lZDI1NTE5AAAAIAAAAAAAAAAAAAAAAAAAAAAAAAAAAAAAAAAAAAAAAAAA"

def zeroData : Bytes := [0, 0, 0, 11] ++ "ssh-ed25519".toUTF8.toList ++ [0, 0, 0, 32] ++ zeroKey

theorem zeroData_dataOf : DataOf ed25519Keys .ed25519Key zeroKey zeroData :=
  ⟨zeroKey, by decide +kernel, by decide⟩

theorem zeroLine_standard (tail : List Char) (h : ∀ c ∈ tail.head?, isSpace c) :
    StandardLine ed25519Keys .ed25519Key zeroKey (zeroLine.toList ++ tail) := by
  refine ⟨[], [' '], zeroLine.toList.drop 12, tail, zeroData, ?_, by simp, by simp,
    by simp [isSpace], by decide, h, by decide +kernel, zeroData_dataOf⟩
  rw [← List.append_assoc, ← List.append_assoc, ← List.append_assoc]
  congr 1

/-- The line alone is accepted. -/
theorem zeroLine_accepted :
    checkAuthPublickey ed25519Keys noModule (.ok (userFile zeroLine)) "Gustave" zeroKey =
      .ok .successful := by
  have hlines : sshKeys zeroLine = [zeroLine.toList] := by decide +kernel
  have hstandard : StandardLine ed25519Keys .ed25519Key zeroKey zeroLine.toList := by
    simpa using zeroLine_standard [] (by simp)
  have hdecodes : Decodes ed25519Keys zeroKey zeroLine.toList :=
    ⟨zeroLine.toList.drop 12, .ed25519Key, zeroData, zeroKey, by decide +kernel, rfl,
      by decide +kernel, by decide +kernel, by decide⟩
  have hright : RightLines ed25519Keys .ed25519Key zeroKey (sshKeys zeroLine) := by
    rw [hlines]
    exact .inl ⟨[], _, [], rfl, hdecodes, by simp, _, List.mem_singleton_self _, hstandard⟩
  have hreload : LBConfig.reload noModule (.ok (userFile zeroLine)) = .ok _ := rfl
  refine ((checkAuthPublickey_right_iff hreload rfl).mpr ⟨_, zeroLine, rfl, rfl, hright⟩).1
    ⟨_, zeroLine, rfl, rfl, zeroLine.toList, ?_, hstandard⟩
  decide +kernel

/-- An unknown user, a line of one blank, and a comment of six letters after a key without
padding. -/
theorem publickey_raises :
    checkAuthPublickey ed25519Keys noModule (.ok (userFile zeroLine)) "Zero" zeroKey =
        .error ⟨.keyError, "Zero"⟩ ∧
      checkAuthPublickey ed25519Keys noModule (.ok (userFile (" \n" ++ zeroLine))) "Gustave"
        zeroKey = .error ⟨.valueError, "not enough values to unpack (expected 2, got 0)"⟩ ∧
      StandardLine ed25519Keys .ed25519Key zeroKey (zeroLine ++ " me@host").toList ∧
      checkAuthPublickey ed25519Keys noModule (.ok (userFile (zeroLine ++ " me@host"))) "Gustave"
        zeroKey = .error ⟨.valueError, "Incorrect padding"⟩ := by
  refine ⟨by decide +kernel, by decide +kernel, ?_, by decide +kernel⟩
  rw [String.toList_append]
  exact zeroLine_standard _ (by simp [isSpace])

end Lobbyboy.Server
