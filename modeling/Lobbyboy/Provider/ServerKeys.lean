import Lobbyboy.Foundation.Transition
import Lobbyboy.Provider.Creation
import Lobbyboy.Utils.SshKeys

/-! The keys of new servers. Each server has a key pair of its own in its workspace; the
public half is handed to the cloud together with the configured keys, and the path of the
private half is what `ssh` is given when the server is connected to. -/

namespace Lobbyboy.Provider

open Foundation Utils Config

namespace BaseProvider

variable (p : BaseProvider)

/-- The configured list, which all calls share, and the disk. -/
structure KeyState where
  extraSshKeys : List String
  files : FileTree

abbrev WithKeys := EStateM PyExc KeyState

def onDisk {α : Type} (program : OnDisk α) : WithKeys α := fun s =>
  match program s.files with
  | .ok a t => .ok a { s with files := t }
  | .error e t => .error e { s with files := t }

def collectionSshKeys (fresh : Generator) (generate : Bool := true)
    (savePath : Option PosixPath := none) : WithKeys (List String) := do
  -- `extra_ssh_keys[::]` is a new list
  let sshKeys := (← get).extraSshKeys
  if generate then
    let sshKeyPath := (savePath.getD p.workspace).joinpath ".ssh"
    let (_, pubKey) ← onDisk (confirmSshKeyPair sshKeyPath .rsa none fresh)
    return sshKeys ++ [pubKey]
  else return sshKeys

def defaultPrivateKeyPath (workspace : Option PosixPath := none)
    (keyType : KeyTypeSupport := .rsa) : PosixPath :=
  (workspace.getD p.workspace).joinpath (".ssh/" ++ keyType.defaultKeyName)

/-- The method of the base class. -/
def sshServerCommand (m : LBServerMeta) (priKeyPath : Option PosixPath := none) : List String :=
  let priKeyPath := priKeyPath.getD (p.defaultPrivateKeyPath (some m.workspace))
  ["ssh", "-i", priKeyPath.str, "-o", "StrictHostKeyChecking=no", "-p", toString m.serverPort, "-l",
    m.serverUser] ++ m.sshExtraArgs ++ [m.serverHost]

end BaseProvider

open BaseProvider

@[simp] theorem wp_onDisk {α : Type} {Q : α → KeyState → Prop} {E : PyExc → KeyState → Prop}
    {s : KeyState} (program : OnDisk α) :
    wp (onDisk program) Q E s ↔ wp program (fun a t => Q a { s with files := t })
      (fun e t => E e { s with files := t }) s.files := by
  simp only [wp_iff, onDisk]
  cases program s.files <;> simp

/-! ### The key of a workspace -/

section Workspace

variable {v w : PosixPath} {t t' : FileTree}

/-- Where the private key of a workspace is saved. -/
def savedPrivateKey (w : PosixPath) : PosixPath := privateKeyFile (w.joinpath ".ssh") .rsa none

def savedPublicKey (w : PosixPath) : PosixPath := publicKeyFile (w.joinpath ".ssh") .rsa none

/-- The two functions that build the path of the private key agree. -/
theorem savedPrivateKey_eq (p : BaseProvider) (w : PosixPath) :
    savedPrivateKey w = p.defaultPrivateKeyPath (some w) := by
  ext1
  · rfl
  · exact List.append_assoc w.parts _ _

theorem isName_ssh : PosixPath.IsName ".ssh" ".ssh".toList := by decide

theorem isName_private : PosixPath.IsName (keyNameOr .rsa none) "id_rsa".toList := by decide

theorem isName_public : PosixPath.IsName (keyNameOr .rsa none ++ ".pub") "id_rsa.pub".toList := by
  decide

/-- No key was made for that workspace, and there is room for one. -/
structure Fresh (t : FileTree) (w : PosixPath) : Prop where
  privateKey : t.node (savedPrivateKey w) = none
  publicKey : t.node (savedPublicKey w) = none
  room : ∀ a, a.isAbove (w.joinpath ".ssh") = true → t.isFile a = false

/-- What a call leaves in the directories and files. -/
structure Saved (w : PosixPath) (key : PKey) (t t' : FileTree) : Prop where
  privateKey : t'.node (savedPrivateKey w) = some (.file (Utf8.encode key.privateKey))
  publicKey : t'.node (savedPublicKey w) = some (.file (Utf8.encode key.publicKey))
  others : ∀ q, q ≠ savedPrivateKey w → q ≠ savedPublicKey w →
    t'.node q = if q.isAbove (w.joinpath ".ssh") then some .dir else t.node q

theorem confirmSshKeyPair_of_fresh (h : Fresh t w) (key : PKey) :
    ∃ t', confirmSshKeyPair (w.joinpath ".ssh") .rsa none (fun _ _ => .ok key) none t =
      .ok (key.privateKey, key.publicKey) t' ∧ Saved w key t t' := by
  have hne : savedPrivateKey w ≠ savedPublicKey w := privateKeyFile_ne_publicKeyFile _ _ _
  have hpri : (savedPrivateKey w).isAbove (w.joinpath ".ssh") = false :=
    PosixPath.child_not_isAbove isName_private
  have hpub : (savedPublicKey w).isAbove (w.joinpath ".ssh") = false :=
    PosixPath.child_not_isAbove isName_public
  have hpri' : (savedPrivateKey w).parent = w.joinpath ".ssh" :=
    PosixPath.parent_child isName_private
  have hpub' : (savedPublicKey w).parent = w.joinpath ".ssh" :=
    PosixPath.parent_child isName_public
  have hdir : w.joinpath ".ssh" ≠ savedPrivateKey w := by
    intro heq
    rw [← heq, PosixPath.isAbove_self] at hpri
    cases hpri
  obtain ⟨t₁, h₁⟩ := FileTree.makeDirs_ok_iff.mpr h.room
  have hnode₁ := FileTree.node_makeDirs h₁
  have habsent : t₁.node (savedPrivateKey w) = none := by simp [hnode₁, hpri, h.privateKey]
  obtain ⟨t₂, h₂⟩ := (FileTree.write_ok_iff (Utf8.encode key.privateKey)).mpr
    (show t₁.Writable (savedPrivateKey w) by
      simp [FileTree.Writable, habsent, hnode₁, hpri'])
  have hnode₂ := FileTree.node_write h₂
  obtain ⟨t₃, h₃⟩ := (FileTree.write_ok_iff (Utf8.encode key.publicKey)).mpr
    (show t₂.Writable (savedPublicKey w) by
      simp [FileTree.Writable, hnode₂, hnode₁, hpub, hpub', h.publicKey, hne.symm, hdir])
  have hnode₃ := FileTree.node_write h₃
  refine ⟨t₃, ?_, ?_, ?_, fun q hq hq' => ?_⟩
  · exact confirmSshKeyPair_of_absent (by decide) rfl h.privateKey h.publicKey h₁ habsent h₂ h₃
  · rw [hnode₃, if_neg hne, hnode₂, if_pos rfl]
  · rw [hnode₃, if_pos rfl]
  · rw [hnode₃, if_neg hq', hnode₂, if_neg hq, hnode₁]

/-- Every text that could be read can still be read. -/
def Unchanged (t t' : FileTree) : Prop :=
  ∀ q text, readText t q = .ok text → readText t' q = .ok text

theorem Saved.unchanged {key : PKey} (hsaved : Saved w key t t') (h : Fresh t w) :
    Unchanged t t' := by
  intro q text htext
  have hfile := isFile_of_readText htext
  obtain ⟨bytes, hbytes⟩ := t.isFile_iff.mp hfile
  rw [← htext]
  refine readText_congr (.symm ?_)
  have hpri : q ≠ savedPrivateKey w := by
    rintro rfl
    rw [h.privateKey] at hbytes
    cases hbytes
  have hpub : q ≠ savedPublicKey w := by
    rintro rfl
    rw [h.publicKey] at hbytes
    cases hbytes
  rw [hsaved.others q hpri hpub, if_neg]
  intro habove
  rw [h.room q habove] at hfile
  cases hfile

/-- The workspaces differ, and none is inside a key file of the other. -/
structure Apart (v w : PosixPath) : Prop where
  ne : v ≠ w
  privateKey : (savedPrivateKey v).isAbove w = false
  publicKey : (savedPublicKey v).isAbove w = false

/-- Workspaces of which none is inside the other. -/
theorem apart_of_not_isAbove (h : v.isAbove w = false) : Apart v w := by
  have hchild : ∀ {name part}, PosixPath.IsName name part →
      ((v.joinpath ".ssh").joinpath name).isAbove w = false := by
    intro name part hname
    rw [Bool.eq_false_iff] at h ⊢
    exact fun habove => h (PosixPath.isAbove_trans (PosixPath.isAbove_trans
      (PosixPath.isAbove_child isName_ssh) (PosixPath.isAbove_child hname)) habove)
  refine ⟨?_, hchild isName_private, hchild isName_public⟩
  rintro rfl
  rw [PosixPath.isAbove_self] at h
  cases h

/-- A workspace stays fresh while others get their keys. -/
theorem Fresh.of_saved {key : PKey} (hw : Fresh t w) (hsaved : Saved v key t t')
    (hvw : Apart v w) (hwv : Apart w v) : Fresh t' w := by
  have hssh : w.joinpath ".ssh" ≠ v.joinpath ".ssh" := fun h =>
    hwv.ne (PosixPath.child_injective isName_ssh h)
  have hpri : (savedPrivateKey w).isAbove (v.joinpath ".ssh") ≠ true := fun h =>
    Bool.eq_false_iff.mp hwv.privateKey
      (PosixPath.isAbove_of_child isName_private isName_ssh (by decide) h)
  have hpub : (savedPublicKey w).isAbove (v.joinpath ".ssh") ≠ true := fun h =>
    Bool.eq_false_iff.mp hwv.publicKey
      (PosixPath.isAbove_of_child isName_public isName_ssh (by decide) h)
  refine ⟨?_, ?_, fun a ha => ?_⟩
  · rw [hsaved.others, if_neg hpri, hw.privateKey]
    · exact fun h => hssh (PosixPath.child_injective isName_private h)
    · exact PosixPath.child_ne isName_private isName_public (by decide) _
  · rw [hsaved.others, if_neg hpub, hw.publicKey]
    · exact PosixPath.child_ne isName_public isName_private (by decide) _
    · exact fun h => hssh (PosixPath.child_injective isName_public h)
  · have hne : a ≠ savedPrivateKey v := by
      rintro rfl
      exact Bool.eq_false_iff.mp hvw.privateKey
        (PosixPath.isAbove_of_child isName_private isName_ssh (by decide) ha)
    have hne' : a ≠ savedPublicKey v := by
      rintro rfl
      exact Bool.eq_false_iff.mp hvw.publicKey
        (PosixPath.isAbove_of_child isName_public isName_ssh (by decide) ha)
    rw [FileTree.isFile, hsaved.others a hne hne']
    split_ifs
    · rfl
    · exact hw.room a ha

end Workspace

/-! ### Runs of creations -/

/-- The creation of a server: its workspace, and the key pair that is generated for it. -/
structure KeyCall where
  workspace : PosixPath
  key : PKey

section Runs

variable (p : BaseProvider)

/-- `collection_ssh_keys(save_path=workspace)`. -/
def KeyCall.collect (c : KeyCall) : WithKeys (List String) :=
  p.collectionSshKeys (fun _ _ => .ok c.key) true (some c.workspace)

def keyStep (s : KeyState) (c : KeyCall) : Option KeyState :=
  match c.collect p s with
  | .ok _ s' => some s'
  | .error _ _ => none

variable {p}

theorem collect_of_fresh {s : KeyState} {c : KeyCall} (h : Fresh s.files c.workspace) :
    ∃ t', c.collect p s = .ok (s.extraSshKeys ++ [c.key.publicKey]) { s with files := t' } ∧
      Saved c.workspace c.key s.files t' := by
  obtain ⟨t', hconfirm, hsaved⟩ := confirmSshKeyPair_of_fresh h c.key
  refine ⟨t', eq_ok_of_wp ?_, hsaved⟩
  rw [KeyCall.collect, BaseProvider.collectionSshKeys, wp_bind, wp_get, wp_ite, if_pos rfl, wp_bind,
    wp_onDisk, Option.getD_some, wp_eq_ok hconfirm, wp_pure]
  exact ⟨rfl, rfl⟩

/-- What a creation is told by its environment is what the call returns, if it is told the
key of that workspace. -/
theorem collectionSshKeys_collects {T : Type} {env : Env T} {w : World T} {s : KeyState}
    {c : KeyCall} (h : Fresh s.files c.workspace)
    (hextra : s.extraSshKeys = p.providerConfig.extraSshKeys)
    (hkey : env.publicKey w.next.tick = c.key.publicKey) :
    wp (Provider.collectionSshKeys env p)
      (fun sshKeys _ => ∃ s', c.collect p s = .ok sshKeys s')
      (fun e _ => ∃ x, env.raises w.tick = some x ∧ e = .raised x) w := by
  obtain ⟨t', hcollect, -⟩ := collect_of_fresh (p := p) h
  rw [hextra, ← hkey] at hcollect
  unfold Provider.collectionSshKeys
  rw [wp_bind, wp_call]
  refine ⟨fun _ => ?_, fun x hx => ⟨x, hx, rfl⟩⟩
  rw [wp_bind, wp_tick, wp_pure]
  exact ⟨_, hcollect⟩

/-- The workspace has no key yet. -/
def FreshCall (s : KeyState) (c : KeyCall) : Prop := Fresh s.files c.workspace

theorem keyStep_of_fresh {s : KeyState} {c : KeyCall} (h : FreshCall s c) :
    ∃ t', keyStep p s c = some { s with files := t' } ∧
      Saved c.workspace c.key s.files t' := by
  obtain ⟨t', hcollect, hsaved⟩ := collect_of_fresh (p := p) h
  exact ⟨t', by rw [keyStep, hcollect], hsaved⟩

/-- The shared list is never appended to, and every text stays. -/
theorem keyRun_keeps {calls : List KeyCall} {s s' : KeyState}
    (hfresh : Along (keyStep p) FreshCall s calls) (hr : run (keyStep p) s calls = some s') :
    s'.extraSshKeys = s.extraSshKeys ∧ Unchanged s.files s'.files := by
  refine run_invariant
    (P := fun s₁ => s₁.extraSshKeys = s.extraSshKeys ∧ Unchanged s.files s₁.files)
    (fun {s₁ c s₂} hc hs₁ h => ?_) hfresh ⟨rfl, fun _ _ => id⟩ hr
  obtain ⟨t', hstep, hsaved⟩ := keyStep_of_fresh (p := p) hc
  cases hstep.symm.trans h
  exact ⟨hs₁.1, fun q text htext => hsaved.unchanged hc q text (hs₁.2 q text htext)⟩

/-- Workspaces that are fresh, and apart from each other, are fresh when their turn comes. -/
theorem along_freshCall {calls : List KeyCall} {s : KeyState} (hfresh : ∀ c ∈ calls, FreshCall s c)
    (hapart : calls.Pairwise fun c d =>
      Apart c.workspace d.workspace ∧ Apart d.workspace c.workspace) :
    Along (keyStep p) FreshCall s calls := by
  induction calls generalizing s with
  | nil => trivial
  | cons c calls ih =>
    rw [List.pairwise_cons] at hapart
    obtain ⟨hc, hcalls⟩ := List.forall_mem_cons.mp hfresh
    obtain ⟨t', hstep, hsaved⟩ := keyStep_of_fresh (p := p) hc
    rw [along_cons hstep]
    refine ⟨hc, ih (fun d hd => ?_) hapart.2⟩
    exact (hcalls d hd).of_saved hsaved (hapart.1 d hd).1 (hapart.1 d hd).2

/-- Each call returns the configured keys and the public key of that server alone; the
private key is, from then on, in the file that `ssh` is given for the server. -/
theorem collectionSshKeys_own_key (p : BaseProvider) {calls : List KeyCall} {s : KeyState}
    (hextra : s.extraSshKeys = p.providerConfig.extraSshKeys)
    (hplain : ∀ c ∈ calls, c.key.Plain) (hfresh : Along (keyStep p) FreshCall s calls) :
    ∃ s', run (keyStep p) s calls = some s' ∧ s'.extraSshKeys = p.providerConfig.extraSshKeys ∧
      ∀ before c after, calls = before ++ c :: after → ∃ s₁ s₂,
        run (keyStep p) s before = some s₁ ∧ run (keyStep p) s₂ after = some s' ∧
        c.collect p s₁ = .ok (p.providerConfig.extraSshKeys ++ [c.key.publicKey]) s₂ ∧
        Unchanged s₁.files s₂.files ∧
        ∀ m : LBServerMeta, m.workspace = c.workspace → ∃ path : PosixPath,
          path = p.defaultPrivateKeyPath (some c.workspace) ∧
          (p.sshServerCommand m).take 3 = ["ssh", "-i", path.str] ∧
          readText s₂.files path = .ok c.key.privateKey ∧
          readText s'.files path = .ok c.key.privateKey := by
  obtain ⟨s', hrun, -⟩ := exists_run_of_along (P := fun _ => True)
    (fun hc _ => (keyStep_of_fresh (p := p) hc).imp' (KeyState.mk _) fun _ h => ⟨h.1, trivial⟩)
    hfresh trivial
  have hshared := (keyRun_keeps hfresh hrun).1.trans hextra
  refine ⟨s', hrun, hshared, ?_⟩
  rintro before c after rfl
  rw [run_append_bind, Option.bind_eq_some_iff] at hrun
  obtain ⟨s₁, hbefore, hrun⟩ := hrun
  have hrest := along_append hfresh hbefore
  -- what the list is at the end, it was before the call
  have hlist := (keyRun_keeps hrest hrun).1.symm.trans hshared
  obtain ⟨t₂, hcollect, hsaved⟩ := collect_of_fresh (p := p) hrest.1
  have hstep : keyStep p s₁ c = some { s₁ with files := t₂ } := by rw [keyStep, hcollect]
  rw [run_cons, hstep, Option.bind_some] at hrun
  have hkept := (keyRun_keeps (hrest.2 _ hstep) hrun).2
  have htext : readText t₂ (p.defaultPrivateKeyPath (some c.workspace)) = .ok c.key.privateKey := by
    have hc := hplain c (List.mem_append_right _ List.mem_cons_self)
    rw [← savedPrivateKey_eq]
    exact readText_of_node hc.private_newlines hsaved.privateKey
  refine ⟨s₁, _, hbefore, hrun, hlist ▸ hcollect, hsaved.unchanged hrest.1, fun m hm => ?_⟩
  refine ⟨_, rfl, ?_, htext, hkept _ _ htext⟩
  rw [sshServerCommand, hm]
  rfl

/-- Two servers, on an empty disk. -/
theorem collectionSshKeys_own_key_two :
    let p : BaseProvider := ⟨"do", { extraSshKeys := ["ssh-rsa BBBB"] }, .parse "/data/do",
      .digitalOcean []⟩
    let calls : List KeyCall := [⟨.parse "/data/do/a", ⟨"PEM 1", "ssh-rsa", "AAA1"⟩⟩,
      ⟨.parse "/data/do/b", ⟨"PEM 2", "ssh-rsa", "AAA2"⟩⟩]
    ∃ s', run (keyStep p) ⟨["ssh-rsa BBBB"], .empty⟩ calls = some s' ∧
      s'.extraSshKeys = ["ssh-rsa BBBB"] := by
  intro p calls
  have hplain : ∀ c ∈ calls, c.key.Plain := by
    simp only [calls, List.forall_mem_cons]
    exact ⟨⟨by decide, by decide, by decide⟩, ⟨by decide, by decide, by decide⟩, nofun⟩
  have hfresh : ∀ c ∈ calls, FreshCall ⟨["ssh-rsa BBBB"], .empty⟩ c := by
    simp only [calls, List.forall_mem_cons]
    exact ⟨⟨by decide, by decide, fun a _ => FileTree.isFile_empty a⟩,
      ⟨by decide, by decide, fun a _ => FileTree.isFile_empty a⟩, nofun⟩
  have hapart : calls.Pairwise fun c d =>
      Apart c.workspace d.workspace ∧ Apart d.workspace c.workspace := by
    refine List.pairwise_pair.mpr ⟨apart_of_not_isAbove ?_, apart_of_not_isAbove ?_⟩
    · decide
    · decide
  obtain ⟨s', hrun, hextra, -⟩ := collectionSshKeys_own_key p (s := ⟨["ssh-rsa BBBB"], .empty⟩) rfl
    hplain (along_freshCall hfresh hapart)
  exact ⟨s', hrun, hextra⟩

end Runs

end Lobbyboy.Provider
