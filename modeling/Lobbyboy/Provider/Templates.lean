import Lobbyboy.Foundation.FormatString
import Lobbyboy.Provider.Requests
import Lobbyboy.Utils.SshKeys

/-! The files that `footloose create` and `vagrant up` are run on. `create_server` makes the
workspace first, tells the client, opens the file, and then fills the server's name into the
template of the configuration, so a client that has left costs a name, and so does a template
that cannot be filled in. -/

namespace Lobbyboy.Provider

open Foundation Utils Config FormatString BaseProvider

/-! ### The programs -/

/-- The `ValueError` of a template. -/
def templateError : Defect → PyExc
  | .singleOpen => ⟨.valueError, "Single '\x7b' encountered in format string"⟩
  | .singleClose => ⟨.valueError, "Single '\x7d' encountered in format string"⟩
  | .openInName => ⟨.valueError, "unexpected '\x7b' in field name"⟩
  | .unterminated => ⟨.valueError, "expected '\x7d' before end of string"⟩
  | .noConversion => ⟨.valueError, "end of string while looking for conversion specifier"⟩
  | .noColon => ⟨.valueError, "expected ':' after conversion specifier"⟩
  | .unmatched => ⟨.valueError, "unmatched '\x7b' in format spec"⟩

/-- The name of a file and that of the template's argument. -/
structure TemplateFile where
  file : String
  key : String

def FootlooseProvider.footlooseYaml : TemplateFile := ⟨"footloose.yaml", "server_name"⟩

def VagrantProvider.vagrantfile : TemplateFile := ⟨"Vagrantfile", "boxname"⟩

/-- What a field gives that is not just the argument, for each server name. -/
abbrev OtherFields := String → Field → Except PyExc (List Char)

/-- What `send_to_channel` does. -/
abbrev Sending := Except PyExc Unit

variable (others : OtherFields) (p : BaseProvider) (f : TemplateFile) (template : String)
  (sending : Sending)

/-- `template.format(key=server_name)`. -/
def fillTemplate (serverName : String) : Except PyExc (List Char) :=
  format templateError (keyword f.key.toList (others serverName) serverName.toList) template.toList

def templatePath (serverName : String) : PosixPath :=
  (p.getServerWorkspace serverName).joinpath f.file

def writeTemplate (serverName : String) : OnDisk Unit := do
  mkdir (p.getServerWorkspace serverName)
  liftExcept sending
  -- `open` has emptied the file before the template is filled in
  writeText (templatePath p f serverName) ""
  let text ← liftExcept (fillTemplate others f template serverName)
  writeText (templatePath p f serverName) (String.ofList text)

def isFreeIn (t : FileTree) (serverName : String) : Bool :=
  !t.pathExists (p.getServerWorkspace serverName)

/-- The loop of `generate_default_server_name`. -/
def claimDirectory : List String → OnDisk (Option String)
  | [] => pure none
  | name :: names => do
    let t ← get
    if isFreeIn p t name then do
      mkdir (p.getServerWorkspace name)
      return some name
    else claimDirectory names

/-- `create_server` of footloose up to its process. -/
def FootlooseProvider.prepareServer (now : DateTime) : OnDisk String := do
  match ← claimDirectory p (minuteNames p.providerConfig now) with
  | none =>
    let serverName := minuteName p.providerConfig now
    throw ⟨.noAvailableNameException, s!"{p.name}'s server {serverName}[a-z] already exist!"⟩
  | some serverName => do
    writeTemplate others p footlooseYaml template sending serverName
    return serverName

/-- `create_server` of Vagrant up to its process. -/
def VagrantProvider.prepareServer : OnDisk String := do
  let t ← get
  match (numberedNames p.providerConfig).find? (isFreeIn p t) with
  | none =>
    let serverName := withPrefix p.providerConfig "98"
    throw ⟨.noAvailableNameException, s!"{p.name}'s server {serverName}[a-z] already exist!"⟩
  | some serverName => do
    writeTemplate others p vagrantfile template sending serverName
    return serverName

/-! ### What they leave -/

section Specs

variable {others p f template sending} {t t' : FileTree} {serverName : String}

/-- A template is filled in if and only if it is made of well-formed segments of which each
field has a value. -/
theorem fillTemplate_eq_ok_iff {text : List Char} :
    fillTemplate others f template serverName = .ok text ↔
      ∃ segs, (∀ s ∈ segs, s.WellFormed) ∧ template.toList = render segs ∧
        spell (keyword f.key.toList (others serverName) serverName.toList) segs = .ok text :=
  format_eq_ok_iff

/-- The workspace is there, and in it the file with that text. -/
def Written (p : BaseProvider) (f : TemplateFile) (serverName : String) (text : List Char)
    (t t' : FileTree) : Prop :=
  ∃ t₁, t.makeDirs (p.getServerWorkspace serverName) = .ok t₁ ∧
    t₁.write (templatePath p f serverName) (Utf8.encode (String.ofList text)) = .ok t'

/-- The operating system refuses the workspace or the file. -/
def Refused (p : BaseProvider) (f : TemplateFile) (serverName : String) (t : FileTree) : Prop :=
  ∀ text t', ¬ Written p f serverName text t t'

theorem Written.unique {text : List Char} {t₁ t₂ : FileTree} (h₁ : Written p f serverName text t t₁)
    (h₂ : Written p f serverName text t t₂) : t₁ = t₂ := by
  obtain ⟨u, hu, h₁⟩ := h₁
  obtain ⟨u', hu', h₂⟩ := h₂
  cases hu.symm.trans hu'
  cases h₁.symm.trans h₂
  rfl

/-- The workspace is there, so it is taken. -/
theorem Written.not_free {text : List Char} (h : Written p f serverName text t t') :
    isFreeIn p t' serverName = false := by
  obtain ⟨t₁, h₁, h⟩ := h
  rw [isFreeIn, Bool.not_eq_false']
  refine FileTree.exists_write h ?_
  rw [FileTree.pathExists, FileTree.node_makeDirs h₁, if_pos (PosixPath.isAbove_self _)]
  rfl

theorem isFreeIn_of_written {text : List Char} (h : Written p f serverName text t t')
    {name : String} (hfree : isFreeIn p t' name = true) : isFreeIn p t name = true := by
  obtain ⟨t₁, h₁, h⟩ := h
  rw [isFreeIn, Bool.not_eq_true', ← Bool.not_eq_true] at hfree ⊢
  refine fun hthere => hfree (FileTree.exists_write h ?_)
  rw [FileTree.pathExists, FileTree.node_makeDirs h₁]
  split_ifs
  · rfl
  · exact hthere

/-- The name is taken, but the client could not be told of it, or the template could not be
filled in. -/
def Lost (others : OtherFields) (p : BaseProvider) (f : TemplateFile) (template : String)
    (sending : Sending) (serverName : String) (e : PyExc) (t t' : FileTree) : Prop :=
  sending = .error e ∧ t.makeDirs (p.getServerWorkspace serverName) = .ok t' ∨
    sending = .ok () ∧ fillTemplate others f template serverName = .error e ∧
      Written p f serverName [] t t'

theorem Lost.not_free {e : PyExc} (h : Lost others p f template sending serverName e t t') :
    isFreeIn p t' serverName = false := by
  rcases h with ⟨-, hmade⟩ | ⟨-, -, hwritten⟩
  · rw [isFreeIn, Bool.not_eq_false', FileTree.pathExists, FileTree.node_makeDirs hmade,
      if_pos (PosixPath.isAbove_self _)]
    rfl
  · exact hwritten.not_free

theorem isFreeIn_of_lost {e : PyExc} (h : Lost others p f template sending serverName e t t')
    {name : String} (hfree : isFreeIn p t' name = true) : isFreeIn p t name = true := by
  rcases h with ⟨-, hmade⟩ | ⟨-, -, hwritten⟩
  · rw [isFreeIn, Bool.not_eq_true', ← Bool.not_eq_true] at hfree ⊢
    refine fun hthere => hfree ?_
    rw [FileTree.pathExists, FileTree.node_makeDirs hmade]
    split_ifs
    · rfl
    · exact hthere
  · exact isFreeIn_of_written hwritten hfree

section Again

variable {t₁ : FileTree} (h : t.makeDirs (p.getServerWorkspace serverName) = .ok t₁)
include h

/-- To make the workspace once more changes nothing. -/
theorem makeDirs_makeDirs : t₁.makeDirs (p.getServerWorkspace serverName) = .ok t₁ := by
  have hnode := FileTree.node_makeDirs h (p.getServerWorkspace serverName)
  rw [if_pos (PosixPath.isAbove_self _)] at hnode
  exact FileTree.makeDirs_of_dir hnode

theorem written_makeDirs {text : List Char} :
    Written p f serverName text t₁ t' ↔ Written p f serverName text t t' := by
  unfold Written
  rw [h, makeDirs_makeDirs h]

theorem lost_makeDirs {e : PyExc} : Lost others p f template sending serverName e t₁ t' ↔
    Lost others p f template sending serverName e t t' := by
  unfold Lost
  rw [h, makeDirs_makeDirs h, written_makeDirs h]

end Again

theorem wp_writeTemplate (others : OtherFields) (p : BaseProvider) (f : TemplateFile)
    (template : String) (sending : Sending) (serverName : String) (t : FileTree) :
    wp (writeTemplate others p f template sending serverName)
      (fun _ t' => sending = .ok () ∧ ∃ text, fillTemplate others f template serverName = .ok text ∧
        Written p f serverName text t t')
      (fun e t' => Refused p f serverName t ∨
        Lost others p f template sending serverName e t t') t := by
  rw [writeTemplate, wp_bind, wp_mkdir]
  refine ⟨fun t₁ h₁ => ?_, fun e he => .inl fun text t' hw => ?_⟩
  · rw [wp_bind, wp_liftExcept]
    refine ⟨fun _ hsent => ?_, fun e he => .inr (.inl ⟨he, h₁⟩)⟩
    rw [wp_bind, wp_writeText]
    refine ⟨fun t₂ h₂ => ?_, fun e he => .inl fun text t' hw => ?_⟩
    · rw [wp_bind, wp_liftExcept]
      refine ⟨fun text htext => ?_, fun e he => .inr (.inr ⟨hsent, he, t₁, h₁, h₂⟩)⟩
      rw [wp_writeText, FileTree.write_write h₂]
      refine ⟨fun t₃ h₃ => ⟨hsent, text, htext, t₁, h₁, h₃⟩, fun e he => ?_⟩
      -- what could be emptied can be written
      have hp := (FileTree.write_ok_iff _).mp ⟨t₂, h₂⟩
      obtain ⟨t₃, h₃⟩ := (FileTree.write_ok_iff (Utf8.encode (String.ofList text))).mpr hp
      cases h₃.symm.trans he
    · obtain ⟨u, hu, hw⟩ := hw
      cases h₁.symm.trans hu
      have hp := (FileTree.write_ok_iff _).mp ⟨t', hw⟩
      obtain ⟨t₃, h₃⟩ := (FileTree.write_ok_iff (Utf8.encode "")).mpr hp
      cases h₃.symm.trans he
  · obtain ⟨u, hu, -⟩ := hw
    cases hu.symm.trans he

theorem wp_claimDirectory (p : BaseProvider) (names : List String) (t : FileTree) :
    wp (claimDirectory p names)
      (fun found t' => names.find? (isFreeIn p t) = found ∧
        found.elim (t' = t) fun name => t.makeDirs (p.getServerWorkspace name) = .ok t')
      (fun _ _ => ∃ name, names.find? (isFreeIn p t) = some name ∧
        ∀ t', t.makeDirs (p.getServerWorkspace name) ≠ .ok t') t := by
  induction names with
  | nil => exact (wp_pure _).mpr ⟨rfl, rfl⟩
  | cons name names ih =>
    rw [claimDirectory, wp_bind, wp_get, wp_ite]
    split_ifs with hfree
    · rw [List.find?_cons_of_pos hfree, wp_bind, wp_mkdir]
      refine ⟨fun t' h => (wp_pure _).mpr ⟨rfl, h⟩, fun e he => ⟨name, rfl, fun t' h => ?_⟩⟩
      cases h.symm.trans he
    · rw [List.find?_cons_of_neg hfree]
      exact ih

end Specs

/-! ### When a template is filled in -/

section Fills

variable {others p f template} {sending : Sending} {t t' : FileTree} {names : List String}
  {serverName : String}

/-- The call has taken the first free name, told the client, and written the template,
filled in, to the file. -/
structure Filled (others : OtherFields) (p : BaseProvider) (f : TemplateFile) (template : String)
    (names : List String) (sending : Sending) (t : FileTree) (serverName : String)
    (t' : FileTree) : Prop where
  name : names.find? (isFreeIn p t) = some serverName
  told : sending = .ok ()
  written : ∃ text, fillTemplate others f template serverName = .ok text ∧
    Written p f serverName text t t'

/-- The call has found no name, or the operating system has refused, or the name is lost. -/
def Failed (others : OtherFields) (p : BaseProvider) (f : TemplateFile) (template : String)
    (names : List String) (sending : Sending) (t : FileTree) (e : PyExc) (t' : FileTree) : Prop :=
  names.find? (isFreeIn p t) = none ∧ t' = t ∨
    ∃ serverName, names.find? (isFreeIn p t) = some serverName ∧ (Refused p f serverName t ∨
      Lost others p f template sending serverName e t t')

theorem Filled.not_failed {e : PyExc} {t₂ : FileTree}
    (h : Filled others p f template names sending t serverName t') :
    ¬ Failed others p f template names sending t e t₂ := by
  obtain ⟨text, htext, hwritten⟩ := h.written
  rintro (⟨hnone, -⟩ | ⟨name, hname, hrefused | ⟨hsent, -⟩ | ⟨-, he, -⟩⟩)
  · cases h.name.symm.trans hnone
  · cases h.name.symm.trans hname
    exact hrefused _ _ hwritten
  · cases h.told.symm.trans hsent
  · cases h.name.symm.trans hname
    cases htext.symm.trans he

theorem Filled.unique {name : String} {t₂ : FileTree}
    (h : Filled others p f template names sending t serverName t')
    (h₂ : Filled others p f template names sending t name t₂) : name = serverName ∧ t₂ = t' := by
  cases h.name.symm.trans h₂.name
  obtain ⟨text, htext, hwritten⟩ := h.written
  obtain ⟨text', htext', hwritten'⟩ := h₂.written
  cases htext.symm.trans htext'
  exact ⟨rfl, hwritten'.unique hwritten⟩

theorem wp_footloose (others : OtherFields) (p : BaseProvider) (template : String) (now : DateTime)
    (sending : Sending) (t : FileTree) :
    wp (FootlooseProvider.prepareServer others p template sending now)
      (Filled others p FootlooseProvider.footlooseYaml template
        (minuteNames p.providerConfig now) sending t)
      (Failed others p FootlooseProvider.footlooseYaml template
        (minuteNames p.providerConfig now) sending t) t := by
  rw [FootlooseProvider.prepareServer, wp_bind]
  refine wp_mono (wp_claimDirectory p _ t) (fun found t₁ hfound => ?_) fun e t₁ he => ?_
  · obtain ⟨hname, hmade⟩ := hfound
    cases found with
    | none =>
      cases (hmade : t₁ = t)
      exact (wp_throw _).mpr (.inl ⟨hname, rfl⟩)
    | some serverName =>
      show wp (writeTemplate others p _ template sending serverName >>= fun _ => pure serverName)
        _ _ t₁
      rw [wp_bind]
      refine wp_mono (wp_writeTemplate others p _ template sending serverName t₁)
        (fun _ t' h => ?_) fun e t' h => .inr ⟨serverName, hname, ?_⟩
      · obtain ⟨hsent, text, htext, hw⟩ := h
        exact (wp_pure _).mpr ⟨hname, hsent, text, htext, (written_makeDirs hmade).mp hw⟩
      · rw [lost_makeDirs hmade] at h
        simp only [Refused, written_makeDirs hmade] at h
        exact h
  · obtain ⟨name, hname, hnot⟩ := he
    refine .inr ⟨name, hname, .inl fun text t' hw => ?_⟩
    obtain ⟨t₂, h₂, -⟩ := hw
    exact hnot t₂ h₂

theorem wp_vagrant (others : OtherFields) (p : BaseProvider) (template : String)
    (sending : Sending) (t : FileTree) :
    wp (VagrantProvider.prepareServer others p template sending)
      (Filled others p VagrantProvider.vagrantfile template (numberedNames p.providerConfig)
        sending t)
      (Failed others p VagrantProvider.vagrantfile template (numberedNames p.providerConfig)
        sending t) t := by
  rw [VagrantProvider.prepareServer, wp_bind, wp_get]
  cases hname : (numberedNames p.providerConfig).find? (isFreeIn p t) with
  | none => exact (wp_throw _).mpr (.inl ⟨hname, rfl⟩)
  | some serverName =>
    show wp (writeTemplate others p _ template sending serverName >>= fun _ => pure serverName)
      _ _ t
    rw [wp_bind]
    refine wp_mono (wp_writeTemplate others p _ template sending serverName t) (fun _ t' h => ?_)
      fun e t' h => .inr ⟨serverName, hname, h⟩
    exact (wp_pure _).mpr ⟨hname, h.1, h.2⟩

/-! ### Names that are lost -/

/-- The names that are left. -/
def freeNamesIn (p : BaseProvider) (names : List String) (t : FileTree) : ℕ :=
  names.countP (isFreeIn p t)

/-- What the calls have raised, one after another, and the files then. -/
def attempts (prepare : Sending → OnDisk String) : List Sending → FileTree → List PyExc × FileTree
  | [], t => ([], t)
  | sending :: sendings, t =>
    match prepare sending t with
    | .ok _ t' => attempts prepare sendings t'
    | .error e t' => (attempts prepare sendings t').map (e :: ·) id

/-- No name is free, or the operating system refuses the first one that is. -/
def Stuck (p : BaseProvider) (f : TemplateFile) (names : List String) (t : FileTree) : Prop :=
  ∀ serverName, names.find? (isFreeIn p t) = some serverName → Refused p f serverName t

theorem countP_lt {α : Type} {P Q : α → Bool} {l : List α} (h : ∀ x, Q x = true → P x = true)
    {x : α} (hx : x ∈ l) (hP : P x = true) (hQ : Q x = false) : l.countP Q < l.countP P := by
  obtain ⟨before, after, rfl⟩ := List.append_of_mem hx
  have hbefore : before.countP Q ≤ before.countP P := List.countP_mono_left fun y _ => h y
  have hafter : after.countP Q ≤ after.countP P := List.countP_mono_left fun y _ => h y
  rw [List.countP_append, List.countP_append, List.countP_cons_of_pos hP,
    List.countP_cons_of_neg (by rw [hQ]; exact Bool.false_ne_true)]
  omega

/-- A call that fails is stuck or loses a name. -/
theorem Failed.loses {e : PyExc} (h : Failed others p f template names sending t e t')
    (hstuck : ¬ Stuck p f names t) : freeNamesIn p names t' < freeNamesIn p names t := by
  rcases h with ⟨hnone, -⟩ | ⟨serverName, hname, hrefused | hlost⟩
  · refine absurd (fun serverName hname => ?_) hstuck
    cases hname.symm.trans hnone
  · refine absurd (fun name hname' => ?_) hstuck
    cases hname.symm.trans hname'
    exact hrefused
  · exact countP_lt (fun _ => isFreeIn_of_lost hlost) (List.mem_of_find?_eq_some hname)
      (List.find?_some hname) hlost.not_free

theorem attempts_lose {prepare : Sending → OnDisk String}
    (h : ∀ sending t, wp (prepare sending) (fun _ _ => False)
      (Failed others p f template names sending t) t) (sendings : List Sending)
    (t : FileTree) : (attempts prepare sendings t).1.length = sendings.length ∧
      ((∀ k < sendings.length, ¬ Stuck p f names (attempts prepare (sendings.take k) t).2) →
        freeNamesIn p names (attempts prepare sendings t).2 + sendings.length ≤
          freeNamesIn p names t) := by
  induction sendings generalizing t with
  | nil => exact ⟨rfl, fun _ => Nat.le_refl _⟩
  | cons sending sendings ih =>
    cases hrun : prepare sending t with
    | ok name t' => exact (wp_of_ok (h sending t) hrun).elim
    | error e t' =>
      have hstep : ∀ later, attempts prepare (sending :: later) t =
          (attempts prepare later t').map (e :: ·) id := by
        intro later
        rw [attempts, hrun]
      obtain ⟨hlength, hlose⟩ := ih t'
      rw [hstep]
      refine ⟨congrArg (· + 1) hlength, fun hfree => ?_⟩
      have hfirst := (wp_of_error (h sending t) hrun).loses (hfree 0 (Nat.succ_pos _))
      have hrest := hlose fun k hk hstuck => hfree (k + 1) (Nat.succ_lt_succ hk) (by
        rw [List.take_succ_cons, hstep]
        exact hstuck)
      show freeNamesIn p names (attempts prepare sendings t').2 + (sendings.length + 1) ≤ _
      omega

/-- The template decides, for every tree of files and whatever the fields give, if the client
is told. -/
structure Fills (others : OtherFields) (p : BaseProvider) (f : TemplateFile) (template : String)
    (names : List String) (prepare : Sending → OnDisk String) : Prop where
  returns : ∀ {sending t serverName t'}, prepare sending t = .ok serverName t' ↔
    sending = .ok () ∧ names.find? (isFreeIn p t) = some serverName ∧
      ∃ segs text, (∀ s ∈ segs, s.WellFormed) ∧ template.toList = render segs ∧
        spell (keyword f.key.toList (others serverName) serverName.toList) segs = .ok text ∧
        Written p f serverName text t t'
  raises : ∀ {sending t e t'}, prepare sending t = .error e t' →
    Failed others p f template names sending t e t'
  defective : ∀ {d}, (read template.toList).2 = some d → ∀ serverName text,
    fillTemplate others f template serverName ≠ .ok text
  loses : (∀ serverName text, fillTemplate others f template serverName ≠ .ok text) →
    ∀ sendings t, (attempts prepare sendings t).1.length = sendings.length ∧
      ((∀ k < sendings.length, ¬ Stuck p f names (attempts prepare (sendings.take k) t).2) →
        freeNamesIn p names (attempts prepare sendings t).2 + sendings.length ≤
          freeNamesIn p names t)
  plain : ∀ {segs}, (∀ s ∈ segs, s.WellFormed ∧ s.IsPlain f.key.toList) →
    template.toList = render segs → ∀ {t serverName}, names.find? (isFreeIn p t) = some serverName →
      ¬ Refused p f serverName t → ∃ t', prepare (.ok ()) t = .ok serverName t' ∧
        Written p f serverName (segs.flatMap (Seg.fill serverName.toList)) t t'

theorem fills_of_wp {prepare : Sending → OnDisk String}
    (h : ∀ sending t, wp (prepare sending) (Filled others p f template names sending t)
      (Failed others p f template names sending t) t) :
    Fills others p f template names prepare := by
  have hiff : ∀ {sending t serverName t'}, prepare sending t = .ok serverName t' ↔
      Filled others p f template names sending t serverName t' := by
    intro sending t serverName t'
    refine ⟨fun hok => wp_of_ok (h sending t) hok, fun hfilled => ?_⟩
    cases hrun : prepare sending t with
    | ok name t₂ =>
      obtain ⟨rfl, rfl⟩ := hfilled.unique (wp_of_ok (h sending t) hrun)
      rfl
    | error e t₂ => exact absurd (wp_of_error (h sending t) hrun) hfilled.not_failed
  refine ⟨fun {sending t serverName t'} => ?_, fun herror => wp_of_error (h _ _) herror,
    fun hdefect serverName text => not_ok_of_defect hdefect,
    fun hlost => attempts_lose fun sending t => wp_mono (h sending t) (fun _ _ hfilled => ?_)
      fun _ _ => id,
    fun {segs} hplain htemplate {t serverName} hname hroom => ?_⟩
  · rw [hiff]
    constructor
    · rintro ⟨hname, hsent, text, htext, hwritten⟩
      obtain ⟨segs, hall, htemplate, hspell⟩ := fillTemplate_eq_ok_iff.mp htext
      exact ⟨hsent, hname, segs, text, hall, htemplate, hspell, hwritten⟩
    · rintro ⟨hsent, hname, segs, text, hall, htemplate, hspell, hwritten⟩
      exact ⟨hname, hsent, text, fillTemplate_eq_ok_iff.mpr ⟨segs, hall, htemplate, hspell⟩,
        hwritten⟩
  · obtain ⟨text, htext, -⟩ := hfilled.written
    exact hlost _ _ htext
  · have htext : fillTemplate others f template serverName =
        .ok (segs.flatMap (Seg.fill serverName.toList)) :=
      fillTemplate_eq_ok_iff.mpr ⟨segs, fun s hs => (hplain s hs).1, htemplate,
        spell_keyword _ _ fun s hs => (hplain s hs).2⟩
    obtain ⟨text, t₂, t₁, h₁, h₂⟩ : ∃ text t₂, Written p f serverName text t t₂ := by
      by_contra hnone
      exact hroom fun text t₂ hw => hnone ⟨text, t₂, hw⟩
    obtain ⟨t', h'⟩ := (FileTree.write_ok_iff _).mpr ((FileTree.write_ok_iff _).mp ⟨t₂, h₂⟩)
    exact ⟨t', hiff.mpr ⟨hname, rfl, _, htext, t₁, h₁, h'⟩, t₁, h₁, h'⟩

/-- Once the client is told of its name, a template is written for a server if and only if
it is made of well-formed segments of which each field has a value; the file is then these
segments with the values in their places. With one that is never written, for a defect or a
field without a value, every call raises, and unless it is stuck it leaves one name less to
the next. -/
theorem prepareServer_fills (others : OtherFields) (p : BaseProvider) (template : String)
    (now : DateTime) :
    Fills others p FootlooseProvider.footlooseYaml template (minuteNames p.providerConfig now)
        (FootlooseProvider.prepareServer others p template · now) ∧
      Fills others p VagrantProvider.vagrantfile template (numberedNames p.providerConfig)
        (VagrantProvider.prepareServer others p template) :=
  ⟨fills_of_wp (wp_footloose others p template now), fills_of_wp (wp_vagrant others p template)⟩

theorem find?_isFreeIn_of_createServer {T : Type} {env : Env T} {w w' : World T} {m : LBServerMeta}
    (hrun : createServer env p w = .ok m w')
    (hseen : ∀ serverName, t.pathExists (p.getServerWorkspace serverName) =
      dirExists w.dirs (p.getServerWorkspace serverName)) :
    ∃ now, (p.candidates now).find? (isFreeIn p t) = some m.serverName := by
  obtain ⟨⟨host, time, hm⟩, hrequested⟩ := wp_of_ok (creates_createServer w) hrun
  obtain ⟨now, hfree⟩ := hrequested.named
  refine ⟨now, ?_⟩
  have hsame : isFreeIn p t = p.isFree w.dirs := funext fun serverName =>
    congrArg (!·) (hseen serverName)
  rw [hsame]
  exact hfree

/-- On files that show the same workspaces, the template is filled in for the server that
`create_server` returns. -/
theorem prepareServer_of_createServer {T : Type} {env : Env T} {w w' : World T} {m : LBServerMeta}
    (hrun : createServer env p w = .ok m w')
    (hseen : ∀ serverName, t.pathExists (p.getServerWorkspace serverName) =
      dirExists w.dirs (p.getServerWorkspace serverName)) :
    (p.kind = .footloose → ∃ now, ∀ {sending serverName t'},
      FootlooseProvider.prepareServer others p template sending now t = .ok serverName t' →
        serverName = m.serverName) ∧
    (p.kind = .vagrant → ∀ {sending serverName t'},
      VagrantProvider.prepareServer others p template sending t = .ok serverName t' →
        serverName = m.serverName) := by
  obtain ⟨now, hname⟩ := find?_isFreeIn_of_createServer hrun hseen
  rw [candidates] at hname
  constructor
  · intro hkind
    rw [hkind] at hname
    refine ⟨now, fun hprepare => ?_⟩
    have hfilled := wp_of_ok (wp_footloose others p template now _ t) hprepare
    exact Option.some.inj (hfilled.name.symm.trans hname)
  · intro hkind sending serverName t' hprepare
    rw [hkind] at hname
    have hfilled := wp_of_ok (wp_vagrant others p template sending t) hprepare
    exact Option.some.inj (hfilled.name.symm.trans hname)

/-- What a template for Vagrant looks like. -/
example (others : OtherFields) : fillTemplate others VagrantProvider.vagrantfile
    "config.vm.define \"\x7bboxname\x7d\" \x7b\x7b\x7d\x7d" "lobbyboy-1" =
      .ok "config.vm.define \"lobbyboy-1\" \x7b\x7d".toList := by
  rfl

end Fills

end Lobbyboy.Provider
