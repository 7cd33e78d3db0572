import Lobbyboy.Provider.Requests

/-! How long the names of a vagrant provider last. A name is free as long as its directory
is not there, and a deletion leaves the directory; so a creation that has made a directory
takes one of the 98 names for good, whether or not the server lives on. -/

namespace Lobbyboy.Provider

open Foundation Utils Config Prog BaseProvider

/-! ### Workspaces of numbered names -/

section Workspaces

variable (p : BaseProvider)

/-- What stands before the number. -/
theorem exists_withPrefix (config : LBConfigProvider) :
    ∃ cs : List Char, ∀ n : ℕ,
      (withPrefix config (toString n)).toList = cs ++ Nat.toDigits 10 n := by
  unfold withPrefix
  cases config.serverNamePrefix with
  | none => exact ⟨[], fun n => Nat.toList_repr⟩
  | some text =>
    by_cases htext : text = ""
    · exact ⟨[], fun n => by simp [htext, Nat.toList_repr]⟩
    · refine ⟨text.toList ++ ['-'], fun n => ?_⟩
      simp only [if_neg htext]
      change (text ++ "-" ++ n.repr).toList = _
      rw [String.toList_append, String.toList_append, Nat.toList_repr]
      rfl

theorem not_mem_toDigits {c : Char} (hc : c.isDigit = false) (n : ℕ) :
    c ∉ Nat.toDigits 10 n := by
  intro h
  rw [Nat.isDigit_of_mem_toDigits (by decide) (by decide) h] at hc
  cases hc

/-- The workspaces differ in the last letters of their last part. -/
theorem exists_workspace_parts : ∃ root parts last, ∀ n : ℕ,
    (p.getServerWorkspace (withPrefix p.providerConfig (toString n))).root = root ∧
      (p.getServerWorkspace (withPrefix p.providerConfig (toString n))).parts =
        parts ++ [last ++ Nat.toDigits 10 n] := by
  obtain ⟨cs, hcs⟩ := exists_withPrefix p.providerConfig
  obtain ⟨root, parts, last, h⟩ := PosixPath.parse_append cs
  have hparse : ∀ n : ℕ, (PosixPath.parse (withPrefix p.providerConfig (toString n))).root = root ∧
      (PosixPath.parse (withPrefix p.providerConfig (toString n))).parts =
        parts ++ [last ++ Nat.toDigits 10 n] := by
    intro n
    rw [PosixPath.parse, hcs]
    obtain ⟨c, hc⟩ := List.exists_mem_of_ne_nil _ (Nat.toDigits_ne_nil (n := n) (b := 10))
    refine h _ (not_mem_toDigits rfl n) ⟨c, hc, ?_⟩
    rintro rfl
    exact not_mem_toDigits rfl n hc
  by_cases hroot : root = .relative
  · refine ⟨p.workspace.root, p.workspace.parts ++ parts, last, fun n => ?_⟩
    rw [getServerWorkspace, PosixPath.joinpath, if_pos ((hparse n).1.trans hroot)]
    exact ⟨rfl, (congrArg (p.workspace.parts ++ ·) (hparse n).2).trans (List.append_assoc ..).symm⟩
  · refine ⟨root, parts, last, fun n => ?_⟩
    rw [getServerWorkspace, PosixPath.joinpath, if_neg ((hparse n).1 ▸ hroot)]
    exact hparse n

/-- No workspace is above another. -/
theorem isAbove_workspace_iff {m n : ℕ} :
    (p.getServerWorkspace (withPrefix p.providerConfig (toString m))).isAbove
      (p.getServerWorkspace (withPrefix p.providerConfig (toString n))) = true ↔ m = n := by
  obtain ⟨root, parts, last, h⟩ := exists_workspace_parts p
  constructor
  · intro habove
    rw [PosixPath.isAbove, Bool.and_eq_true, (h m).2, (h n).2, List.isPrefixOf_iff_prefix] at habove
    have heq := habove.2.eq_of_length (by simp)
    have hdigits : Nat.toDigits 10 m = Nat.toDigits 10 n := by simpa using heq
    have hvalue := congrArg (Nat.ofDigitChars 10 · 0) hdigits
    simpa only [Nat.ofDigitChars_toDigits (by decide : 1 < 10) (by decide : 10 ≤ 10)] using hvalue
  · rintro rfl
    exact PosixPath.isAbove_self _

end Workspaces

/-! ### Free names -/

section Free

variable (p : BaseProvider)

/-- How many of the 98 names are free. -/
def freeNames (dirs : List PosixPath) : ℕ := (numberedNames p.providerConfig).countP (p.isFree dirs)

/-- A list without duplicates of which one entry loses a property. -/
theorem countP_of_ne {α : Type} [DecidableEq α] {l : List α} (hl : l.Nodup) {x : α} (hx : x ∈ l)
    {f g : α → Bool} (hf : f x = true) (hg : ∀ y ∈ l, g y = (f y && y != x)) :
    l.countP g = l.countP f - 1 := by
  have hfilter : l.filter g = (l.filter f).erase x := by
    rw [(hl.filter f).erase_eq_filter, List.filter_filter]
    refine List.filter_congr fun y hy => ?_
    rw [hg y hy, Bool.and_comm]
  rw [List.countP_eq_length_filter, List.countP_eq_length_filter, hfilter,
    List.length_erase_of_mem (List.mem_filter.mpr ⟨hx, hf⟩)]

/-- Making the workspace of a free name takes that name and no other. -/
theorem freeNames_cons {dirs : List PosixPath} {name : String}
    (hmem : name ∈ numberedNames p.providerConfig) (hfree : p.isFree dirs name = true) :
    freeNames p (p.getServerWorkspace name :: dirs) = freeNames p dirs - 1 := by
  obtain ⟨i, hi, rfl⟩ := List.mem_map.mp hmem
  rw [freeNames, freeNames, numberedNames, List.countP_map, List.countP_map]
  refine countP_of_ne List.nodup_range hi hfree fun j _ => ?_
  have habove := isAbove_workspace_iff p (m := j + 1) (n := i + 1)
  by_cases hj : j = i
  · subst hj
    simp [isFree, dirExists]
  · have hno : (p.getServerWorkspace (withPrefix p.providerConfig (toString (j + 1)))).isAbove
        (p.getServerWorkspace (withPrefix p.providerConfig (toString (i + 1)))) = false := by
      rw [Bool.eq_false_iff, ne_eq, habove]
      omega
    have hne : (j != i) = true := bne_iff_ne.mpr hj
    simp only [Function.comp_apply, isFree, dirExists, List.any_cons, hno, hne, Bool.false_or,
      Bool.and_true]

/-- A name is found if and only if one is free. -/
theorem find?_isSome_iff (dirs : List PosixPath) :
    ((numberedNames p.providerConfig).find? (p.isFree dirs)).isSome ↔ 0 < freeNames p dirs := by
  rw [List.find?_isSome, freeNames, List.countP_pos_iff]

end Free

/-! ### What a creation does to the workspace -/

section Creation

variable {T : Type} {env : Env T} {p : BaseProvider}

/-- The directories are left alone. -/
def sameDirs : Frame (World T) where
  rel w w' := w'.dirs = w.dirs
  refl _ := rfl
  trans h h' := h'.trans h

theorem sameDirs_of_silent {α : Type} {q : Prog T α} (h : Keeps silent q) : Keeps sameDirs q :=
  h.mono fun hs => hs.dirs

/-- What follows once the directory is made. -/
theorem sameDirs_prepared {prepare : Prog T Unit} (hprepare : Keeps silent prepare)
    (msg : List UInt8) (event : Event) (serverName : String) : Keeps sameDirs (do
      sendToChannel env msg
      prepare
      emit event
      return serverName) := by
  refine .bind (sameDirs_of_silent (silent_sendToChannel _ _)) fun _ => ?_
  exact .bind (sameDirs_of_silent hprepare) fun _ => .bind (.modify fun _ => rfl) fun _ => .pure _

/-- The request takes a name as soon as the directory is made, however it goes on. -/
theorem requestServer_dirs (w : World T) :
    wp (VagrantProvider.requestServer env p)
      (fun _ w' => freeNames p w'.dirs =
        freeNames p w.dirs - if env.raises w.tick = none then 1 else 0)
      (fun _ w' => freeNames p w'.dirs =
        freeNames p w.dirs - if env.raises w.tick = none then 1 else 0) w := by
  rw [VagrantProvider.requestServer, request, wp_bind, VagrantProvider.generateServerName, wp_bind,
    wp_get]
  cases hname : (numberedNames p.providerConfig).find? (p.isFree w.dirs) with
  | none =>
    have hnone : freeNames p w.dirs = 0 := by
      have h := (find?_isSome_iff p w.dirs).not.mp (by rw [hname]; simp)
      omega
    simp [hnone]
  | some name =>
    have hmem := List.mem_of_find?_eq_some hname
    have hfree := List.find?_some hname
    rw [wp_pure, wp_bind, wp_makeDir]
    constructor
    · intro hraises
      have htaken : freeNames p (p.getServerWorkspace name :: w.dirs) =
          freeNames p w.dirs - if env.raises w.tick = none then 1 else 0 := by
        rw [if_pos hraises, freeNames_cons p hmem hfree]
      refine wp_mono (sameDirs_prepared (.bind silent_call fun _ => silent_popen) _ _ _ _) ?_ ?_
      · exact fun _ w' h => (congrArg (freeNames p) h).trans htaken
      · exact fun _ w' h => (congrArg (freeNames p) h).trans htaken
    · intro e he
      simp [he]

/-- Creation takes a name as soon as the directory is made, however it goes on. -/
theorem createServer_dirs (w : World T) :
    wp (VagrantProvider.createServer env p)
      (fun _ w' => freeNames p w'.dirs =
        freeNames p w.dirs - if env.raises w.tick = none then 1 else 0)
      (fun _ w' => freeNames p w'.dirs =
        freeNames p w.dirs - if env.raises w.tick = none then 1 else 0) w := by
  rw [VagrantProvider.createServer, provision, wp_bind]
  refine wp_mono (requestServer_dirs w) ?_ fun _ _ h => h
  intro serverName w₁ h₁
  have hup : Keeps silent (vagrantUp env) := .bind silent_poll fun _ => .pure _
  have hawait : Keeps sameDirs (VagrantProvider.awaitServer env serverName) :=
    sameDirs_of_silent (.bind (silent_timeProcessAction hup _ _) fun _ =>
      .bind (silent_sendToChannel _ _) fun _ => .bind silent_call fun _ => .pure _)
  refine wp_mono (hawait.bind (fun _ => sameDirs_of_silent (.bind silent_now fun _ => .pure _)) w₁)
    ?_ ?_
  · exact fun _ w' h => (congrArg (freeNames p) h).trans h₁
  · exact fun _ w' h => (congrArg (freeNames p) h).trans h₁

end Creation

/-! ### Runs of creations and deletions -/

/-- The directories and the servers of a provider. -/
structure Fleet where
  dirs : List PosixPath
  servers : List String

/-- A creation, with all that may happen to it, or a deletion that succeeds, of one of the
servers. -/
inductive FleetAction (T : Type)
  | create (env : Env T)
  | destroy (i : ℕ)

section Runs

variable {T : Type} (p : BaseProvider)

/-- `destroy_server` runs vagrant, and leaves the workspace as it is. -/
def fleetStep (s : Fleet) : FleetAction T → Fleet
  | .create env =>
    match VagrantProvider.createServer env p { dirs := s.dirs } with
    | .ok m w => ⟨w.dirs, m.serverName :: s.servers⟩
    | .error _ w => { s with dirs := w.dirs }
  | .destroy i => { s with servers := s.servers.eraseIdx i }

def fleetRun (s : Fleet) (as : List (FleetAction T)) : Fleet := as.foldl (fleetStep p) s

/-- A creation in which `mkdir` does not raise. -/
def FleetAction.makesDir : FleetAction T → Bool
  | .create env => env.raises 0 = none
  | .destroy _ => false

theorem freeNames_fleetStep (s : Fleet) (a : FleetAction T) :
    freeNames p (fleetStep p s a).dirs = freeNames p s.dirs - if a.makesDir then 1 else 0 := by
  cases a with
  | destroy i => rfl
  | create env =>
    have h : wp (VagrantProvider.createServer env p) _ _ _ := createServer_dirs { dirs := s.dirs }
    simp only [FleetAction.makesDir, fleetStep, decide_eq_true_eq]
    cases hw : VagrantProvider.createServer env p { dirs := s.dirs } with
    | ok m w => exact (wp_eq_ok hw).mp h
    | error e w => exact (wp_eq_error hw).mp h

/-- Each creation that makes a directory takes a name, as long as there is one. -/
theorem freeNames_fleetRun (s : Fleet) (as : List (FleetAction T)) :
    freeNames p (fleetRun p s as).dirs = freeNames p s.dirs - as.countP FleetAction.makesDir := by
  induction as generalizing s with
  | nil => rfl
  | cons a as ih =>
    rw [fleetRun, List.foldl_cons, ← fleetRun, ih, freeNames_fleetStep, List.countP_cons]
    omega

/-- `generate_server_name` returns a name and does not raise. -/
def GeneratesName (p : BaseProvider) (dirs : List PosixPath) : Prop :=
  ∀ (T : Type) (w : World T), w.dirs = dirs →
    wp (VagrantProvider.generateServerName p) (fun name _ => name ∈ numberedNames p.providerConfig)
      (fun _ _ => False) w

theorem generatesName_iff (dirs : List PosixPath) :
    GeneratesName p dirs ↔ 0 < freeNames p dirs := by
  rw [← find?_isSome_iff]
  constructor
  · intro h
    have hwp := h Unit { dirs := dirs } rfl
    rw [VagrantProvider.generateServerName, wp_bind, wp_get] at hwp
    cases hname : (numberedNames p.providerConfig).find? (p.isFree dirs) with
    | none =>
      simp only [hname, wp_raise] at hwp
    | some name => rfl
  · rintro h T w rfl
    obtain ⟨name, hname⟩ := Option.isSome_iff_exists.mp h
    rw [VagrantProvider.generateServerName, wp_bind, wp_get]
    simp only [hname, wp_pure]
    exact List.mem_of_find?_eq_some hname

/-- After a run, a name is generated if and only if fewer creations have made a directory
than there were free names, however many servers were destroyed in the meantime. -/
theorem generatesName_fleetRun_iff (s : Fleet) (as : List (FleetAction T)) :
    GeneratesName p (fleetRun p s as).dirs ↔
      as.countP FleetAction.makesDir < freeNames p s.dirs := by
  rw [generatesName_iff, freeNames_fleetRun]
  omega

/-- In an empty workspace. -/
theorem freeNames_nil : freeNames p [] = 98 := by
  have hfree : ∀ name ∈ numberedNames p.providerConfig, p.isFree [] name = true := fun _ _ => rfl
  rw [freeNames, List.countP_eq_length.mpr hfree, numberedNames, List.length_map, List.length_range]

/-- One server after another, each destroyed before the next one is created. -/
def inTurn : ℕ → List (FleetAction T)
  | 0 => []
  | n + 1 => .create .smooth :: .destroy 0 :: inTurn n

theorem countP_inTurn (n : ℕ) :
    (inTurn n : List (FleetAction T)).countP FleetAction.makesDir = n := by
  induction n with
  | zero => rfl
  | succ n ih =>
    rw [inTurn, List.countP_cons, List.countP_cons, ih]
    rfl

theorem servers_create_le (s : Fleet) (env : Env T) :
    (fleetStep p s (.create env)).servers.length ≤ s.servers.length + 1 := by
  simp only [fleetStep]
  split
  · rfl
  · exact Nat.le_succ _

theorem servers_destroy_eq_nil {s : Fleet} (hs : s.servers.length ≤ 1) :
    (fleetStep p s (.destroy 0 : FleetAction T)).servers = [] := by
  match h : s.servers with
  | [] => simp [fleetStep, h]
  | [_] => simp [fleetStep, h]
  | _ :: _ :: _ => simp [h] at hs

/-- There is never more than one. -/
theorem servers_inTurn {n : ℕ} {s : Fleet} (hs : s.servers = []) {as : List (FleetAction T)}
    (has : as <+: inTurn n) : (fleetRun p s as).servers.length ≤ 1 := by
  induction n generalizing s as with
  | zero =>
    obtain rfl := List.prefix_nil.mp has
    simp [fleetRun, hs]
  | succ n ih =>
    have hone := servers_create_le p s (.smooth : Env T)
    rw [hs] at hone
    rcases List.prefix_cons_iff.mp has with rfl | ⟨as, rfl, hdestroy⟩
    · simp [fleetRun, hs]
    · rcases List.prefix_cons_iff.mp hdestroy with rfl | ⟨as, rfl, hrest⟩
      · exact hone
      · exact ih (servers_destroy_eq_nil p hone) hrest

/-- Ninety-eight servers in turn use up the names. -/
theorem VagrantProvider.used_up_by_one_at_a_time :
    let p : BaseProvider := ⟨"vagrant", {}, .parse "/data/vagrant", .vagrant⟩
    (∀ as : List (FleetAction ℕ), as <+: inTurn 98 → (fleetRun p ⟨[], []⟩ as).servers.length < 98) ∧
      ¬ GeneratesName p (fleetRun p ⟨[], []⟩ (inTurn 98 : List (FleetAction ℕ))).dirs := by
  intro p
  constructor
  · intro as has
    have hle := servers_inTurn p (s := ⟨[], []⟩) rfl has
    omega
  · rw [generatesName_iff, freeNames_fleetRun, freeNames_nil, countP_inTurn]
    decide

end Runs

end Lobbyboy.Provider
