import Lobbyboy.Foundation.LookThenMake
import Lobbyboy.Provider.Naming

/-! Threads that name servers of one provider at the same time. Whether a name is free and
making its directory are two steps, between which the other threads go on. The default
names are safe: `mkdir` fails for all but one. The names of vagrant are not, since its
`mkdir` accepts a directory that is there. -/

namespace Lobbyboy.Provider

open Foundation Utils Config Prog BaseProvider

/-- What one of the calls does: it begins and reads the clock, asks whether the directory of
its next candidate exists, and makes the directory. -/
inductive NamingStep (ι : Type)
  | call (i : ι) (now : DateTime)
  | pathExists (i : ι)
  | mkdir (i : ι)

def NamingStep.caller {ι : Type} : NamingStep ι → ι
  | .call i _ => i
  | .pathExists i => i
  | .mkdir i => i

section Steps

variable (p : BaseProvider)

/-- The directories in the workspace, by the names of their servers. -/
def BaseProvider.directories : Board (List PosixPath) String where
  taken dirs name := !p.isFree dirs name
  make dirs name := p.getServerWorkspace name :: dirs
  taken_make dirs name := by simp [isFree, dirExists]
  taken_of_taken {dirs k k'} h := by
    simp only [isFree, Bool.not_not] at h ⊢
    exact dirExists_of_subset (List.subset_cons_self _ _) h

variable {ι : Type} [DecidableEq ι]

abbrev NamingState (ι : Type) := Board.State ι (List PosixPath) String

/-- The steps in the words of the board. -/
def NamingStep.action (candidates : DateTime → List String) :
    NamingStep ι → Board.Action ι String
  | .call i now => .start i (candidates now)
  | .pathExists i => .look i
  | .mkdir i => .make i

/-- `generate_default_server_name`, with `mkdir(parents=True)`. -/
def defaultNameStep (s : NamingState ι) (a : NamingStep ι) : Option (NamingState ι) :=
  p.directories.step true s (a.action (minuteNames p.providerConfig))

/-- `VagrantProvider.generate_server_name` and the `mkdir(exist_ok=True, parents=True)` of
its `create_server`. -/
def VagrantProvider.nameStep (s : NamingState ι) (a : NamingStep ι) : Option (NamingState ι) :=
  p.directories.step false s (a.action fun _ => numberedNames p.providerConfig)

/-- Nobody has called yet. -/
def NamingState.start (dirs : List PosixPath) : NamingState ι := ⟨dirs, fun _ => .idle⟩

end Steps

/-! ### The default names -/

section Default

variable {p : BaseProvider} {ι : Type} [DecidableEq ι]

theorem exclusive_run {dirs : List PosixPath} {as : List (NamingStep ι)} {s : NamingState ι}
    (hr : run (defaultNameStep p) (.start dirs) as = some s) : p.directories.Exclusive s :=
  run_invariant' (fun h hs => Board.exclusive_step h hs) (Board.exclusive_idle dirs) hr

omit [DecidableEq ι] in
theorem party_action (candidates : DateTime → List String) (a : NamingStep ι) :
    (a.action candidates).party = a.caller := by
  cases a <;> rfl

/-- The end of a call that nobody interferes with, in the words of the board. -/
theorem phase_of_alone {s s' : NamingState ι} {i : ι} {now : DateTime}
    {as : List (NamingStep ι)} (hi : s.phase i = .idle) (has : ∀ a ∈ as, a.caller = i)
    (hr : run (defaultNameStep p) s (.call i now :: as) = some s') (hend : (s'.phase i).Ended) :
    s'.phase i = p.directories.outcome s.board s.board (minuteNames p.providerConfig now) := by
  have hmap := (run_map (NamingStep.action (minuteNames p.providerConfig)) s _).symm.trans hr
  refine Board.phase_alone (fun a ha => ?_) hi hmap hend
  obtain ⟨b, hb, rfl⟩ := List.mem_map.mp ha
  rw [party_action, has b hb]

omit [DecidableEq ι] in
theorem exists_map_action (candidates : DateTime → List String) {i : ι}
    {as : List (Board.Action ι String)} (h : ∀ a ∈ as, a = .look i ∨ a = .make i) :
    ∃ bs : List (NamingStep ι), (∀ b ∈ bs, b.caller = i) ∧
      bs.map (NamingStep.action candidates) = as := by
  induction as with
  | nil => exact ⟨[], by simp, rfl⟩
  | cons a as ih =>
    obtain ⟨ha, has⟩ := List.forall_mem_cons.mp h
    obtain ⟨bs, hbs, rfl⟩ := ih has
    rcases ha with rfl | rfl
    · exact ⟨.pathExists i :: bs, List.forall_mem_cons.mpr ⟨rfl, hbs⟩, rfl⟩
    · exact ⟨.mkdir i :: bs, List.forall_mem_cons.mpr ⟨rfl, hbs⟩, rfl⟩

/-- A call comes to its end when it goes on. -/
theorem exists_run_alone {s : NamingState ι} {i : ι} (hi : s.phase i = .idle) (now : DateTime) :
    ∃ as, (∀ a ∈ as, a.caller = i) ∧ ∃ s', run (defaultNameStep p) s (.call i now :: as) = some s' ∧
      (s'.phase i).Ended := by
  have hcall : defaultNameStep p s (.call i now) =
      some (s.setPhase i (.looking s.board (minuteNames p.providerConfig now))) := by
    simp only [defaultNameStep, NamingStep.action, Board.step, hi]
  obtain ⟨as, has, s', hr, hend⟩ := Board.exists_run_of_looking p.directories true
    (Board.State.setPhase_self s i (.looking s.board (minuteNames p.providerConfig now)))
  obtain ⟨bs, hbs, rfl⟩ := exists_map_action (minuteNames p.providerConfig) has
  refine ⟨bs, hbs, s', ?_, hend⟩
  rw [run_cons, hcall, Option.bind_some, ← hr]
  exact run_map (NamingStep.action (minuteNames p.providerConfig)) _ bs

/-- `find?` over the board is the first free name. -/
theorem outcome_directories (dirs before : List PosixPath) (names : List String) :
    p.directories.outcome dirs before names =
      match names.find? (p.isFree dirs) with
      | none => .exhausted
      | some name => .made before name := by
  simp only [Board.outcome, directories, Bool.not_not]
  cases names.find? (p.isFree dirs) <;> rfl

theorem outcome_eq_exhausted_iff (dirs before : List PosixPath) (names : List String) :
    p.directories.outcome dirs before names = .exhausted ↔
      ∀ name ∈ names, p.isFree dirs name = false := by
  rw [outcome_directories]
  cases hfind : names.find? (p.isFree dirs) with
  | none =>
    rw [List.find?_eq_none] at hfind
    simpa using hfind
  | some name =>
    have hmem := List.mem_of_find?_eq_some hfind
    have hfree := List.find?_some hfind
    simp only [reduceCtorEq, false_iff, not_forall]
    exact ⟨name, hmem, by simp [hfree]⟩

/-- A call that nobody interferes with has no name left exactly if the plain name of its
minute and the 26 names with a letter exist. -/
theorem phase_eq_exhausted_iff {s s' : NamingState ι} {i : ι} {now : DateTime}
    {as : List (NamingStep ι)} (hi : s.phase i = .idle) (has : ∀ a ∈ as, a.caller = i)
    (hr : run (defaultNameStep p) s (.call i now :: as) = some s') (hend : (s'.phase i).Ended) :
    let name := minuteName p.providerConfig now
    s'.phase i = .exhausted ↔ p.isFree s.board name = false ∧
      ∀ k < 26, p.isFree s.board (name ++ (Char.ofNat ('a'.toNat + k)).toString) = false := by
  intro name
  rw [phase_of_alone hi has hr hend, outcome_eq_exhausted_iff]
  simp only [mem_minuteNames_iff]
  constructor
  · exact fun h => ⟨h _ (.inl rfl), fun k hk => h _ (.inr ⟨k, hk, rfl⟩)⟩
  · rintro ⟨hplain, hletters⟩ _ (rfl | ⟨k, hk, rfl⟩)
    · exact hplain
    · exact hletters k hk

/-- The names that the threads return are distinct, none was an existing workspace before
its call, and each has its workspace afterwards. A call that nobody interferes with comes
to an end; it raises if every name of its minute exists, and returns the first free one
otherwise. -/
theorem generateDefaultServerName_distinct (p : BaseProvider) (dirs : List PosixPath) :
    (∀ (as : List (NamingStep ι)) (s : NamingState ι),
      run (defaultNameStep p) (.start dirs) as = some s →
      (∀ i j before before' name, s.phase i = .made before name → s.phase j = .made before' name →
        i = j) ∧
      ∀ i before name, s.phase i = .made before name →
        dirExists before (p.getServerWorkspace name) = false ∧
          dirExists s.board (p.getServerWorkspace name) = true) ∧
    ∀ (s : NamingState ι) (i : ι) (now : DateTime), s.phase i = .idle →
      (∃ as, (∀ a ∈ as, a.caller = i) ∧ ∃ s',
        run (defaultNameStep p) s (.call i now :: as) = some s' ∧ (s'.phase i).Ended) ∧
      ∀ as s', (∀ a ∈ as, a.caller = i) →
        run (defaultNameStep p) s (.call i now :: as) = some s' → (s'.phase i).Ended →
        (s'.phase i = .exhausted ↔
          ∀ name ∈ minuteNames p.providerConfig now, p.isFree s.board name = false) ∧
        ∀ name, s'.phase i = .made s.board name ↔
          (minuteNames p.providerConfig now).find? (p.isFree s.board) = some name := by
  constructor
  · intro as s hr
    have h := exclusive_run hr
    refine ⟨fun i j _ _ name hi hj => h.distinct hi hj, fun i before name hi => ?_⟩
    simpa [directories, isFree] using h.made hi
  · intro s i now hi
    refine ⟨exists_run_alone hi now, fun as s' has hr hend => ?_⟩
    rw [phase_of_alone hi has hr hend]
    refine ⟨outcome_eq_exhausted_iff _ _ _, fun name => ?_⟩
    rw [outcome_directories]
    cases (minuteNames p.providerConfig now).find? (p.isFree s.board) <;> simp

/-- Two users create within one minute: one of the calls fails. -/
theorem generateDefaultServerName_distinct_two :
    let p : BaseProvider := ⟨"f", {}, .parse "/data/f", .footloose⟩
    let now : DateTime := ⟨2012, 1, 14, 12, 0, 1⟩
    ∃ s : NamingState ℕ, run (defaultNameStep p) (.start [])
        [.call 0 now, .call 1 now, .pathExists 0, .pathExists 1, .mkdir 0, .mkdir 1] = some s ∧
      s.phase 1 = .collided ∧
      dirExists s.board (p.getServerWorkspace "2012-01-14-1200") = true := by
  intro p now
  have hrun : (run (defaultNameStep p) (.start [])
      [.call 0 now, .call 1 now, .pathExists 0, .pathExists 1, .mkdir 0, .mkdir 1]).any
      (fun s : NamingState ℕ => decide (s.phase 0 = .made [] "2012-01-14-1200") &&
        decide (s.phase 1 = .collided)) = true := by
    decide +kernel
  obtain ⟨s, hs, hphases⟩ := (Option.any_eq_true _ _).mp hrun
  rw [Bool.and_eq_true, decide_eq_true_eq, decide_eq_true_eq] at hphases
  refine ⟨s, hs, hphases.2, ?_⟩
  exact (((generateDefaultServerName_distinct p []).1 _ s hs).2 0 [] _ hphases.1).2

/-- A call as a program of its own is the one that nobody interferes with. -/
theorem claimName_outcome {T : Type} {env : Env T} (names : List String) (w : World T) :
    wp (claimName env p names)
      (fun r w' =>
        match r with
        | none => p.directories.outcome w.dirs w.dirs names = .exhausted ∧ w'.dirs = w.dirs
        | some name => p.directories.outcome w.dirs w.dirs names = .made w.dirs name ∧
          w'.dirs = p.directories.make w.dirs name)
      (fun e _ => ∃ n x, env.raises n = some x ∧ e = .raised x) w := by
  induction names with
  | nil => exact (wp_pure none).mpr ⟨rfl, rfl⟩
  | cons name names ih =>
    simp only [claimName, wp_bind, wp_get, wp_ite, wp_makeDir, wp_pure]
    rw [outcome_directories]
    split_ifs with hfree
    · refine ⟨fun _ => ?_, fun e he => ⟨_, e, he, rfl⟩⟩
      rw [List.find?_cons_of_pos hfree]
      exact ⟨rfl, rfl⟩
    · rw [List.find?_cons_of_neg hfree, ← outcome_directories]
      exact ih

theorem generateDefaultServerName_outcome {T : Type} {env : Env T} (w : World T) :
    wp (generateDefaultServerName env p)
      (fun name w' => p.directories.outcome w.dirs w.dirs
        (minuteNames p.providerConfig (env.localTime w.tick)) = .made w.dirs name ∧
          w'.dirs = p.directories.make w.dirs name)
      (fun e w' => (p.directories.outcome w.dirs w.dirs
          (minuteNames p.providerConfig (env.localTime w.tick)) = .exhausted ∧ w'.dirs = w.dirs ∧
          ∃ msg, e = .raised ⟨.noAvailableNameException, msg⟩) ∨
        ∃ n x, env.raises n = some x ∧ e = .raised x) w := by
  simp only [generateDefaultServerName, wp_bind, wp_tick]
  refine wp_mono (claimName_outcome _ w.next) ?_ fun e w' h => .inr h
  intro r w' h
  cases r with
  | none => exact (wp_raise _).mpr (.inl ⟨h.1, h.2, _, rfl⟩)
  | some name => exact (wp_pure name).mpr h

end Default

/-! ### The names of vagrant -/

section Vagrant

variable (p : BaseProvider) {ι : Type} [DecidableEq ι]

/-- A name that is found is not one that another call has found and whose directory it has
yet to make. -/
def VagrantProvider.careful (s : NamingState ι) (a : NamingStep ι) : Prop :=
  p.directories.Careful s (a.action fun _ => numberedNames p.providerConfig)

/-- Along careful steps no two calls proceed with one name; a step that is not careful can
be followed by two calls that do. -/
theorem VagrantProvider.createServer_distinct (dirs : List PosixPath) :
    (∀ (as : List (NamingStep ι)) (s : NamingState ι),
      Along (VagrantProvider.nameStep p) (VagrantProvider.careful p) (.start dirs) as →
      run (VagrantProvider.nameStep p) (.start dirs) as = some s →
      ∀ i j before before' name, s.phase i = .made before name → s.phase j = .made before' name →
        i = j) ∧
    ∀ (s : NamingState ι) (a : NamingStep ι), ¬ VagrantProvider.careful p s a →
      ∃ i j s' before before' name, i ≠ j ∧
        run (VagrantProvider.nameStep p) s [a, .mkdir i, .mkdir j] = some s' ∧
        s'.phase i = .made before name ∧ s'.phase j = .made before' name := by
  constructor
  · intro as s hcareful hr i j before before' name hi hj
    have hapart : p.directories.Apart s :=
      run_invariant (fun hc h hs => Board.apart_step hc h hs) hcareful (Board.apart_idle dirs) hr
    exact hapart.distinct (by rw [hi]; rfl) (by rw [hj]; rfl)
  · intro s a h
    obtain ⟨i, j, s', before, before', name, hne, hr, hi, hj⟩ := Board.exists_run_of_not_careful h
    refine ⟨i, j, s', before, before', name, hne, ?_, hi, hj⟩
    exact (run_map (NamingStep.action fun _ => numberedNames p.providerConfig) s
      [a, .mkdir i, .mkdir j]).trans hr

omit [DecidableEq ι] in
/-- Where nobody has found a name, any step is careful. -/
theorem VagrantProvider.careful_of_found {s : NamingState ι} {a : NamingStep ι}
    (h : ∀ i before name, s.phase i ≠ .found before name) : VagrantProvider.careful p s a :=
  fun _ _ _ _ _ _ _ _ j before => h j before _

/-- Two users create one after the other, in an empty workspace. -/
theorem VagrantProvider.createServer_distinct_two :
    let p : BaseProvider := ⟨"vagrant", {}, .parse "/data/vagrant", .vagrant⟩
    let now : DateTime := ⟨2012, 1, 14, 12, 0, 1⟩
    ∃ s : NamingState ℕ, run (VagrantProvider.nameStep p) (.start [])
        [.call 0 now, .pathExists 0, .mkdir 0, .call 1 now, .pathExists 1, .pathExists 1,
          .mkdir 1] = some s ∧
      s.phase 0 = .made [] "1" ∧ s.phase 1 = .made [p.getServerWorkspace "1"] "2" ∧
      ∀ i j before before' name, s.phase i = .made before name → s.phase j = .made before' name →
        i = j := by
  intro p now
  have hphases : (run (VagrantProvider.nameStep p) (.start [])
      [.call 0 now, .pathExists 0, .mkdir 0, .call 1 now, .pathExists 1, .pathExists 1,
        .mkdir 1]).map (fun s : NamingState ℕ => (s.phase 0, s.phase 1)) =
        some (.made [] "1", .made [p.getServerWorkspace "1"] "2") := by
    decide +kernel
  obtain ⟨s, hs, hmade⟩ := Option.map_eq_some_iff.mp hphases
  rw [Prod.mk.injEq] at hmade
  refine ⟨s, hs, hmade.1, hmade.2, (VagrantProvider.createServer_distinct p []).1 _ s ?_ hs⟩
  -- only a call that looks has to be careful
  have hcall : ∀ {s : NamingState ℕ} {i : ℕ}, VagrantProvider.careful p s (.call i now) := by
    intro s i j before left b k ha
    cases ha
  have hmkdir : ∀ {s : NamingState ℕ} {i : ℕ}, VagrantProvider.careful p s (.mkdir i) := by
    intro s i j before left b k ha
    cases ha
  refine (along_cons rfl).mpr ⟨hcall, (along_cons rfl).mpr ⟨?_, ?_⟩⟩
  · refine VagrantProvider.careful_of_found p fun i before name hi => ?_
    rcases i with _ | i <;> cases hi
  refine (along_cons rfl).mpr ⟨hmkdir, (along_cons rfl).mpr ⟨hcall, ?_⟩⟩
  refine ⟨?_, fun s₁ hs₁ => ⟨?_, fun s₂ _ => ⟨hmkdir, fun _ _ => trivial⟩⟩⟩
  · refine VagrantProvider.careful_of_found p fun i before name hi => ?_
    rcases i with _ | _ | i <;> cases hi
  · -- the first name is taken, so the second user looks on
    have htaken : p.directories.taken [p.getServerWorkspace "1"] "1" = true := by decide +kernel
    refine VagrantProvider.careful_of_found p fun i before name hi => ?_
    cases Board.moves_of_step hs₁ with
    | look hlooking =>
      cases hlooking
      by_cases hi1 : i = 1
      · rw [hi1, Board.State.setPhase_self] at hi
        cases (if_pos htaken).symm.trans hi
      · rw [Board.State.setPhase_of_ne _ hi1] at hi
        rcases i with _ | _ | i
        · cases hi
        · exact hi1 rfl
        · cases hi

/-- Two users create at once, in an empty workspace. -/
theorem VagrantProvider.both_first :
    let p : BaseProvider := ⟨"vagrant", {}, .parse "/data/vagrant", .vagrant⟩
    let now : DateTime := ⟨2012, 1, 14, 12, 0, 1⟩
    ∃ s : NamingState ℕ, run (VagrantProvider.nameStep p) (.start [])
        [.call 0 now, .call 1 now, .pathExists 0, .pathExists 1, .mkdir 0, .mkdir 1] = some s ∧
      s.phase 0 = .made [] "1" ∧ s.phase 1 = .made [] "1" :=
  ⟨_, rfl, rfl, rfl⟩

end Vagrant

end Lobbyboy.Provider
