import Lobbyboy.Foundation.Interference
import Lobbyboy.SocketHandle.Session
import Lobbyboy.Utils.Prompts

/-! What a number means in the menus of a session. The servers are loaded once; the lines
that are shown and the list that the number indexes are both made from what was loaded, so
a number means the server beside which it stands, whatever the other threads make of the
database in the meantime. -/

namespace Lobbyboy.SocketHandle

open Foundation Utils Config Provider Prog

/-! ### The menu as a program of its own -/

section Program

variable (env : Env Transport) (providers : Providers)

/-- From the lines of the menu to the number that is accepted. -/
def chooseNumber (availableServers : ServerMap) : Prog Transport ℕ := do
  let described ← describeServers env availableServers.values
  chooseOption env ("Create a new server..." :: described)
    (some s!"There are {availableServers.values.length} available servers:")

/-- `choose_server`, with that menu. -/
def chooseServerWith (menu : ServerMap → Prog Transport ℕ) : Prog Transport LBServerMeta := do
  let availableServers ← loadServers env
  if availableServers.entries = [] then do
    sendToChannel env (utf8 "There is no available servers, provision a new server...")
    askUserToCreateServer env providers
  else do
    let userInput ← menu availableServers
    match userInput with
    | 0 => askUserToCreateServer env providers
    | i + 1 =>
      match availableServers.values[i]? with
      | some m => return m
      | none => raise ⟨.exception, "list index out of range"⟩

theorem chooseServer_eq :
    chooseServer env providers = chooseServerWith env providers (chooseNumber env) := by
  simp only [chooseServerWith, chooseNumber, bind_assoc]
  rfl

end Program

variable {env : Env Transport} {providers : Providers}

/-! ### It does not depend on the database -/

/-- Other threads write the database. -/
def dbChanges : Changes (World Transport) where
  mem f := ∃ g : DbFile → DbFile, f = fun w => { w with db := g w.db }
  id := ⟨id, rfl⟩
  comp := by
    rintro _ _ ⟨g, rfl⟩ ⟨h, rfl⟩
    exact ⟨h ∘ g, rfl⟩

theorem commutes_tick : Commutes dbChanges (tick : Prog Transport ℕ) := by
  rintro _ ⟨g, rfl⟩ w
  rfl

theorem commutes_raise {α : Type} (e : PyExc) : Commutes dbChanges (raise e : Prog Transport α) :=
  .throw _

/-- A part of the state other than the database is changed. -/
theorem commutes_modify {g : World Transport → World Transport}
    (h : ∀ w db, g { w with db := db } = { g w with db := db }) (hdb : ∀ w, (g w).db = w.db) :
    Commutes dbChanges (modify g : Prog Transport PUnit) := by
  refine .modify ?_
  rintro _ ⟨f, rfl⟩ w
  change g { w with db := f w.db } = { g w with db := f (g w).db }
  rw [hdb, h]

theorem commutes_call : Commutes dbChanges (call env) := by
  refine .bind commutes_tick fun n => ?_
  cases env.raises n with
  | none => exact .pure _
  | some e => exact commutes_raise e

theorem commutes_sendToChannel (msg suffix : List UInt8) :
    Commutes dbChanges (sendToChannel env msg suffix) :=
  .bind commutes_call fun _ => commutes_modify (fun _ _ => rfl) fun _ => rfl

theorem commutes_handle {α : Type} {p : Prog Transport α} {h : PyExc → Prog Transport α}
    (hp : Commutes dbChanges p) (hh : ∀ e, Commutes dbChanges (h e)) :
    Commutes dbChanges (handle p h) := by
  refine .tryCatch hp fun s => ?_
  cases s with
  | raised e => exact hh e
  | waiting => exact .throw _

theorem commutes_readSessions : Commutes dbChanges (readSessions env) := by
  refine .bind commutes_tick fun n => .bind (commutes_modify (fun _ _ => rfl) fun _ => rfl)
    fun _ => .get_bind (fun _ => .pure _) ?_
  rintro _ ⟨g, rfl⟩ w
  rfl

theorem commutes_describeServers (servers : List LBServerMeta) :
    Commutes dbChanges (describeServers env servers) := by
  induction servers with
  | nil => exact .pure _
  | cons m ms ih =>
    exact .bind commutes_readSessions fun _ => .bind ih fun _ => .pure _

theorem commutes_readLine (bs chars : List UInt8) :
    Commutes dbChanges (readLine env bs chars) := by
  induction bs generalizing chars with
  | nil => exact .throw _
  | cons b bs ih =>
    refine .bind commutes_call fun _ => .bind (commutes_modify (fun _ _ => rfl) fun _ => rfl)
      fun _ => .ite (commutes_raise _) (.ite ?_ (.ite ?_ ?_))
    · exact .bind (commutes_sendToChannel _ _) fun _ => .pure _
    · exact .bind (commutes_sendToChannel _ _) fun _ => ih _
    · exact .bind (commutes_sendToChannel _ _) fun _ => ih _

theorem commutes_readUserInputLine : Commutes dbChanges (readUserInputLine env) := by
  refine .get_bind (fun w => .bind (commutes_readLine _ _) fun chars => ?_) ?_
  · split
    · exact .pure _
    · exact commutes_raise _
  · rintro _ ⟨g, rfl⟩ w
    rfl

theorem commutes_sendOptions (index : ℕ) (options : List String) :
    Commutes dbChanges (sendOptions env index options) := by
  induction options generalizing index with
  | nil => exact .pure _
  | cons option options ih => exact .bind (commutes_sendToChannel _ _) fun _ => ih _

theorem commutes_chooseOnce (options : List String) (optionPrompt askPrompt : Option String)
    (default : Option ℕ) :
    Commutes dbChanges (chooseOnce env options optionPrompt askPrompt default) := by
  have hunknown : Commutes dbChanges (unknownChoice env options) :=
    .bind (commutes_sendToChannel _ _) fun _ => .pure _
  refine .bind (commutes_sendToChannel _ _) fun _ => .bind (commutes_sendOptions _ _) fun _ =>
    .bind (commutes_sendToChannel _ _) fun _ => .bind commutes_readUserInputLine fun result => ?_
  cases selected? options default result with
  | none => exact hunknown
  | some num =>
    exact commutes_handle (.bind (commutes_sendToChannel _ _) fun _ => .pure _) fun _ => hunknown

theorem commutes_chooseWithin (options : List String) (optionPrompt askPrompt : Option String)
    (default : Option ℕ) (n : ℕ) :
    Commutes dbChanges (chooseWithin env options optionPrompt askPrompt default n) := by
  induction n generalizing default with
  | zero => exact .throw _
  | succ n ih =>
    refine .bind (commutes_chooseOnce _ _ _ _) fun r => ?_
    cases r with
    | none => exact ih none
    | some num => exact .pure _

/-- The menu does the same whatever is in the database. -/
theorem commutes_chooseNumber (availableServers : ServerMap) :
    Commutes dbChanges (chooseNumber env availableServers) := by
  refine .bind (commutes_describeServers _) fun described =>
    .get_bind (fun w => commutes_chooseWithin _ _ _ _ _) ?_
  rintro _ ⟨g, rfl⟩ w
  rfl

/-! ### What is beside a number -/

/-- A line of the menu of servers. -/
def Describes (m : LBServerMeta) (text : String) : Prop :=
  ∃ sessionsCnt : ℕ, text =
    s!"Enter {m.providerName} {m.serverName} {m.serverHost} ({sessionsCnt} active sessions)"

/-- `k` was accepted in this menu, where `text` stood beside it. -/
structure Entered (options : List String) (optionPrompt askPrompt : Option String)
    (default : Option ℕ) (k : ℕ) (text : String) (w w' : World Transport) : Prop where
  answered : Answered options optionPrompt askPrompt default k w w'
  beside : options[k]? = some text

theorem Entered.mono {options : List String} {optionPrompt askPrompt : Option String}
    {default : Option ℕ} {k : ℕ} {text : String} {w₁ w₁' w w' : World Transport}
    (h : Entered options optionPrompt askPrompt default k text w₁ w₁') (hinput : w₁.input = w.input)
    (houtput : w₁.output = w.output) (hinput' : w'.input = w₁'.input)
    (houtput' : w'.output = w₁'.output) :
    Entered options optionPrompt askPrompt default k text w w' := by
  refine ⟨?_, h.beside⟩
  unfold Answered
  rw [← hinput, ← houtput, hinput', houtput']
  exact h.answered

/-- The line was sent, with the number before the text. -/
theorem Entered.displayed {options : List String} {optionPrompt askPrompt : Option String}
    {default : Option ℕ} {k : ℕ} {text : String} {w w' : World Transport}
    (h : Entered options optionPrompt askPrompt default k text w w') :
    ∃ sent, w'.output = w.output ++ sent ∧ utf8 (optionLine k text) ++ crlf ∈ sent := by
  obtain ⟨before, line, s, sent, -, -, -, houtput⟩ := h.answered
  refine ⟨_, houtput, List.mem_append_right _ ?_⟩
  have hline : (optionLines 0 options)[k]? = some (utf8 (optionLine k text) ++ crlf) := by
    rw [optionLines_getElem?, h.beside, Nat.zero_add]
    rfl
  have hmem := List.mem_of_getElem? hline
  simp only [Utils.attempt, prompt, List.mem_append, List.mem_cons]
  exact .inl (.inl (.inl (.inr hmem)))

theorem describeServers_spec (servers : List LBServerMeta) (w : World Transport) :
    wp (describeServers env servers) (fun described w' => List.Forall₂ Describes servers described ∧
      w'.input = w.input ∧ w'.output = w.output ∧ w'.log = w.log) (fun _ _ => True) w := by
  induction servers generalizing w with
  | nil => exact (wp_pure _).mpr ⟨.nil, rfl, rfl, rfl⟩
  | cons m ms ih =>
    simp only [describeServers, wp_bind, wp_readSessions]
    refine wp_mono (ih _) ?_ fun _ _ h => h
    rintro described w' ⟨hrest, hinput, houtput, hlog⟩
    exact (wp_pure _).mpr ⟨.cons ⟨_, rfl⟩ hrest, hinput, houtput, hlog⟩

/-- The number is 0, or stands beside the server that it indexes. -/
structure Numbered (servers : List LBServerMeta) (described : List String) (k : ℕ)
    (w w' : World Transport) : Prop where
  lines : List.Forall₂ Describes servers described
  entered : ∃ text, Entered ("Create a new server..." :: described)
    (some s!"There are {servers.length} available servers:") none none k text w w'
  log : w'.log = w.log

theorem Numbered.mono {servers : List LBServerMeta} {described : List String} {k : ℕ}
    {w₁ w₁' w w' : World Transport} (h : Numbered servers described k w₁ w₁')
    (hinput : w₁.input = w.input) (houtput : w₁.output = w.output) (hlog : w₁.log = w.log)
    (hinput' : w'.input = w₁'.input) (houtput' : w'.output = w₁'.output)
    (hlog' : w'.log = w₁'.log) : Numbered servers described k w w' := by
  obtain ⟨text, htext⟩ := h.entered
  exact ⟨h.lines, ⟨text, htext.mono hinput houtput hinput' houtput'⟩,
    hlog'.trans (h.log.trans hlog)⟩

/-- The line behind the first one at a place describes the server at that place. -/
theorem Numbered.describes {servers : List LBServerMeta} {described : List String} {k i : ℕ}
    {w w' : World Transport} (h : Numbered servers described k w w') {m : LBServerMeta}
    {text : String} (hm : servers[i]? = some m) (htext : described[i]? = some text) :
    Describes m text := by
  obtain ⟨hi, rfl⟩ := List.getElem?_eq_some_iff.mp hm
  obtain ⟨hi', rfl⟩ := List.getElem?_eq_some_iff.mp htext
  exact h.lines.get hi hi'

theorem chooseNumber_spec (availableServers : ServerMap) (w : World Transport) :
    wp (chooseNumber env availableServers) (fun k w' => ∃ described,
      Numbered availableServers.values described k w w') (fun _ _ => True) w := by
  rw [chooseNumber, wp_bind]
  refine wp_mono (describeServers_spec _ w) ?_ fun _ _ h => h
  rintro described w₁ ⟨hdescribed, hinput, houtput, hlog⟩
  refine wp_mono (wp_and chooseOption_answered (silent_chooseOption _ _ _ _ w₁)) ?_
    fun _ _ _ => trivial
  rintro k w' ⟨hanswered, hsilent⟩
  have htext := List.getElem?_eq_getElem hanswered.lt
  exact ⟨described, hdescribed, ⟨_, Entered.mono ⟨hanswered, htext⟩ hinput houtput rfl rfl⟩,
    hsilent.log.trans hlog⟩

/-- The provider is the one beside whose name the number stood. -/
def ProviderEntered (providers : Providers) (p : BaseProvider) (w w' : World Transport) : Prop :=
  ∃ k name askPrompt default, Entered providers.keys (some "Available VPS providers:")
    (some askPrompt) default k name w w' ∧ providers.entries[k]? = some (name, p)

theorem chooseProviders_entered (w : World Transport) :
    wp (chooseProviders env providers) (fun p w' => ProviderEntered providers p w w')
      (fun _ _ => True) w := by
  rw [chooseProviders, wp_ite]
  split_ifs
  · simp
  · rw [wp_bind]
    refine wp_mono chooseOption_answered ?_ fun _ _ h => h
    intro k w' hk
    rw [OrderedDict.values, List.getElem?_map]
    cases hentry : providers.entries[k]? with
    | none => exact (wp_raise _).mpr trivial
    | some entry =>
      have hname : providers.keys[k]? = some entry.1 := by
        rw [OrderedDict.keys, List.getElem?_map, hentry]
        rfl
      exact (wp_pure _).mpr ⟨k, entry.1, _, _, ⟨hk, hname⟩, hentry⟩

/-- `m` is a new server of the provider that was entered. -/
def Provisioned (env : Env Transport) (providers : Providers) (m : LBServerMeta)
    (w : World Transport) : Prop :=
  ∃ p w₁ w₂, ProviderEntered providers p w w₁ ∧ p.createServer env w₁ = .ok m w₂

theorem askUserToCreateServer_provisioned (w : World Transport) :
    wp (askUserToCreateServer env providers) (fun m _ => Provisioned env providers m w)
      (fun _ _ => True) w := by
  rw [askUserToCreateServer, wp_bind]
  refine wp_mono (chooseProviders_entered w) ?_ fun _ _ h => h
  intro p w₁ hp
  rw [wp_bind]
  refine wp_mono (wp_self _ w₁) ?_ fun _ _ _ => trivial
  intro m w₂ hm
  rw [wp_bind, wp_updateServers]
  exact ⟨fun _ _ => (wp_pure m).mpr ⟨p, w₁, w₂, hp, hm⟩, fun _ _ => trivial⟩

/-! ### What a number means -/

/-- The session goes on with a server that was loaded, the one beside the number that was
accepted, or with a new one, where none was loaded or the number is 0. -/
inductive Chosen (env : Env Transport) (providers : Providers) (servers : ServerMap)
    (m : LBServerMeta) (w w' : World Transport) : Prop
  | first (w₁ : World Transport) : servers.entries = [] → w₁.input = w.input →
      Provisioned env providers m w₁ → Chosen env providers servers m w w'
  | new (described : List String) (w₁ : World Transport) : servers.entries ≠ [] →
      Numbered servers.values described 0 w w₁ → Provisioned env providers m w₁ →
      Chosen env providers servers m w w'
  | existing (described : List String) (i : ℕ) (text : String) (sent : List (List UInt8)) :
      servers.entries ≠ [] → Numbered servers.values described (i + 1) w w' →
      servers.values[i]? = some m → Describes m text → w'.output = w.output ++ sent →
      utf8 (optionLine (i + 1) text) ++ crlf ∈ sent → Chosen env providers servers m w w'

/-- `choose_server` chooses among the servers that it has loaded, by the lines that it has
shown, also when other threads write the database between any two steps of the menu. -/
theorem chooseServer_chosen (env : Env Transport) (providers : Providers)
    (menu : ServerMap → Prog Transport ℕ)
    (hmenu : ∀ servers, Amid dbChanges (chooseNumber env servers) (menu servers))
    (w : World Transport) :
    chooseServer env providers = chooseServerWith env providers (chooseNumber env) ∧
      wp (chooseServerWith env providers menu)
        (fun m w' => ∃ servers, loadLocalServers (env.time w.tick) w.db = .ok servers ∧
          Chosen env providers servers m w w') (fun _ _ => True) w := by
  refine ⟨chooseServer_eq env providers, ?_⟩
  rw [chooseServerWith, wp_bind, wp_loadServers]
  refine ⟨fun servers hload => ?_, fun _ _ => trivial⟩
  rw [wp_ite]
  split_ifs with hempty
  · simp only [wp_bind, wp_sendToChannel]
    refine ⟨fun _ => ?_, fun _ _ => trivial⟩
    refine wp_mono (askUserToCreateServer_provisioned _) ?_ fun _ _ h => h
    exact fun m w' hm => ⟨servers, hload, .first _ hempty (by rfl) hm⟩
  · rw [wp_bind]
    refine wp_mono ((hmenu servers).wp_of (chooseNumber_spec servers w.next) ?_
      fun _ _ _ _ _ => trivial) ?_ fun _ _ h => h
    · rintro _ ⟨g, rfl⟩ k w₁ ⟨described, h⟩
      exact ⟨described, h.mono rfl rfl rfl rfl rfl rfl⟩
    · rintro k w₁ ⟨described, h⟩
      have hnumbered : Numbered servers.values described k w w₁ := h.mono rfl rfl rfl rfl rfl rfl
      cases k with
      | zero =>
        refine wp_mono (askUserToCreateServer_provisioned w₁) ?_ fun _ _ h => h
        exact fun m w' hm => ⟨servers, hload, .new described w₁ hempty hnumbered hm⟩
      | succ i =>
        cases hm : servers.values[i]? with
        | none =>
          simp only [hm]
          exact (wp_raise _).mpr trivial
        | some m =>
          simp only [hm]
          obtain ⟨text, htext⟩ := hnumbered.entered
          obtain ⟨sent, houtput, hsent⟩ := htext.displayed
          exact (wp_pure m).mpr ⟨servers, hload, .existing described i text sent hempty hnumbered hm
            (hnumbered.describes hm htext.beside) houtput hsent⟩

/-- The menu is shown once the servers are loaded, if there are any. -/
theorem chooseServerWith_of_load {menu : ServerMap → Prog Transport ℕ} {servers : ServerMap}
    {w : World Transport} (hload : loadLocalServers (env.time w.tick) w.db = .ok servers)
    (hne : servers.entries ≠ []) :
    chooseServerWith env providers menu w =
      (menu servers >>= fun userInput =>
        match userInput with
        | 0 => askUserToCreateServer env providers
        | i + 1 =>
          match servers.values[i]? with
          | some m => return m
          | none => raise ⟨.exception, "list index out of range"⟩) w.next := by
  have hservers : loadServers env w = .ok servers w.next := by
    refine eq_ok_of_wp (wp_loadServers.mpr ⟨fun d hd => ?_, fun e he => ?_⟩)
    · cases hload.symm.trans hd
      exact ⟨rfl, rfl⟩
    · cases hload.symm.trans he
  rw [chooseServerWith, bind_apply, hservers]
  show (if servers.entries = [] then _ else _ : Prog Transport LBServerMeta) w.next = _
  rw [if_neg hne]

/-- Two servers are shown, and another thread empties the database. A user who then enters a
2 gets the second of them. -/
theorem chooseServer_chosen_second :
    let menu : ServerMap → Prog Transport ℕ := fun servers => do
      modify fun w => { w with db := none }
      chooseNumber .smooth servers
    let providers : Providers := .ofPairs [("f", ⟨"f", {}, .parse "/data/f", .footloose⟩)]
    let a : LBServerMeta := { providerName := "f", workspace := .parse "/data/f/a",
                              serverName := "a", createdTimestamp := 0 }
    let b : LBServerMeta := { providerName := "f", workspace := .parse "/data/f/b",
                              serverName := "b", createdTimestamp := 0 }
    let w : World Transport :=
      { db := some (storedServers (.ofPairs [("a", a), ("b", b)])).dumps, input := [50, 13] }
    (chooseServer .smooth providers = chooseServerWith .smooth providers (chooseNumber .smooth) ∧
      wp (chooseServerWith .smooth providers menu)
        (fun m w' => ∃ servers, loadLocalServers 0 w.db = .ok servers ∧
          Chosen .smooth providers servers m w w') (fun _ _ => True) w) ∧
      ∃ w', chooseServerWith .smooth providers menu w = .ok b w' ∧ w'.db = none := by
  intro menu providers a b w
  have hmenu : ∀ servers, Amid dbChanges (chooseNumber .smooth servers) (menu servers) :=
    fun servers => .change ⟨fun _ => none, rfl⟩ (.step (commutes_chooseNumber servers))
  refine ⟨chooseServer_chosen .smooth providers menu hmenu w, ?_⟩
  have hload : loadLocalServers ((.smooth : Env Transport).time w.tick) w.db =
      .ok (.ofPairs [("a", a), ("b", b)]) :=
    loadLocalServers_dumps _ ((keyed_empty.insert a).insert b)
  have hrun : returnsWith (chooseServerWith .smooth providers menu w)
      (fun m w' => decide (m = b) && decide (w'.db = none)) = true := by
    rw [chooseServerWith_of_load hload (by decide +kernel)]
    decide +kernel
  obtain ⟨m, w', hw', hcheck⟩ := of_returnsWith hrun
  rw [Bool.and_eq_true, decide_eq_true_eq, decide_eq_true_eq] at hcheck
  obtain ⟨rfl, hdb⟩ := hcheck
  exact ⟨w', hw', hdb⟩

end Lobbyboy.SocketHandle
