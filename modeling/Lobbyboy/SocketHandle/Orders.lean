import Lobbyboy.SocketHandle.Menu

/-! What `create_server` asks a provider for. The cloud providers ask for what stood beside
the numbers that the user has entered, whatever their API lists and however the creation
ends; the others ask for what is in the configuration. -/

namespace Lobbyboy.SocketHandle

open Foundation Utils Config Provider Prog BaseProvider

variable {env : Env Transport}

/-! ### What stood beside the numbers -/

/-- Nothing is read, and something may be sent. -/
def tells : Frame (World Transport) where
  rel w w' := w'.input = w.input ∧ ∃ sent, w'.output = w.output ++ sent
  refl _ := ⟨rfl, [], (List.append_nil _).symm⟩
  trans := by
    rintro w₁ w₂ w₃ ⟨hinput, sent, houtput⟩ ⟨hinput', sent', houtput'⟩
    exact ⟨hinput'.trans hinput, sent ++ sent', by rw [houtput', houtput, List.append_assoc]⟩

theorem tells_call : Keeps tells (call env) := by
  intro w
  rw [wp_call]
  exact ⟨fun _ => tells.refl w, fun _ _ => tells.refl w⟩

theorem tells_sendToChannel (msg suffix : List UInt8) :
    Keeps tells (sendToChannel env msg suffix) := by
  intro w
  rw [wp_sendToChannel]
  exact ⟨fun _ => ⟨rfl, _, rfl⟩, fun _ _ => tells.refl w⟩

/-- A number was accepted in this menu of one question, where `text` stood beside it. -/
abbrev Picked (options : List String) (askPrompt : String) (k : ℕ) (text : String)
    (w w' : World Transport) : Prop :=
  Entered options none (some askPrompt) none k text w w'

/-- The thing with this slug was listed, and the number beside its label was accepted. -/
def ListedPicked (env : Env Transport) (askPrompt slug : String) (w w' : World Transport) : Prop :=
  ∃ n k label, (env.listing n)[k]? = some (label, slug) ∧
    Picked ((env.listing n).map Prod.fst) askPrompt k label w w'

/-- How the user has come to a region, a size and an image: by a favorite, or one by one. -/
inductive Customized (env : Env Transport) (what size image : String) (favorites : List String)
    (order : List String) (w w' : World Transport) : Prop
  | favorite (i : ℕ) (text : String) : favorites[i]? = some text →
      (text.toList.splitOn ':').map String.ofList = order → order.length = 3 →
      Picked (s!"Manually choose a new {what} to create.." :: favorites)
        s!"Please choose new {what} to create: " (i + 1) text w w' →
      Customized env what size image favorites order w w'
  | manually (first regionSlug sizeSlug imageSlug : String) (w₁ w₂ w₃ w₄ : World Transport) :
      order = [regionSlug, sizeSlug, imageSlug] →
      Picked (s!"Manually choose a new {what} to create.." :: favorites)
        s!"Please choose new {what} to create: " 0 first w w₁ →
      tells.rel w₁ w₂ →
      ListedPicked env "Please choose region: " regionSlug w₂ w₃ →
      ListedPicked env s!"Please choose {size}: " sizeSlug w₃ w₄ →
      ListedPicked env s!"Please choose {image}: " imageSlug w₄ w' →
      Customized env what size image favorites order w w'

theorem chooseOption_picked {options : List String} {askPrompt : String} (w : World Transport) :
    wp (chooseOption env options none (some askPrompt)) (fun k w' => ∃ text,
      Picked options askPrompt k text w w') (fun _ _ => True) w := by
  refine wp_mono chooseOption_answered ?_ fun _ _ h => h
  intro k w' hanswered
  exact ⟨_, hanswered, List.getElem?_eq_getElem hanswered.lt⟩

theorem chooseListed_picked {askPrompt : String} (n : ℕ) (w : World Transport) :
    wp (chooseListed env askPrompt (env.listing n))
      (fun slug w' => ListedPicked env askPrompt slug w w') (fun _ _ => True) w := by
  rw [chooseListed, wp_bind]
  refine wp_mono (chooseOption_picked w) ?_ fun _ _ h => h
  rintro k w' ⟨label, hpicked⟩
  have hbeside := hpicked.beside
  rw [List.getElem?_map] at hbeside
  obtain ⟨⟨label', slug⟩, hentry, rfl⟩ := Option.map_eq_some_iff.mp hbeside
  rw [wp_pure, List.getD, hentry]
  exact ⟨n, k, label', hentry, hpicked⟩

/-- The lists are fetched first; then one question follows the other. -/
theorem manuallyCreate_picked (service size image : String) (w : World Transport) :
    wp (manuallyCreate env service size image) (fun order w' => ∃ w₁ w₂ w₃, tells.rel w w₁ ∧
      ListedPicked env "Please choose region: " order.1 w₁ w₂ ∧
      ListedPicked env s!"Please choose {size}: " order.2.1 w₂ w₃ ∧
      ListedPicked env s!"Please choose {image}: " order.2.2 w₃ w') (fun _ _ => True) w := by
  have hfetch : ∀ {Q : List (String × String) → World Transport → Prop} {w₁ : World Transport},
      tells.rel w w₁ → (∀ n w₂, tells.rel w w₂ → Q (env.listing n) w₂) →
      wp (fetch env) Q (fun _ _ => True) w₁ := by
    intro Q w₁ h₁ hQ
    refine tells_call.seq h₁ (fun _ _ _ => trivial) fun _ w₂ h₂ => ?_
    rw [wp_bind, wp_tick, wp_pure]
    exact hQ _ _ h₂
  refine (tells_sendToChannel _ _).seq (tells.refl w) (fun _ _ _ => trivial) fun _ w₁ h₁ => ?_
  rw [wp_bind]
  refine hfetch h₁ fun n₁ w₂ h₂ => ?_
  rw [wp_bind]
  refine hfetch h₂ fun n₂ w₃ h₃ => ?_
  rw [wp_bind]
  refine hfetch h₃ fun n₃ w₄ h₄ => ?_
  rw [wp_bind]
  refine wp_mono (chooseListed_picked n₁ w₄) (fun region w₅ hregion => ?_) fun _ _ h => h
  rw [wp_bind]
  refine wp_mono (chooseListed_picked n₂ w₅) (fun size w₆ hsize => ?_) fun _ _ h => h
  rw [wp_bind]
  refine wp_mono (chooseListed_picked n₃ w₆) (fun image w₇ himage => ?_) fun _ _ h => h
  exact (wp_pure _).mpr ⟨w₄, w₅, w₆, h₄, hregion, hsize, himage⟩

theorem askUserCustomizeServer_customized (what service size image : String)
    (favorites : List String) (w : World Transport) :
    wp (askUserCustomizeServer env what favorites (manuallyCreate env service size image))
      (fun order w' =>
        Customized env what size image favorites [order.1, order.2.1, order.2.2] w w')
      (fun _ _ => True) w := by
  rw [askUserCustomizeServer, wp_bind]
  refine wp_mono (chooseOption_picked w) ?_ fun _ _ h => h
  rintro k w₁ ⟨text, hpicked⟩
  cases k with
  | zero =>
    rw [wp_ite, if_pos rfl]
    refine wp_mono (manuallyCreate_picked service size image w₁) ?_ fun _ _ h => h
    rintro ⟨region, size, image⟩ w' ⟨w₂, w₃, w₄, hfetched, hregion, hsize, himage⟩
    exact .manually text region size image w₁ w₂ w₃ w₄ rfl hpicked hfetched hregion hsize himage
  | succ i =>
    rw [wp_ite, if_neg (Nat.succ_ne_zero i)]
    have hbeside := hpicked.beside
    rw [List.getElem?_cons_succ] at hbeside
    rw [List.getD, List.getElem?_cons_succ, hbeside, Option.getD_some]
    split
    · next region size image hparts =>
      exact (wp_pure _).mpr (.favorite i text hbeside hparts rfl hpicked)
    · exact (wp_raise _).mpr trivial

/-! ### What is asked for -/

/-- What the provider can be asked for by a call that begins there. -/
def Ordered (env : Env Transport) (p : BaseProvider) (w : World Transport) (serverName : String)
    (order : List String) : Prop :=
  match p.kind with
  | .digitalOcean favorites =>
    ∃ w', Customized env "droplet" "droplet size" "droplet image" favorites order w w'
  | .linode favorites =>
    ∃ w', Customized env "linode" "linode size" "linode image" favorites order w w'
  | .vultr favorites =>
    ∃ w', Customized env "vultr" "vultr plan" "vultr image" favorites order w w'
  | .footloose => order = ["footloose", "create"]
  | .ignite config => order = ["ignite", "run", config.image, "--name", serverName, "--cpus",
      toString config.cpu, "--memory", config.mem, "--size", config.disk, "--ssh"]
  | .multipass config => order = ["multipass", "launch", config.image, "--name", serverName,
      "--cpus", toString config.cpu, "--mem", config.mem, "--disk", config.disk]
  | .vagrant => order = ["vagrant", "up"]

/-- The provider is asked for one server, and it is asked for something of which `Q` holds; if
the call raises, it may also not have been asked. -/
def Orders (p : BaseProvider) (Q : String → List String → Prop)
    (create : Prog Transport LBServerMeta) (w : World Transport) : Prop :=
  wp create
    (fun m w' => ∃ order, Q m.serverName order ∧
      w'.log = w.log ++ [.requested p.name m.serverName order])
    (fun _ w' => w'.log = w.log ∨ ∃ serverName order, Q serverName order ∧
      w'.log = w.log ++ [.requested p.name serverName order]) w

/-- The log is as it was. -/
def unlogged : Frame (World Transport) where
  rel w w' := w'.log = w.log
  refl _ := rfl
  trans h h' := h'.trans h

theorem unlogged_of_silent {α : Type} {program : Prog Transport α} (h : Keeps silent program) :
    Keeps unlogged program := h.mono Silent.log

theorem unlogged_of_names {p : BaseProvider} {generate : Prog Transport String}
    (h : Names p generate) : Keeps unlogged generate :=
  fun w => wp_mono (h w) (fun _ _ h => h.1.log) fun _ _ h => h.log

theorem unlogged_makeDir (path : PosixPath) : Keeps unlogged (makeDir env path) := by
  intro w
  rw [wp_makeDir]
  exact ⟨fun _ => rfl, fun _ _ => rfl⟩

variable {p : BaseProvider} {w : World Transport}

/-- A program that requests a server of the provider and asks for something of which `Q` holds,
unless it raises before. -/
def Asks (p : BaseProvider) (Q : String → List String → Prop)
    (requested : Prog Transport String) (w : World Transport) : Prop :=
  wp requested
    (fun serverName w' => ∃ order, Q serverName order ∧
      w'.log = w.log ++ [.requested p.name serverName order])
    (fun _ w' => w'.log = w.log) w

theorem asks_request {Q : String → List String → Prop} {generate : Prog Transport String}
    {prepare : String → Prog Transport Unit} {order : String → List String}
    (hQ : ∀ serverName, Q serverName (order serverName)) (hname : Names p generate)
    (hprepare : ∀ serverName, Keeps silent (prepare serverName)) :
    Asks p Q (request env p generate prepare order) w := by
  rw [Asks, request]
  refine (unlogged_of_names hname).seq (unlogged.refl w) (fun _ _ h => h) fun serverName w₁ h₁ => ?_
  refine (unlogged_makeDir _).seq h₁ (fun _ _ h => h) fun _ w₂ h₂ => ?_
  refine (unlogged_of_silent (silent_sendToChannel _ _)).seq h₂ (fun _ _ h => h) fun _ w₃ h₃ => ?_
  refine (unlogged_of_silent (hprepare serverName)).seq h₃ (fun _ _ h => h) fun _ w₄ h₄ => ?_
  rw [wp_bind, wp_emit, wp_pure]
  exact ⟨_, hQ serverName, congrArg (· ++ _) h₄⟩

/-- The questions come first. -/
theorem Asks.ask {what service size image : String} {favorites : List String}
    {requested : String × String × String → Prog Transport String}
    (hrequested : ∀ order w₁, Asks p
      (fun _ asked => asked = [order.1, order.2.1, order.2.2]) (requested order) w₁) :
    Asks p (fun _ order => ∃ w', Customized env what size image favorites order w w')
      (askUserCustomizeServer env what favorites (manuallyCreate env service size image) >>=
        requested) w := by
  rw [Asks, wp_bind]
  refine wp_mono (wp_and (askUserCustomizeServer_customized what service size image favorites w)
    (silent_askUserCustomizeServer what service size image favorites w)) ?_ ?_
  · rintro order w₁ ⟨hcustomized, hsilent⟩
    refine wp_mono (hrequested order w₁) ?_ ?_
    · rintro m w' ⟨_, rfl, hlog⟩
      exact ⟨_, ⟨w₁, hcustomized⟩, by rw [hlog, hsilent.log]⟩
    · exact fun _ w' hlog => hlog.trans hsilent.log
  · exact fun _ _ h => h.2.log

theorem asks_requestServer : Asks p (Ordered env p w) (requestServer env p) w := by
  have hname : p.kind ≠ .vagrant → Names p (generateDefaultServerName env p) := names_default
  unfold requestServer
  split
  · next favorites hk =>
    have hordered : Ordered env p w = fun _ order => ∃ w', Customized env "droplet" "droplet size"
        "droplet image" favorites order w w' := by
      funext serverName order
      rw [Ordered, hk]
    rw [hordered]
    exact .ask fun order w₁ => asks_request (fun _ => rfl) (hname (by simp [hk]))
      fun _ => silent_prepareKeys
  · next favorites hk =>
    have hordered : Ordered env p w = fun _ order => ∃ w', Customized env "linode" "linode size"
        "linode image" favorites order w w' := by
      funext serverName order
      rw [Ordered, hk]
    rw [hordered]
    exact .ask fun order w₁ => asks_request (fun _ => rfl) (hname (by simp [hk]))
      fun _ => silent_prepareKeys
  · next favorites hk =>
    have hordered : Ordered env p w = fun _ order => ∃ w', Customized env "vultr" "vultr plan"
        "vultr image" favorites order w w' := by
      funext serverName order
      rw [Ordered, hk]
    rw [hordered]
    exact .ask fun order w₁ => asks_request (fun _ => rfl) (hname (by simp [hk]))
      fun _ => silent_prepareVultr _
  · next hk =>
    refine asks_request (fun _ => ?_) (hname (by simp [hk]))
      fun _ => .bind silent_call fun _ => silent_popen
    rw [Ordered, hk]
  · next config hk =>
    refine asks_request (fun _ => ?_) (hname (by simp [hk])) fun _ => silent_popen
    rw [Ordered, hk]
  · next config hk =>
    refine asks_request (fun _ => ?_) (hname (by simp [hk])) fun _ => silent_popen
    rw [Ordered, hk]
  · next hk =>
    refine asks_request (fun _ => ?_) (names_vagrant hk)
      fun _ => .bind silent_call fun _ => silent_popen
    rw [Ordered, hk]

end Lobbyboy.SocketHandle
