import Lobbyboy.Provider.Naming
import Lobbyboy.Utils.Channel

/-! `create_server` of the shipped providers. Each asks what is wanted, names the server
and makes its workspace, makes its preparations, requests the server, waits for it, and
returns its record; any step of these may raise, and nothing is undone when one does. -/

namespace Lobbyboy.Provider

open Foundation Utils Config Prog BaseProvider

section Program

variable {T : Type} (env : Env T)

/-! ### Waiting -/

/-- The checks of `time_process_action` that are left. -/
def timeChecks (action : Prog T Bool) : ℕ → Prog T Bool
  | 0 => pure false
  | n + 1 => do
    sendToChannel env (utf8 ".") []
    if ← action then do
      sendToChannel env (utf8 s!"OK({env.elapsed (← tick)}s).")
      return true
    else timeChecks action n

def timeProcessAction (actionName : String) (action : Prog T Bool) (maxCheck : ℕ := 20) :
    Prog T Bool := do
  sendToChannel env (utf8 s!"Check {actionName}") []
  if ← timeChecks env action maxCheck then return true
  else do
    sendToChannel env (utf8 (s!"\n I have checked {maxCheck} times for action {actionName}, " ++
      "still not finished, give up..."))
    return false

/-- A check that asks the outside, and may raise. -/
def askReady : Prog T Bool := do
  call env
  return env.ready (← tick)

/-- `linode_is_up` and `instance_is_up` take an exception for a no. -/
def askReadyOrNot : Prog T Bool := handle (askReady env) fun _ => return false

/-- `subprocess.Popen`. -/
def popen : Prog T Unit := do
  call env
  modify fun w => { w with returncode := none }

/-- `process.poll()`, which remembers the return code once there is one. -/
def poll : Prog T (Option ℤ) := do
  let n ← tick
  modify fun w => { w with returncode := w.returncode.or (env.returncode n) }
  return (← get).returncode

/-! ### What the create functions have in common -/

variable (p : BaseProvider)

/-- `create_server` as far as the server is requested; `order` is what the provider is asked
for. -/
def request (generate : Prog T String) (prepare : String → Prog T Unit)
    (order : String → List String) : Prog T String := do
  let serverName ← generate
  let serverWorkspace := p.getServerWorkspace serverName
  makeDir env serverWorkspace
  sendToChannel env (utf8 s!"Generate server {serverName} workspace {serverWorkspace.str} done.")
  prepare serverName
  emit (.requested p.name serverName (order serverName))
  return serverName

/-- `await` waits for the server that was requested, and gives its host. -/
def provision (requested : Prog T String) (await : String → Prog T String) :
    Prog T LBServerMeta := do
  let serverName ← requested
  let host ← await serverName
  return p.newServer serverName host (← now env)

/-! ### Cloud providers -/

/-- One of the things that the API lists, by its slug. -/
def chooseListed (askPrompt : String) (listed : List (String × String)) : Prog T String := do
  let idx ← chooseOption env (listed.map Prod.fst) none (some askPrompt)
  return (listed.getD idx ("", "")).2

def fetch : Prog T (List (String × String)) := do
  call env
  return env.listing (← tick)

/-- `_manually_create_new_droplet` and `_manually_create_new_node`. -/
def manuallyCreate (service size image : String) : Prog T (String × String × String) := do
  sendToChannel env (utf8 s!"Fetching metadata from {service}...")
  let regions ← fetch env
  let sizes ← fetch env
  let images ← fetch env
  let region ← chooseListed env "Please choose region: " regions
  let size ← chooseListed env s!"Please choose {size}: " sizes
  let image ← chooseListed env s!"Please choose {image}: " images
  return (region, size, image)

/-- `_ask_user_customize_server`: a favorite has three parts between colons. -/
def askUserCustomizeServer (what : String) (favoriteInstanceTypes : List String)
    (manually : Prog T (String × String × String)) : Prog T (String × String × String) := do
  let options := s!"Manually choose a new {what} to create.." :: favoriteInstanceTypes
  let idx ← chooseOption env options none (some s!"Please choose new {what} to create: ")
  if idx = 0 then manually
  else
    match ((options.getD idx "").toList.splitOn ':').map String.ofList with
    | [region, size, image] => return (region, size, image)
    | _ => raise ⟨.valueError, "not enough values to unpack"⟩

def collectionSshKeys : Prog T (List String) := do
  call env
  return p.providerConfig.extraSshKeys ++ [env.publicKey (← tick)]

/-- What follows once the address is known: the raw data is saved and the port is
awaited. -/
def bootServer (serverName shown ip : String) : Prog T String := do
  sendToChannel env (utf8 s!"New server {serverName} (IP: {shown}) created!")
  -- save_raw_server
  call env
  sendToChannel env (utf8 "Waiting for server to boot...")
  let _ ← timeProcessAction env "port is open" (askReady env)
  sendToChannel env (utf8 s!"Server {serverName} has boot successfully!")
  return ip

def DigitalOceanProvider.requestServer (favoriteInstanceTypes : List String) :
    Prog T String := do
  let (region, size, image) ← askUserCustomizeServer env "droplet" favoriteInstanceTypes
    (manuallyCreate env "digitalocean" "droplet size" "droplet image")
  request env p (generateDefaultServerName env p)
    (fun _ => do
      let _ ← collectionSshKeys env p
      sendToChannel env (utf8 "Waiting for server to created..."))
    fun _ => [region, size, image]

def DigitalOceanProvider.awaitServer (serverName : String) : Prog T String := do
  -- droplet.create()
  call env
  let _ ← timeProcessAction env "droplet is up" (askReady env)
  -- droplet.load()
  call env
  let ip := env.address (← tick)
  bootServer env serverName ip ip

def DigitalOceanProvider.createServer (favoriteInstanceTypes : List String) :
    Prog T LBServerMeta :=
  provision env p (DigitalOceanProvider.requestServer env p favoriteInstanceTypes)
    (DigitalOceanProvider.awaitServer env)

def LinodeProvider.requestServer (favoriteInstanceTypes : List String) : Prog T String := do
  let (region, type, image) ← askUserCustomizeServer env "linode" favoriteInstanceTypes
    (manuallyCreate env "linode" "linode size" "linode image")
  request env p (generateDefaultServerName env p)
    (fun _ => do
      let _ ← collectionSshKeys env p
      sendToChannel env (utf8 "Waiting for server to created..."))
    fun _ => [region, type, image]

def LinodeProvider.awaitServer (serverName : String) : Prog T String := do
  -- instance_create(...)
  call env
  let _ ← timeProcessAction env "linode is up" (askReadyOrNot env)
  -- instance.ipv4 as it is shown, and its first entry
  call env
  let ips := env.address (← tick)
  let ip := env.address (← tick)
  bootServer env serverName ips ip

def LinodeProvider.createServer (favoriteInstanceTypes : List String) : Prog T LBServerMeta :=
  provision env p (LinodeProvider.requestServer env p favoriteInstanceTypes)
    (LinodeProvider.awaitServer env)

/-- `client.ssh_key.create(...)` for each key. -/
def createKeys : List String → Prog T Unit
  | [] => pure ()
  | _ :: keys => do
    call env
    createKeys keys

def VultrProvider.requestServer (favoriteInstanceTypes : List String) : Prog T String := do
  let (region, plan, image) ← askUserCustomizeServer env "vultr" favoriteInstanceTypes
    (manuallyCreate env "vultr" "vultr plan" "vultr image")
  request env p (generateDefaultServerName env p)
    (fun _ => do
      let sshKeys ← collectionSshKeys env p
      sendToChannel env (utf8 "Waiting for server to created...")
      createKeys env sshKeys
      -- os_id=int(image_id)
      match pyInt image with
      | none => raise ⟨.valueError, s!"invalid literal for int() with base 10: '{image}'"⟩
      | some _ => pure ())
    fun _ => [region, plan, image]

def VultrProvider.awaitServer (serverName : String) : Prog T String := do
  -- instance.create(...)
  call env
  let _ ← timeProcessAction env "instance is up" (askReadyOrNot env)
  -- instance.get(...)
  call env
  let ip := env.address (← tick)
  bootServer env serverName ip ip

def VultrProvider.createServer (favoriteInstanceTypes : List String) : Prog T LBServerMeta :=
  provision env p (VultrProvider.requestServer env p favoriteInstanceTypes)
    (VultrProvider.awaitServer env)

/-! ### Providers that run a command -/

/-- Waits for the command, and raises unless it has returned zero by then. -/
def awaitCommand (actionName : String) (done : Prog T Bool) (failure : PyExc) : Prog T String := do
  let _ ← timeProcessAction env actionName done
  let w ← get
  -- a process that still runs has the return code `None`
  if w.returncode ≠ some 0 then raise failure else return "127.0.0.1"

/-- `footloose_create_done` and `ignite_create_done`. -/
def createDone : Prog T Bool := do return (← poll env).isSome

/-- `multipass_create_done`: `multipass info` is asked once the process has ended. -/
def multipassCreateDone : Prog T Bool := do
  if (← poll env).isSome then askReady env else return false

def FootlooseProvider.requestServer : Prog T String :=
  request env p (generateDefaultServerName env p)
    (fun _ => do
      -- footloose.yaml
      call env
      popen env)
    fun _ => ["footloose", "create"]

def FootlooseProvider.awaitServer : Prog T String :=
  awaitCommand env "footloose create done" (createDone env)
    ⟨.footlooseException, "footloose create failed!"⟩

def FootlooseProvider.createServer : Prog T LBServerMeta :=
  provision env p (FootlooseProvider.requestServer env p) fun _ =>
    FootlooseProvider.awaitServer env

def IgniteProvider.requestServer (config : IgniteConfig) : Prog T String :=
  request env p (generateDefaultServerName env p) (fun _ => popen env)
    fun serverName => ["ignite", "run", config.image, "--name", serverName, "--cpus",
      toString config.cpu, "--memory", config.mem, "--size", config.disk, "--ssh"]

def IgniteProvider.awaitServer : Prog T String :=
  awaitCommand env "ignite create done" (createDone env)
    ⟨.igniteException, "ignite create failed!"⟩

def IgniteProvider.createServer (config : IgniteConfig) : Prog T LBServerMeta :=
  provision env p (IgniteProvider.requestServer env p config) fun _ =>
    IgniteProvider.awaitServer env

def MultipassProvider.requestServer (config : MultipassConfig) : Prog T String :=
  request env p (generateDefaultServerName env p) (fun _ => popen env)
    fun serverName => ["multipass", "launch", config.image, "--name", serverName, "--cpus",
      toString config.cpu, "--mem", config.mem, "--disk", config.disk]

def MultipassProvider.awaitServer : Prog T String :=
  awaitCommand env "multipass create done" (multipassCreateDone env)
    ⟨.multipassException, "multipass create failed!"⟩

def MultipassProvider.createServer (config : MultipassConfig) : Prog T LBServerMeta :=
  provision env p (MultipassProvider.requestServer env p config) fun _ =>
    MultipassProvider.awaitServer env

def VagrantProvider.requestServer : Prog T String :=
  request env p (VagrantProvider.generateServerName p)
    (fun _ => do
      -- Vagrantfile
      call env
      popen env)
    fun _ => ["vagrant", "up"]

/-- `vagrant_up`, which is asked until it is true. -/
def vagrantUp : Prog T Bool := do return (← poll env) == some 0

/-- Whether `vagrant up` has succeeded is not asked in the end. -/
def VagrantProvider.awaitServer (serverName : String) : Prog T String := do
  let _ ← timeProcessAction env "vagrant up" (vagrantUp env)
  sendToChannel env (utf8 s!"New server {serverName} created!")
  -- vagrant ssh-config
  call env
  return "127.0.0.1"

def VagrantProvider.createServer : Prog T LBServerMeta :=
  provision env p (VagrantProvider.requestServer env p) (VagrantProvider.awaitServer env)

/-- `create_server`, as far as the server is requested. -/
def BaseProvider.requestServer : Prog T String :=
  match p.kind with
  | .digitalOcean favorites => DigitalOceanProvider.requestServer env p favorites
  | .linode favorites => LinodeProvider.requestServer env p favorites
  | .vultr favorites => VultrProvider.requestServer env p favorites
  | .footloose => FootlooseProvider.requestServer env p
  | .ignite config => IgniteProvider.requestServer env p config
  | .multipass config => MultipassProvider.requestServer env p config
  | .vagrant => VagrantProvider.requestServer env p

/-- `create_server` from there on, up to the host of the server. -/
def BaseProvider.awaitServer (serverName : String) : Prog T String :=
  match p.kind with
  | .digitalOcean _ => DigitalOceanProvider.awaitServer env serverName
  | .linode _ => LinodeProvider.awaitServer env serverName
  | .vultr _ => VultrProvider.awaitServer env serverName
  | .footloose => FootlooseProvider.awaitServer env
  | .ignite _ => IgniteProvider.awaitServer env
  | .multipass _ => MultipassProvider.awaitServer env
  | .vagrant => VagrantProvider.awaitServer env serverName

def BaseProvider.createServer : Prog T LBServerMeta :=
  match p.kind with
  | .digitalOcean favorites => DigitalOceanProvider.createServer env p favorites
  | .linode favorites => LinodeProvider.createServer env p favorites
  | .vultr favorites => VultrProvider.createServer env p favorites
  | .footloose => FootlooseProvider.createServer env p
  | .ignite config => IgniteProvider.createServer env p config
  | .multipass config => MultipassProvider.createServer env p config
  | .vagrant => VagrantProvider.createServer env p

/-- What is created has been requested and waited for. -/
theorem BaseProvider.createServer_eq :
    createServer env p = provision env p (requestServer env p) (awaitServer env p) := by
  unfold createServer requestServer awaitServer
  split <;> rfl

end Program

end Lobbyboy.Provider
