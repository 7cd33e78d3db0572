import Lobbyboy.Config.ServersDb
import Lobbyboy.Foundation.Program
import Lobbyboy.Utils.ActiveSession

/-! What one thread of the daemon acts on. The files, the session table, the client's
input and the log of what was asked of the providers form the state of a program;
everything the outside answers comes from an environment that gives each call its own
answer, so a statement about every environment is one about every behaviour of
providers, network and clock. -/

namespace Lobbyboy

open Foundation Utils Config

/-- What was decided and what was asked of the providers, in order. -/
inductive Event
  | round
  | judged (server : LBServerMeta) (verdict : Bool)
  | destroyServer (server : LBServerMeta) (answer : Except PyExc Bool)
  | requested (provider : String) (serverName : String) (order : List String)
  deriving DecidableEq

/-- `input` is what the client has yet to send, `output` what was sent to it. `dirs` are
the directories that were made; `returncode` is that of the process that was started
last, as of the last poll; `channel` tells whether the client has opened one. -/
structure World (T : Type) where
  tick : ℕ := 0
  db : DbFile := none
  activeSession : ActiveSession T := .empty
  input : List UInt8 := []
  output : List (List UInt8) := []
  dirs : List PosixPath := []
  returncode : Option ℤ := none
  channel : Bool := false
  log : List Event := []

/-- The answers of the outside, by the number of the call: the clock in whole seconds and
as a date, how long something took, whether a call raises, what an API lists (labels and
slugs), the public key of a new key pair, whether a resource is ready and under which
address, the return code of a process (`none` while it runs), what `destroy_server`
answers, what the other threads have made of the session table, and whether a transport
has lost its connection. -/
structure Env (T : Type) where
  time : ℕ → ℤ
  localTime : ℕ → DateTime
  elapsed : ℕ → String
  raises : ℕ → Option PyExc
  listing : ℕ → List (String × String)
  publicKey : ℕ → String
  ready : ℕ → Bool
  address : ℕ → String
  returncode : ℕ → Option ℤ
  destroyServer : ℕ → Except PyExc Bool
  others : ℕ → ActiveSession T → ActiveSession T
  lost : ℕ → T → Option PyExc

/-- Nothing fails and nobody interferes. -/
def Env.smooth {T : Type} : Env T where
  time _ := 0
  localTime _ := ⟨2012, 1, 14, 12, 0, 1⟩
  elapsed _ := "0.0"
  raises _ := none
  listing _ := []
  publicKey _ := "ssh-rsa AAAA"
  ready _ := true
  address _ := "10.0.0.1"
  returncode _ := some 0
  destroyServer _ := .ok true
  others _ := id
  lost _ _ := none

/-- How a program ends without returning: an exception, or it waits for a client that
sends nothing more. -/
inductive Stop
  | raised (e : PyExc)
  | waiting
  deriving DecidableEq

abbrev Prog (T : Type) := EStateM Stop (World T)

/-- One more call has been made. -/
def World.next {T : Type} (w : World T) : World T := { w with tick := w.tick + 1 }

/-- `path.exists()`, of a directory: making one makes those above it. -/
def dirExists (dirs : List PosixPath) (path : PosixPath) : Bool := dirs.any path.isAbove

theorem dirExists_of_subset {dirs dirs' : List PosixPath} {path : PosixPath} (h : dirs ⊆ dirs')
    (hp : dirExists dirs path = true) : dirExists dirs' path = true := by
  simp only [dirExists, List.any_eq_true] at hp ⊢
  obtain ⟨d, hd, hpd⟩ := hp
  exact ⟨d, h hd, hpd⟩

namespace Prog

variable {T α : Type}

def raise (e : PyExc) : Prog T α := throw (.raised e)

def fromExcept : Except PyExc α → Prog T α
  | .ok a => pure a
  | .error e => raise e

/-- `try: p except Exception as e: h e`. -/
def handle (p : Prog T α) (h : PyExc → Prog T α) : Prog T α :=
  tryCatch p fun
    | .raised e => h e
    | .waiting => throw .waiting

/-- The number of the next call. -/
def tick : Prog T ℕ := do
  let w ← get
  set w.next
  return w.tick

def emit (e : Event) : Prog T Unit := modify fun w => { w with log := w.log ++ [e] }

end Prog

open Prog

section Steps

variable {T : Type} (env : Env T)

/-- `int(time.time())`. -/
def now : Prog T ℤ := do return env.time (← tick)

/-- A call of which only matters whether it raises. -/
def call : Prog T Unit := do
  match env.raises (← tick) with
  | none => pure ()
  | some e => raise e

/-- `s.encode()`. -/
def utf8 (s : String) : List UInt8 := s.toList.flatMap String.utf8EncodeChar

def crlf : List UInt8 := [13, 10]

/-- `send_to_channel(channel, msg, suffix=suffix)`. -/
def sendToChannel (msg : List UInt8) (suffix : List UInt8 := crlf) : Prog T Unit := do
  call env
  modify fun w => { w with output := w.output ++ [msg ++ suffix] }

/-- The session table, as the other threads leave it at this moment. -/
def readSessions : Prog T (ActiveSession T) := do
  let n ← tick
  modify fun w => { w with activeSession := env.others n w.activeSession }
  return (← get).activeSession

/-- `path.mkdir(parents=True)`. -/
def makeDir (path : PosixPath) : Prog T Unit := do
  call env
  modify fun w => { w with dirs := path :: w.dirs }

/-- `load_local_servers(servers_db_path)`. -/
def loadServers : Prog T ServerMap := do
  let now ← now env
  let w ← get
  fromExcept (loadLocalServers now w.db)

/-- `with available_server_db_lock: update_local_servers(servers_db_path, new, deleted)`,
when no other thread is in between. -/
def updateServers (new deleted : List LBServerMeta) (os : FileAnswers := {}) : Prog T Unit := do
  let now ← now env
  let (result, file) := (serverClass now).update os (← get).db new deleted
  modify fun w => { w with db := file }
  let _ ← fromExcept result

/-- `provider.destroy_server(meta, channel)`, of any provider. -/
def destroyServer (m : LBServerMeta) : Prog T Bool := do
  let answer := env.destroyServer (← tick)
  emit (.destroyServer m answer)
  fromExcept answer

end Steps

/-! ### What a step does -/

namespace World

variable {T : Type} (w : World T)

@[simp] theorem next_tick : w.next.tick = w.tick + 1 := rfl

@[simp] theorem next_db : w.next.db = w.db := rfl

@[simp] theorem next_activeSession : w.next.activeSession = w.activeSession := rfl

@[simp] theorem next_input : w.next.input = w.input := rfl

@[simp] theorem next_output : w.next.output = w.output := rfl

@[simp] theorem next_returncode : w.next.returncode = w.returncode := rfl

@[simp] theorem next_dirs : w.next.dirs = w.dirs := rfl

@[simp] theorem next_log : w.next.log = w.log := rfl

end World

section Rules

variable {T α : Type} {env : Env T} {E : Stop → World T → Prop} {w : World T}

@[simp] theorem wp_raise {Q : α → World T → Prop} (e : PyExc) :
    wp (raise e) Q E w ↔ E (.raised e) w := by simp [raise]

@[simp] theorem wp_fromExcept {Q : α → World T → Prop} (x : Except PyExc α) :
    wp (fromExcept x) Q E w ↔ (∀ a, x = .ok a → Q a w) ∧ ∀ e, x = .error e → E (.raised e) w := by
  cases x <;> simp [fromExcept]

@[simp] theorem wp_handle {Q : α → World T → Prop} (p : Prog T α) (h : PyExc → Prog T α) :
    wp (handle p h) Q E w ↔ wp p Q (fun s w' =>
      match s with
      | .raised e => wp (h e) Q E w'
      | .waiting => E .waiting w') w := by
  simp only [handle, wp_tryCatch]
  refine iff_of_eq (congrArg (wp p Q · w) ?_)
  funext s w'
  cases s with
  | raised e => rfl
  | waiting => exact propext (wp_throw _)

@[simp] theorem wp_tick {Q : ℕ → World T → Prop} : wp tick Q E w ↔ Q w.tick w.next := by
  simp [tick]

@[simp] theorem wp_emit {Q : Unit → World T → Prop} (e : Event) :
    wp (emit e) Q E w ↔ Q () { w with log := w.log ++ [e] } := by simp [emit]

@[simp] theorem wp_now {Q : ℤ → World T → Prop} :
    wp (now env) Q E w ↔ Q (env.time w.tick) w.next := by simp [now]

@[simp] theorem wp_call {Q : Unit → World T → Prop} :
    wp (call env) Q E w ↔ (env.raises w.tick = none → Q () w.next) ∧
      ∀ e, env.raises w.tick = some e → E (.raised e) w.next := by
  simp only [call, wp_bind, wp_tick]
  cases env.raises w.tick <;> simp

@[simp] theorem wp_sendToChannel {Q : Unit → World T → Prop} (msg suffix : List UInt8) :
    wp (sendToChannel env msg suffix) Q E w ↔
      (env.raises w.tick = none → Q () { w.next with output := w.output ++ [msg ++ suffix] }) ∧
        ∀ e, env.raises w.tick = some e → E (.raised e) w.next := by
  simp [sendToChannel]

@[simp] theorem wp_makeDir {Q : Unit → World T → Prop} (path : PosixPath) :
    wp (makeDir env path) Q E w ↔
      (env.raises w.tick = none → Q () { w.next with dirs := path :: w.dirs }) ∧
        ∀ e, env.raises w.tick = some e → E (.raised e) w.next := by
  simp [makeDir]

@[simp] theorem wp_readSessions {Q : ActiveSession T → World T → Prop} :
    wp (readSessions env) Q E w ↔ Q (env.others w.tick w.activeSession)
      { w.next with activeSession := env.others w.tick w.activeSession } := by
  simp [readSessions]

@[simp] theorem wp_loadServers {Q : ServerMap → World T → Prop} :
    wp (loadServers env) Q E w ↔
      (∀ d, loadLocalServers (env.time w.tick) w.db = .ok d → Q d w.next) ∧
        ∀ e, loadLocalServers (env.time w.tick) w.db = .error e → E (.raised e) w.next := by
  simp [loadServers]

/-- However the operating system answers. -/
theorem wp_updateServers_os {Q : Unit → World T → Prop} (new deleted : List LBServerMeta)
    (os : FileAnswers) :
    wp (updateServers env new deleted os) Q E w ↔
      (∀ d, ((serverClass (env.time w.tick)).update os w.db new deleted).1 = .ok d →
        Q () { w.next with
          db := ((serverClass (env.time w.tick)).update os w.db new deleted).2 }) ∧
      ∀ e, ((serverClass (env.time w.tick)).update os w.db new deleted).1 = .error e →
        E (.raised e) { w.next with
          db := ((serverClass (env.time w.tick)).update os w.db new deleted).2 } := by
  simp [updateServers]

/-- Where the operating system refuses nothing. -/
@[simp] theorem wp_updateServers {Q : Unit → World T → Prop} (new deleted : List LBServerMeta) :
    wp (updateServers env new deleted) Q E w ↔
      (∀ r, updateLocalServers (env.time w.tick) w.db new deleted = .ok r →
        Q () { w.next with db := r.2 }) ∧
        ∀ e, updateLocalServers (env.time w.tick) w.db new deleted = .error e →
          E (.raised e) w.next := by
  rw [wp_updateServers_os]
  cases hload : loadLocalServers (env.time w.tick) w.db with
  | error e =>
    have hupdate : (serverClass (env.time w.tick)).update {} w.db new deleted = (.error e, w.db) :=
      ServerClass.update_of_load_error hload new deleted
    rw [hupdate, updateLocalServers_of_load_error hload]
    simp [World.next]
  | ok d =>
    rw [ServerClass.update_of_merge hload (merge_serverClass _ d new deleted),
      updateLocalServers_eq hload]
    simp [text_serverClass]

@[simp] theorem wp_destroyServer {Q : Bool → World T → Prop} (m : LBServerMeta) :
    wp (destroyServer env m) Q E w ↔
      (∀ b, env.destroyServer w.tick = .ok b →
        Q b { w.next with log := w.log ++ [.destroyServer m (.ok b)] }) ∧
        ∀ e, env.destroyServer w.tick = .error e →
          E (.raised e) { w.next with log := w.log ++ [.destroyServer m (.error e)] } := by
  simp only [destroyServer, wp_bind, wp_tick, wp_emit, wp_fromExcept]
  cases env.destroyServer w.tick <;> simp

end Rules

/-! ### Steps that leave no trace -/

/-- Only the conversation with the client and the outside has gone on. -/
structure Silent {T : Type} (w w' : World T) : Prop where
  db : w'.db = w.db
  activeSession : w'.activeSession = w.activeSession
  dirs : w'.dirs = w.dirs
  log : w'.log = w.log

def silent {T : Type} : Frame (World T) where
  rel := Silent
  refl _ := ⟨rfl, rfl, rfl, rfl⟩
  trans h h' := ⟨h'.db.trans h.db, h'.activeSession.trans h.activeSession, h'.dirs.trans h.dirs,
    h'.log.trans h.log⟩

section Silent

variable {T α : Type} {env : Env T}

theorem silent_raise (e : PyExc) : Keeps silent (raise e : Prog T α) := .throw _

theorem silent_handle {p : Prog T α} {h : PyExc → Prog T α} (hp : Keeps silent p)
    (hh : ∀ e, Keeps silent (h e)) : Keeps silent (handle p h) := by
  refine .tryCatch hp fun s => ?_
  cases s with
  | raised e => exact hh e
  | waiting => exact .throw _

theorem silent_tick : Keeps silent (tick : Prog T ℕ) :=
  fun _ => wp_tick.mpr ⟨rfl, rfl, rfl, rfl⟩

theorem silent_call : Keeps silent (call env) := by
  refine .bind silent_tick fun n => ?_
  cases env.raises n with
  | none => exact .pure _
  | some e => exact silent_raise e

theorem silent_now : Keeps silent (now env) := .bind silent_tick fun _ => .pure _

theorem silent_sendToChannel (msg suffix : List UInt8) :
    Keeps silent (sendToChannel env msg suffix) :=
  .bind silent_call fun _ => .modify fun _ => ⟨rfl, rfl, rfl, rfl⟩

end Silent

end Lobbyboy
