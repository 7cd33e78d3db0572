import Mathlib.Data.List.Infix
import Lobbyboy.Provider.Naming

/-! The vagrant provider's commands. The id under which vagrant knows a machine is looked up
in the table that `vagrant global-status` prints, so a deletion is two commands. -/

namespace Lobbyboy.Provider.VagrantProvider

open Foundation Utils Config

/-- A command that has ended. A stream that was sent to a file has nothing to read. -/
structure Finished where
  returncode : ℤ
  stdout : Option (List UInt8)
  stderr : Option (List UInt8) := some []

/-- What Python holds of a stream. -/
inductive Captured where
  | none
  | bytes (bs : List UInt8)
  | str (s : String)

/-- `bs.decode()`. -/
def decodeUtf8 (bs : List UInt8) : Except PyExc String :=
  match String.fromUTF8? ⟨bs.toArray⟩ with
  | some s => .ok s
  | none => .error ⟨.valueError, "'utf-8' codec can't decode"⟩

/-- `captured.decode()`, a method that only bytes have. -/
def Captured.decode : Captured → Except PyExc String
  | .none => .error ⟨.attributeError, "'NoneType' object has no attribute 'decode'"⟩
  | .bytes bs => decodeUtf8 bs
  | .str _ => .error ⟨.attributeError, "'str' object has no attribute 'decode'"⟩

/-! ### The program

The state is the list of the commands that were issued. Their outcome may depend on all of
them; `none` is a command that could not be started. -/

abbrev Commands := EStateM PyExc (List (List String))

def fromExcept {α : Type} : Except PyExc α → Commands α
  | .ok a => pure a
  | .error e => throw e

variable (answer : List (List String) → Option Finished)

/-- `_popen_vagrant`, and the wait for the command. -/
def popenVagrant (command : List String) : Commands Finished := do
  modify (· ++ [command])
  match answer (← get) with
  | some p => return p
  | none => throw ⟨.fileNotFoundError, "vagrant"⟩

/-- `if stream is not None: stream = stream.read().decode()`. -/
def readStream : Option (List UInt8) → Except PyExc Captured
  | none => .ok .none
  | some bs => do return .str (← decodeUtf8 bs)

def runVagrant (command : List String) : Commands (ℤ × Captured × Captured) := do
  let p ← popenVagrant answer command
  let stdout ← fromExcept (readStream p.stdout)
  let stderr ← fromExcept (readStream p.stderr)
  if p.returncode = 0 then return (p.returncode, stdout, stderr) else throw ⟨.exception, ""⟩

/-- `for line in text.split("\n"): if server_name in line: return line.split(" ")[0]`. -/
def scanLines (serverName : String) (text : String) : Option String :=
  ((text.toList.splitOn '\n').find? fun line => serverName.toList <:+: line).map fun line =>
    String.ofList (line.takeWhile (· ≠ ' '))

def getVagrantMachineId (serverName : String) : Commands String := do
  let (_, stdout, _) ← runVagrant answer ["vagrant", "global-status"]
  let text ← fromExcept stdout.decode
  match scanLines serverName text with
  | some serverId => return serverId
  | none => throw ⟨.vagrantProviderException, s!"{serverName} not found in Vagrant!"⟩

def destroyServer (m : LBServerMeta) : Commands Bool := do
  let vid ← getVagrantMachineId answer m.serverName
  let (returnCode, _, _) ← runVagrant answer ["vagrant", "destroy", "-f", vid]
  if returnCode ≠ 0 then throw ⟨.vagrantProviderException, s!"Error when destroy {vid}"⟩
  else return true

/-! ### What the lookup is for -/

/-- A row of the table, as far as the lookup is concerned. -/
structure Machine where
  id : String
  name : String

/-- The id of a machine of exactly that name, or the exception that there is none. -/
def LooksUp (machines : List Machine) (serverName : String) (issued : List (List String)) : Prop :=
  wp (getVagrantMachineId answer serverName)
    (fun vid _ => ∃ machine ∈ machines, machine.name = serverName ∧ vid = machine.id)
    (fun e _ => e.kind = .vagrantProviderException ∧
      ∀ machine ∈ machines, machine.name ≠ serverName)
    issued

variable {answer} {issued : List (List String)}

@[simp] theorem wp_fromExcept {α : Type} {Q : α → List (List String) → Prop}
    {E : PyExc → List (List String) → Prop} (x : Except PyExc α) :
    wp (fromExcept x) Q E issued ↔
      (∀ a, x = .ok a → Q a issued) ∧ ∀ e, x = .error e → E e issued := by
  cases x <;> simp [fromExcept]

/-- A stream that was read is no longer bytes. -/
theorem decode_readStream {stream : Option (List UInt8)} {captured : Captured}
    (h : readStream stream = .ok captured) :
    ∃ e, captured.decode = .error e ∧ e.kind = .attributeError := by
  cases stream with
  | none =>
    cases h
    exact ⟨_, rfl, rfl⟩
  | some bs =>
    obtain ⟨s, -, hs⟩ := bind_eq_ok.mp h
    cases hs
    exact ⟨_, rfl, rfl⟩

theorem readStream_error {stream : Option (List UInt8)} {e : PyExc}
    (h : readStream stream = .error e) : e.kind = .valueError := by
  cases stream with
  | none => cases h
  | some bs =>
    rw [readStream, decodeUtf8] at h
    cases hs : String.fromUTF8? ⟨bs.toArray⟩ <;> rw [hs] at h <;> cases h
    rfl

/-- The lookup raises, and not because a machine is missing, whatever the table says. -/
theorem getVagrantMachineId_raises (answer : List (List String) → Option Finished)
    (serverName : String) (issued : List (List String)) :
    wp (getVagrantMachineId answer serverName) (fun _ _ => False)
      (fun e issued' => e.kind ≠ .vagrantProviderException ∧
        issued' = issued ++ [["vagrant", "global-status"]]) issued := by
  simp only [getVagrantMachineId, runVagrant, popenVagrant, wp_bind, wp_modify, wp_get]
  cases answer (issued ++ [["vagrant", "global-status"]]) with
  | none => simp
  | some p =>
    simp only [wp_pure, wp_fromExcept]
    constructor
    · intro stdout hstdout
      constructor
      · intro stderr _
        obtain ⟨e, he, hkind⟩ := decode_readStream hstdout
        split_ifs
        · simp [he, hkind]
        · simp
      · intro e he
        simp [readStream_error he]
    · intro e he
      simp [readStream_error he]

/-- No table and no name make the lookup right, and a deletion ends after it. -/
theorem not_looksUp (answer : List (List String) → Option Finished) (machines : List Machine)
    (serverName : String) (issued : List (List String)) :
    ¬ LooksUp answer machines serverName issued ∧
      ∀ m : LBServerMeta, wp (destroyServer answer m) (fun _ _ => False)
        (fun _ issued' => issued' = issued ++ [["vagrant", "global-status"]]) issued := by
  constructor
  · intro h
    obtain ⟨hok, herror⟩ := wp_iff.mp h
    obtain ⟨hnever, hraises⟩ := wp_iff.mp (getVagrantMachineId_raises answer serverName issued)
    cases hrun : getVagrantMachineId answer serverName issued with
    | ok vid issued' => exact hnever vid issued' hrun
    | error e issued' => exact (hraises e issued' hrun).1 (herror e issued' hrun).1
  · intro m
    rw [destroyServer, wp_bind]
    apply wp_mono (getVagrantMachineId_raises answer m.serverName issued)
    · exact fun _ _ h => h.elim
    · exact fun _ _ h => h.2

/-- The only machine there is has the name that is looked for. -/
theorem listed_machine_not_found :
    let text := "1a2b3c4  web  virtualbox running /data/vagrant/web"
    let answer : List (List String) → Option Finished :=
      fun _ => some { returncode := 0, stdout := some (utf8 text) }
    ¬ LooksUp answer [⟨"1a2b3c4", "web"⟩] "web" [] ∧ scanLines "web" text = some "1a2b3c4" ∧
      wp (getVagrantMachineId answer "web") (fun _ _ => False)
        (fun e _ => e = ⟨.attributeError, "'str' object has no attribute 'decode'"⟩) [] := by
  intro text answer
  have hstdout : readStream (some (utf8 text)) = .ok (.str text) := by
    rw [readStream, show decodeUtf8 (utf8 text) = .ok text by decide +kernel]
    rfl
  have hstderr : readStream (some []) = .ok (.str "") := by
    rw [readStream, show decodeUtf8 [] = .ok "" by decide +kernel]
    rfl
  refine ⟨(not_looksUp answer _ "web" []).1, by decide +kernel, ?_⟩
  simp [getVagrantMachineId, runVagrant, popenVagrant, answer, hstdout, hstderr, Captured.decode]

end Lobbyboy.Provider.VagrantProvider
