import Lobbyboy.Config.ServersDb
import Lobbyboy.Foundation.DictHistory

/-! Sequences of uninterrupted updates of one database file. Each call rebuilds the map
from the text of the call before; the file nevertheless records the map that the calls
build in memory, which is the dictionary of their history of edits. -/

namespace Lobbyboy.Config

open Foundation

/-- The arguments of one call of `update_local_servers`, and the time of its load. -/
structure DbCall where
  now : ℤ
  new : List LBServerMeta
  deleted : List LBServerMeta

/-- The calls one after another on the same path. -/
def runCalls (file : DbFile) : List DbCall → Except PyExc DbFile
  | [] => .ok file
  | c :: cs => do runCalls (← updateLocalServers c.now file c.new c.deleted).2 cs

/-! ### The map that the calls describe -/

/-- Insert each new record or overwrite it in place, then remove each deleted name. -/
def foldCall (d : ServerMap) (c : DbCall) : ServerMap :=
  c.deleted.foldl (fun d m => d.erase m.serverName)
    (c.new.foldl (fun d m => d.insert m.serverName m) d)

def foldCalls (d : ServerMap) (cs : List DbCall) : ServerMap := cs.foldl foldCall d

theorem mergeServers_eq_foldCall (d : ServerMap) (c : DbCall) :
    mergeServers d c.new c.deleted = foldCall d c := by
  rw [mergeServers_eq, OrderedDict.insertAll, OrderedDict.eraseAll, List.foldl_map, List.foldl_map,
    foldCall]

/-- One update of a database refines one call on the map. -/
theorem Records.runCalls {file : DbFile} {d : ServerMap} (h : Records file d) :
    ∀ cs : List DbCall, ∃ file', runCalls file cs = .ok file' ∧ Records file' (foldCalls d cs) := by
  intro cs
  induction cs generalizing file d with
  | nil => exact ⟨file, rfl, h⟩
  | cons c cs ih =>
    obtain ⟨file₁, hu, h₁⟩ := records_update (h c.now) c.new c.deleted
    rw [mergeServers_eq_foldCall] at h₁
    obtain ⟨file₂, hr, h₂⟩ := ih h₁
    exact ⟨file₂, by rw [Config.runCalls, hu]; exact hr, h₂⟩

/-! ### Its history -/

def DbCall.edits (c : DbCall) : List (DictEdit String LBServerMeta) :=
  c.new.map (fun m => .put m.serverName m) ++ c.deleted.map fun m => .drop m.serverName

def history (cs : List DbCall) : List (DictEdit String LBServerMeta) := cs.flatMap DbCall.edits

theorem foldl_edits (d : ServerMap) (c : DbCall) :
    c.edits.foldl DictEdit.apply d = foldCall d c := by
  rw [DbCall.edits, List.foldl_append, List.foldl_map, List.foldl_map]
  rfl

theorem foldCalls_eq_replay (cs : List DbCall) : foldCalls .empty cs = replay (history cs) := by
  rw [replay, history, List.foldl_flatMap, foldCalls]
  simp only [foldl_edits]

/-- What a call deletes is absent after it, also when the same call brought it in. -/
theorem not_mem_keys_foldCall {d : ServerMap} {c : DbCall} {m : LBServerMeta}
    (hm : m ∈ c.deleted) : m.serverName ∉ (foldCall d c).keys := by
  rw [← mergeServers_eq_foldCall, mergeServers_eq, OrderedDict.mem_keys_eraseAll]
  exact fun h => h.2 (List.mem_map_of_mem hm)

/-- From an absent or empty file, a load after any calls returns the map folded over
them: each record as it was stored last, under its own name, names unique and in the order
in which they came in, and nothing that the last call deleted. -/
theorem load_after_runCalls {file : DbFile} (hfile : file = none ∨ file = some "")
    (cs : List DbCall) (now : ℤ) :
    ∃ file', runCalls file cs = .ok file' ∧
      loadLocalServers now file' = .ok (foldCalls .empty cs) ∧
      (foldCalls .empty cs).keys.Nodup ∧
      (∀ name m, (foldCalls .empty cs).get? name = some m ↔ LastPut (history cs) name m) ∧
      (∀ name m, (foldCalls .empty cs).get? name = some m → m.serverName = name) ∧
      (∀ name, name ∈ (foldCalls .empty cs).keys ↔ ∃ i, PresentSince (history cs) name i) ∧
      ((foldCalls .empty cs).keys.Pairwise fun a b =>
        ∀ i j, PresentSince (history cs) a i → PresentSince (history cs) b j → i < j) ∧
      ∀ c, cs.getLast? = some c → ∀ m ∈ c.deleted,
        (foldCalls .empty cs).get? m.serverName = none := by
  have hrec : Records file .empty := by
    rcases hfile with rfl | rfl
    · exact records_absent
    · exact records_blank
  obtain ⟨file', hrun, hload⟩ := hrec.runCalls cs
  refine ⟨file', hrun, hload now, (foldCalls .empty cs).nodup, ?_, fun name m h => hload.keyed h,
    ?_, ?_, ?_⟩
  · exact fun name m => by rw [foldCalls_eq_replay, get?_replay]
  · exact fun name => by rw [foldCalls_eq_replay, mem_keys_replay]
  · rw [foldCalls_eq_replay]
    exact keys_replay_pairwise (history cs)
  · intro c hc m hm
    obtain ⟨before, rfl⟩ := List.getLast?_eq_some_iff.mp hc
    rw [foldCalls, List.foldl_append, OrderedDict.get?_eq_none_iff]
    exact not_mem_keys_foldCall hm

/-- A record overwritten in place, and a name that the same call brings in and deletes. -/
theorem load_after_two_calls :
    let a : LBServerMeta :=
      ⟨"ignite", .parse "/data/ignite/a", "a", "127.0.0.1", "root", 22, 7, [], true⟩
    let b : LBServerMeta := { a with serverName := "b" }
    ∃ file',
      runCalls none [⟨0, [a, b], []⟩, ⟨0, [{ a with manage := false }, b], [b]⟩] = .ok file' ∧
      loadLocalServers 9 file' = .ok (.ofPairs [("a", { a with manage := false })]) := by
  intro a b
  obtain ⟨file', hrun, hload, -⟩ := load_after_runCalls (.inl rfl)
    [⟨0, [a, b], []⟩, ⟨0, [{ a with manage := false }, b], [b]⟩] 9
  exact ⟨file', hrun, hload.trans (congrArg _ rfl)⟩

end Lobbyboy.Config
