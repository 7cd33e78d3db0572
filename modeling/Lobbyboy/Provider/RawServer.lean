import Lobbyboy.Foundation.Transition
import Lobbyboy.Provider.Requests
import Lobbyboy.Utils.PlainJson

/-! The id of a cloud server on its way from the API to its deletion. `create_server` saves
what the API tells of the server as `server.json` in the server's workspace; the workspace
goes with the record into the servers database, and `destroy_server` finds the id again
from the record alone. -/

namespace Lobbyboy.Provider

open Foundation Utils Config

/-! ### `server.json` -/

def serverFile : String := "server.json"

/-- The texts of the files that there are. -/
abbrev Files := PosixPath → Option String

def saveRawServer (files : Files) (serverObj : PyDict) (serverWorkspace : PosixPath) :
    Except PyExc Files := do
  let text ← jsonDumpsPlain (.dict serverObj.entries)
  return Function.update files (serverWorkspace.joinpath serverFile) (some text)

def loadRawServer (files : Files) (serverWorkspace : PosixPath) : Except PyExc Json :=
  match files (serverWorkspace.joinpath serverFile) with
  | none => .error ⟨.fileNotFoundError, "No such file or directory"⟩
  | some text =>
    match Json.loads text with
    | some data => .ok data
    | none => .error ⟨.jsonDecodeError, "not JSON"⟩

theorem joinpath_serverFile_injective {p q : PosixPath}
    (h : p.joinpath serverFile = q.joinpath serverFile) : p = q := by
  have hname : PosixPath.IsName serverFile serverFile.toList := by decide
  exact PosixPath.child_injective hname h

/-- Saving gives the entries back in that workspace and changes no other. -/
theorem loadRawServer_save {files files' : Files} {obj : PyDict} {workspace : PosixPath}
    (h : saveRawServer files obj workspace = .ok files') :
    (∀ name v j, obj.get? name = some v → toJson v = .ok j →
      (loadRawServer files' workspace >>= subscript name) = .ok j) ∧
      ∀ other, other ≠ workspace → loadRawServer files' other = loadRawServer files other := by
  obtain ⟨text, htext, h⟩ := bind_eq_ok.mp h
  cases h
  constructor
  · intro name v j hv hj
    obtain ⟨data, hdata, hsub⟩ := subscript_of_jsonDumpsPlain htext hv hj
    have hload : loadRawServer (Function.update files (workspace.joinpath serverFile) (some text))
        workspace = .ok data := by
      simp [loadRawServer, hdata]
    rw [hload, ok_bind, hsub]
  · intro other hne
    have hpath : other.joinpath serverFile ≠ workspace.joinpath serverFile :=
      fun heq => hne (joinpath_serverFile_injective heq)
    simp [loadRawServer, Function.update_of_ne hpath]

/-! ### The objects of the SDKs -/

inductive ApiId where
  | int (i : ℤ)
  | str (s : String)
  deriving DecidableEq

def ApiId.toPyVal : ApiId → PyVal
  | .int i => .int i
  | .str s => .str s

def ApiId.toJson : ApiId → Json
  | .int i => .int i
  | .str s => .str s

theorem toJson_toPyVal (id : ApiId) : Utils.toJson id.toPyVal = .ok id.toJson := by
  cases id <;> rfl

/-- A created server as its SDK hands it out: the id, and what `__dict__`, `_serialize()` or
`to_dict()` makes of it. -/
structure SdkObject where
  id : ApiId
  attrs : PyDict

/-- The providers that save their servers. -/
inductive Cloud where
  | digitalOcean | linode | vultr
  deriving DecidableEq

def ProviderKind.cloud? : ProviderKind → Option Cloud
  | .digitalOcean _ => some .digitalOcean
  | .linode _ => some .linode
  | .vultr _ => some .vultr
  | _ => none

/-- What `prepare_after_server_created` saves. -/
def Cloud.rawServer : Cloud → SdkObject → PyDict
  | .digitalOcean, droplet =>
    dictFactory droplet.attrs ["tokens"] fun k => k.toList.head? = some '_'
  | .linode, instance_ => instance_.attrs.insert "id" instance_.id.toPyVal
  | .vultr, instance_ => instance_.attrs

/-- The serialised form has the id; the one of Linode is given it. -/
def SdkObject.CarriesId (cloud : Cloud) (obj : SdkObject) : Prop :=
  cloud ≠ .linode → obj.attrs.get? "id" = some obj.id.toPyVal

theorem get?_rawServer {cloud : Cloud} {obj : SdkObject} (h : obj.CarriesId cloud) :
    (cloud.rawServer obj).get? "id" = some obj.id.toPyVal := by
  cases cloud with
  | digitalOcean => exact get?_dictFactory (by decide) (by decide) (h (by decide))
  | linode => exact OrderedDict.get?_insert_self _ _ _
  | vultr => exact h (by decide)

/-! ### `destroy_server` -/

/-- What the APIs answer: the id of the object that is got or listed first for an id, and
whether the deletion of an id goes well. -/
structure CloudApi where
  getObject : Json → Except PyExc Json
  first : Json → Except PyExc (Option Json)
  delete : Json → Except PyExc Bool

/-- The deletions that were requested, and what is answered in the end. -/
abbrev Asked := List Json × Except PyExc Bool

section Destroy

variable (api : CloudApi) (files : Files) (m : LBServerMeta)

def serverId : Except PyExc Json := do subscript "id" (← loadRawServer files m.workspace)

def DigitalOceanProvider.destroyServer : Asked :=
  match serverId files m >>= api.getObject with
  | .ok id => ([id], api.delete id)
  | .error e => ([], .error e)

def LinodeProvider.destroyServer : Asked :=
  match serverId files m >>= api.first with
  | .ok (some id) => ([id], api.delete id)
  | .ok none => ([], .error ⟨.attributeError, "'NoneType' object has no attribute 'delete'"⟩)
  | .error e => ([], .error e)

/-- `delete` answers whether it has failed. -/
def VultrProvider.destroyServer : Asked :=
  match serverId files m with
  | .ok id => ([id], do return !(← api.delete id))
  | .error e => ([], .error e)

def Cloud.destroyServer : Cloud → Asked
  | .digitalOcean => DigitalOceanProvider.destroyServer api files m
  | .linode => LinodeProvider.destroyServer api files m
  | .vultr => VultrProvider.destroyServer api files m

end Destroy

/-- What is found for an id is the server of that id. -/
structure CloudApi.Honest (api : CloudApi) : Prop where
  getObject : ∀ {id id'}, api.getObject id = .ok id' → id' = id
  first : ∀ {id id'}, api.first id = .ok (some id') → id' = id

/-- The server of that id is found. -/
structure CloudApi.Finds (api : CloudApi) (id : Json) : Prop where
  getObject : api.getObject id = .ok id
  first : api.first id = .ok (some id)

/-- Nothing but the saved id is deleted, and it is if it is found. -/
theorem destroyServer_of_serverId {cloud : Cloud} {api : CloudApi} {files : Files}
    {m : LBServerMeta} {id : Json} (h : serverId files m = .ok id) :
    (api.Honest → ∀ i ∈ (cloud.destroyServer api files m).1, i = id) ∧
      (api.Finds id → (cloud.destroyServer api files m).1 = [id]) := by
  cases cloud with
  | digitalOcean =>
    simp only [Cloud.destroyServer, DigitalOceanProvider.destroyServer, h, ok_bind]
    constructor
    · intro hhonest i hi
      split at hi
      · next id' hget => rw [List.mem_singleton.mp hi, hhonest.getObject hget]
      · cases hi
    · intro hfinds
      rw [hfinds.getObject]
  | linode =>
    simp only [Cloud.destroyServer, LinodeProvider.destroyServer, h, ok_bind]
    constructor
    · intro hhonest i hi
      split at hi
      · next id' hfirst => rw [List.mem_singleton.mp hi, hhonest.first hfirst]
      · cases hi
      · cases hi
    · intro hfinds
      rw [hfinds.first]
  | vultr =>
    simp only [Cloud.destroyServer, VultrProvider.destroyServer, h]
    exact ⟨fun _ i hi => List.mem_singleton.mp hi, fun _ => trivial⟩

end Lobbyboy.Provider
