import Lobbyboy.World

/-! A configured provider: its name, its part of the configuration, and the directory
that holds a workspace for each of its servers. -/

namespace Lobbyboy.Provider

open Foundation Utils Config Prog

structure IgniteConfig where
  image : String := "weaveworks/ignite-ubuntu"
  cpu : ℤ := 1
  mem : String := "1GB"
  disk : String := "5GB"
  deriving DecidableEq

structure MultipassConfig where
  image : String := "release:20.04"
  cpu : ℤ := 1
  mem : String := "1GB"
  disk : String := "5GB"
  deriving DecidableEq

/-- The shipped classes, with the options they have besides the common ones. -/
inductive ProviderKind
  | digitalOcean (favoriteInstanceTypes : List String)
  | linode (favoriteInstanceTypes : List String)
  | vultr (favoriteInstanceTypes : List String)
  | footloose
  | ignite (config : IgniteConfig)
  | multipass (config : MultipassConfig)
  | vagrant
  deriving DecidableEq

structure BaseProvider where
  name : String
  providerConfig : LBConfigProvider
  workspace : PosixPath
  kind : ProviderKind
  deriving DecidableEq

abbrev Providers := OrderedDict String BaseProvider

/-! ### Deletion by a command

Three of the providers run a command to delete a server and answer whether it returned
zero. -/

def deletedByCommand (returncode : ℤ) : Bool := if returncode ≠ 0 then false else true

/-- `footloose delete -c <workspace>/footloose.yaml`. -/
def FootlooseProvider.destroyServer (returncode : ℤ) : Bool := deletedByCommand returncode

/-- `ignite rm -f <server_name>`. -/
def IgniteProvider.destroyServer (returncode : ℤ) : Bool := deletedByCommand returncode

/-- `multipass delete --purge <server_name>`. -/
def MultipassProvider.destroyServer (returncode : ℤ) : Bool := deletedByCommand returncode

theorem deletedByCommand_eq_true_iff {returncode : ℤ} :
    deletedByCommand returncode = true ↔ returncode = 0 := by
  simp [deletedByCommand]

end Lobbyboy.Provider
