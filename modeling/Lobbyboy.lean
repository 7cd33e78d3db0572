import Lobbyboy.Config.DbLock
import Lobbyboy.Config.DbMoments
import Lobbyboy.Config.DbFailure
import Lobbyboy.Config.ProviderClasses
import Lobbyboy.ServerKiller.BillingCycle
import Lobbyboy.ServerKiller.LoadedConfig
import Lobbyboy.ServerKiller.Promises
import Lobbyboy.ServerKiller.Deadlines
import Lobbyboy.ServerKiller.Records
import Lobbyboy.ServerKiller.Sweep
import Lobbyboy.Provider.NameRaces
import Lobbyboy.Provider.ServerKeys
import Lobbyboy.Provider.ServerIds
import Lobbyboy.Provider.CloudFleet
import Lobbyboy.Provider.Templates
import Lobbyboy.Provider.Vagrant
import Lobbyboy.Provider.VagrantNames
import Lobbyboy.Provider.VagrantSshConfig
import Lobbyboy.Server.AuthorizedKeys
import Lobbyboy.Server.WindowSize
import Lobbyboy.Server.PtyPairs
import Lobbyboy.SocketHandle.Menu
import Lobbyboy.SocketHandle.Orders
import Lobbyboy.SocketHandle.Seat
import Lobbyboy.SocketHandle.SshCommand
import Lobbyboy.SocketHandle.ContainerCommand
import Lobbyboy.SocketHandle.UserUsing
import Lobbyboy.SocketHandle.ClientInput
import Lobbyboy.Daemon.Races
import Lobbyboy.Daemon.Destroyers
import Lobbyboy.Daemon.Fleet
import Lobbyboy.Daemon.PtyDescriptors
import Lobbyboy.Daemon.Linearization
import Lobbyboy.Daemon.Verdicts
import Lobbyboy.Utils.ClosedChannel
import Lobbyboy.Utils.DurationSyntax
import Lobbyboy.Utils.LineEditing
import Lobbyboy.Utils.Retries
import Lobbyboy.Utils.SharedKeys
