import TiabloServer.KV.ReadYourWrites
import TiabloServer.KV.Store
import TiabloServer.Lib.Runs
import TiabloServer.Lib.Containment
import TiabloServer.Trade.Session
import TiabloServer.Trade.UnseenOffer
import TiabloServer.Items.Types
import TiabloServer.Items.World
import TiabloServer.Items.Things
import TiabloServer.Items.Queries
import TiabloServer.Items.Move
import TiabloServer.Items.Effects
import TiabloServer.Items.Holding
import TiabloServer.Items.MovePlan
import TiabloServer.Items.Stacks
import TiabloServer.Items.Samples
import TiabloServer.Items.MoveConservation
import TiabloServer.Items.Destinations
import TiabloServer.Items.Exchange
import TiabloServer.Items.MoveRefusal
import TiabloServer.Items.AddConservation
import TiabloServer.Items.Linked
import TiabloServer.Items.Trees
import TiabloServer.Items.Arrival
import TiabloServer.Items.Money
import TiabloServer.Bank.Bank
import TiabloServer.Players.Level
import TiabloServer.Players.Stats
import TiabloServer.Database.Insert
import TiabloServer.Database.Transaction
import TiabloServer.KV.BackgroundSave
import TiabloServer.KV.Proto
import TiabloServer.Lib.Text
import TiabloServer.Lib.Wire
import TiabloServer.Lib.Forest
import TiabloServer.Weights.Container
import TiabloServer.Attributes.Item
import TiabloServer.Attributes.Serialize
import TiabloServer.Attributes.Restore
import TiabloServer.Attributes.RoundTrip
import TiabloServer.Weights.Updates
import TiabloServer.Weights.Operations
import TiabloServer.Weights.Creation
import TiabloServer.Weights.Invariant
import TiabloServer.Otb.Loader
import TiabloServer.Otb.Encoding
import TiabloServer.Otb.FileStream
import TiabloServer.Otb.Readers
import TiabloServer.Lib.Feistel
import TiabloServer.Lib.Memory
import TiabloServer.Network.Message
import TiabloServer.Network.Protocol
import TiabloServer.Network.Framing
import TiabloServer.Network.Overrun
import TiabloServer.Lib.Interning
import TiabloServer.Map.MapCache
import TiabloServer.Map.Position
import TiabloServer.Map.Loading
import TiabloServer.Lib.PathTree
import TiabloServer.Map.QuadTree
import TiabloServer.Map.QuadTreeLinks
import TiabloServer.Map.Creatures
import TiabloServer.Map.SpectatorSearch
import TiabloServer.Map.Spectators
import TiabloServer.Lib.Assoc
import TiabloServer.Utils.WildcardTree
import TiabloServer.Creatures.Speed
import TiabloServer.Creatures.Experience
import TiabloServer.Players.Party
import TiabloServer.Scheduling.Wakeup
import TiabloServer.Creatures.Bonuses
import TiabloServer.Lib.Codec
import TiabloServer.Lib.Loop
import TiabloServer.Map.Pathfinding
import TiabloServer.Map.PathWalk
import TiabloServer.Creatures.Conditions
import TiabloServer.Creatures.ConditionRoundTrip
import TiabloServer.Lib.Agenda
import TiabloServer.Items.Decay
import TiabloServer.Items.DecayRegistry
import TiabloServer.Items.TileStack
import TiabloServer.Scheduling.Dispatcher
import TiabloServer.Scheduling.DispatcherRun
import TiabloServer.Creatures.ConditionList
import TiabloServer.Creatures.ConditionListRuns
import TiabloServer.Creatures.WalkCache
import TiabloServer.Scheduling.SaveManager
import TiabloServer.Account.Coins
import TiabloServer.Players.Imbuements
import TiabloServer.Network.Values
import TiabloServer.Players.Training
import TiabloServer.Players.Wheel
import TiabloServer.Players.WheelConnections
import TiabloServer.Players.Gems
import TiabloServer.Players.Prey
import TiabloServer.Items.TileFlags
import TiabloServer.Map.Zones
import TiabloServer.Lib.OrderedMap
import TiabloServer.Lib.ArrayLoops
import TiabloServer.Database.PlayerItems
import TiabloServer.Market.Refunds
import TiabloServer.Network.KnownCreatures
import TiabloServer.Creatures.CheckBuckets
import TiabloServer.Network.Stackpos
import TiabloServer.Network.MapWindow
import TiabloServer.Lib.Attempt
import TiabloServer.Players.Belongings
import TiabloServer.Players.Forge
import TiabloServer.Items.AddFrame
import TiabloServer.Items.PlayerAdd
import TiabloServer.Items.Stash
import TiabloServer.Bank.Payments
import TiabloServer.Players.DeathLoss
import TiabloServer.Market.OfferItems
import TiabloServer.Database.Batches
import TiabloServer.KV.Keys
import TiabloServer.Players.WaitingList
import TiabloServer.Creatures.Channels
import TiabloServer.Creatures.Spawns
import TiabloServer.Creatures.Targets
import TiabloServer.Map.PathDiagonals
import TiabloServer.Account.Premium
import TiabloServer.Lib.BreadthFirst
import TiabloServer.Items.ContainerTree
import TiabloServer.Items.FreeSlots
import TiabloServer.Items.Merging
import TiabloServer.Otb.Probes
import TiabloServer.Lib.Sha1
import TiabloServer.Utils.Sha1
import TiabloServer.Utils.Token
import TiabloServer.Players.Takings
import TiabloServer.Items.Stowing
import TiabloServer.Lib.Lines
import TiabloServer.Map.SightLine
import TiabloServer.Map.AccessList
import TiabloServer.Players.LockerItems
import TiabloServer.Players.PreyGrid
import TiabloServer.Creatures.MostDamage
import TiabloServer.Creatures.Feared
import TiabloServer.Items.Wrapping
import TiabloServer.Utils.VectorSet
import TiabloServer.Utils.ArrayList
import TiabloServer.Utils.Base64
import TiabloServer.Map.AreaWalk
import TiabloServer.Creatures.DamageList
import TiabloServer.Creatures.TargetSearch
import TiabloServer.Creatures.SpellAreas
import TiabloServer.Creatures.HealthHit
import TiabloServer.Creatures.ChainTargets
import TiabloServer.Lib.KeyVector
import TiabloServer.Attributes.AttributeVector
import TiabloServer.Creatures.CombatRuns
import TiabloServer.Bank.Consistency
