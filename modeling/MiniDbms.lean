import MiniDbms.BPTree.Allocation
import MiniDbms.Common.Display
import MiniDbms.Sql.Parser
import MiniDbms.Sql.TokenizerCache
import MiniDbms.Sql.CacheOrder
import MiniDbms.Sql.Grammar
import MiniDbms.Sql.RoundTrip
import MiniDbms.Sql.Names
import MiniDbms.Sql.Spelling
import MiniDbms.Sql.Operators
import MiniDbms.Storage.LostRows
import MiniDbms.Storage.LineLength
import MiniDbms.Storage.AutoIds
import MiniDbms.Storage.NextId
import MiniDbms.Storage.Offsets
import MiniDbms.Index.Range
import MiniDbms.Runtime.Agreement
import MiniDbms.Runtime.Reload
import MiniDbms.Runtime.StoredKeys
import MiniDbms.Runtime.Capacity
import MiniDbms.Engine.Select
import MiniDbms.Engine.Delete
import MiniDbms.Engine.Durability
import MiniDbms.Engine.Addressing
import MiniDbms.Engine.Concurrency
import MiniDbms.Engine.Paths
import MiniDbms.Concurrency.ThreadPool
import MiniDbms.Concurrency.Snapshots
import MiniDbms.Api.RequestRouter
import MiniDbms.Api.RequestBody
import MiniDbms.Api.FastPath
import MiniDbms.Api.Concurrent
import MiniDbms.Api.ServerStops
import MiniDbms.Cli.Exit
import MiniDbms.BPTree.Height
import MiniDbms.BPTree.Free
import MiniDbms.Engine.Permanence
import MiniDbms.Cli.Session
import MiniDbms.Engine.AppendOnly
import MiniDbms.Engine.Linearizable
