import Hed.Prelude.OrderedMap
import Hed.Prelude.Program
import Hed.Prelude.Run
import Hed.Prelude.Store
import Hed.Prelude.Ledger
import Hed.Prelude.Protocol
import Hed.Prelude.Interleaving
import Hed.Prelude.Calendar
import Hed.Prelude.Layout
import Hed.Prelude.Octets
import Hed.Lmdb.World
import Hed.Lmdb.Calls
import Hed.Lmdb.Shared
import Hed.Repo.Code
import Hed.Repo.Transaction
import Hed.Repo.Setup
import Hed.Repo.Opening
import Hed.Repo.Client
import Hed.Repo.Publish
import Hed.Repo.Rollback
import Hed.Repo.ReadOnly
import Hed.Repo.Sequence
import Hed.Repo.Registered
import Hed.Repo.Release
import Hed.Repo.Processes
import Hed.Repo.Failure
import Hed.Repo.AllOrNothing
import Hed.Rpc.Factory
import Hed.Rpc.Groups
import Hed.Server.Code
import Hed.Server.Loop
import Hed.Base.Message
import Hed.Base.Time
import Hed.Base.RoundTrip
import Hed.Inet.Code
import Hed.Inet.Prefix
import Hed.Inet.Codec
import Hed.Inet.MessagePack
import Hed.Inet.Networks
import Hed.Lmdb.Cursor
import Hed.Repo.Iterator
import Hed.Prelude.Holdings
import Hed.Rpc.Table
import Hed.Server.Halt
import Hed.Server.Setup
import Hed.Prelude.Numeral
import Hed.Base.Fraction
import Hed.Prelude.Contract
import Hed.Repo.Sequential
import Hed.Repo.Serializable
import Hed.Repo.Cursors
import Hed.Repo.Deliveries
import Hed.Json.Addresses
import Hed.Prelude.Bisect
import Hed.Base.Enumeration
import Hed.Json.Enumerations
import Hed.Prelude.Regex
import Hed.Json.Names
import Hed.Json.Ownership
import Hed.Prelude.Failures
import Hed.Repo.Reporting
import Hed.Server.Reporting
