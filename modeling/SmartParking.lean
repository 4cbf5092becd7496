import SmartParking.Foundation.Runs
import SmartParking.Foundation.Exchanges
import SmartParking.Foundation.UndoLog
import SmartParking.Foundation.ChangeLog
import SmartParking.Foundation.FirstFit
import SmartParking.Foundation.FirstByKey
import SmartParking.Foundation.ListUpdate
import SmartParking.Foundation.ListMaps
import SmartParking.Foundation.Ledger
import SmartParking.Foundation.Buffer
import SmartParking.Foundation.Rounding
import SmartParking.Foundation.CheckedLoop
import SmartParking.Foundation.FirstOrNew
import SmartParking.Foundation.LeastCandidate
import SmartParking.Foundation.JsonString
import SmartParking.Foundation.JsonChars
import SmartParking.Foundation.JsonText
import SmartParking.Foundation.JsonTree
import SmartParking.Foundation.JsonNumber
import SmartParking.Foundation.JsonInteger
import SmartParking.Foundation.JsonWrite
import SmartParking.Foundation.OutputStream
import SmartParking.Foundation.JsonOutput
import SmartParking.Core.Slots
import SmartParking.Core.Requests
import SmartParking.Core.AllocationEngine
import SmartParking.Core.FlatSearch
import SmartParking.Core.RollbackManager
import SmartParking.Core.RecordedPast
import SmartParking.Core.ParkingSystem
import SmartParking.Core.Layout
import SmartParking.System.Audit
import SmartParking.System.Closing
import SmartParking.System.Occupancy
import SmartParking.System.CallEffects
import SmartParking.System.RunConditions
import SmartParking.System.Undo
import SmartParking.System.RequestParking
import SmartParking.System.CallLog
import SmartParking.System.Filling
import SmartParking.Memory.Pointers
import SmartParking.Memory.Validity
import SmartParking.Memory.Refinement
import SmartParking.Crow.Json
import SmartParking.Crow.Strings
import SmartParking.Crow.Numbers
import SmartParking.Crow.Language
import SmartParking.Crow.Standard
import SmartParking.Crow.Access
import SmartParking.Server.Handlers
import SmartParking.Server.Frontend
import SmartParking.Server.ZoneHandlers
import SmartParking.Server.ZoneAgreement
import SmartParking.Server.SlotIdentity
import SmartParking.Server.Concurrency
import SmartParking.Server.RoundPercent
import SmartParking.Server.Dashboard
import SmartParking.Server.JsonEscape
import SmartParking.Server.RawRequests
import SmartParking.Server.Booking
import SmartParking.Crow.Trie
import SmartParking.Crow.TrieSearch
import SmartParking.Crow.TrieBuild
import SmartParking.Crow.TrieRules
import SmartParking.Crow.UrlParameters
import SmartParking.Crow.Router
import SmartParking.Crow.Routing
import SmartParking.Crow.Connection
import SmartParking.Server.Routes
import SmartParking.Server.Traffic
import SmartParking.Server.ClientBodies
import SmartParking.Server.Replies
import SmartParking.Server.ReplyTrees
import SmartParking.Server.PageData
import SmartParking.Server.ZonesPage
import SmartParking.Server.VehicleNames
import SmartParking.Browser.State
import SmartParking.Browser.Names
import SmartParking.Browser.Effects
import SmartParking.Browser.Undo
import SmartParking.Browser.History
import SmartParking.Browser.Vehicles
import SmartParking.Browser.Operations
import SmartParking.Browser.Snapshot
import SmartParking.Browser.Page
