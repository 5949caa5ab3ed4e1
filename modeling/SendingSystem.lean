import SendingSystem.Lib.Loop
import SendingSystem.Lib.CString
import SendingSystem.Lib.Runs
import SendingSystem.Lib.Path
import SendingSystem.Lib.Overwrite
import SendingSystem.Lib.Table
import SendingSystem.Lib.Relational
import SendingSystem.Lib.Script
import SendingSystem.Lib.Steps
import SendingSystem.Lib.Schedule
import SendingSystem.Lib.CJson
import SendingSystem.Lib.Utf16
import SendingSystem.Lib.Memo
import SendingSystem.Lib.TopRow
import SendingSystem.Lib.IpText
import SendingSystem.Lib.Uri
import SendingSystem.Lib.Firsts
import SendingSystem.Lib.OrgJson
import SendingSystem.Lib.Like
import SendingSystem.Lib.Labelled
import SendingSystem.Lib.JsonText
import SendingSystem.Lib.JsonSchema
import SendingSystem.Lib.Numerals
import SendingSystem.Lib.Calendar
import SendingSystem.Lib.Utf8Order
import SendingSystem.Lib.Heap
import SendingSystem.Lib.HeapArray
import SendingSystem.Server.Config
import SendingSystem.Server.FileService
import SendingSystem.Server.FillLimit
import SendingSystem.Server.SanitizeLoops
import SendingSystem.Server.SavePath
import SendingSystem.Server.Schema
import SendingSystem.Server.Repository
import SendingSystem.Server.Store
import SendingSystem.Server.GetOrCreate
import SendingSystem.Server.Rows
import SendingSystem.Server.LastSuccessful
import SendingSystem.Server.GetAll
import SendingSystem.Server.HeapRows
import SendingSystem.Server.ReadBack
import SendingSystem.Server.Migration
import SendingSystem.Server.Contact
import SendingSystem.Server.HttpJson
import SendingSystem.Server.World
import SendingSystem.Server.SaveConnection
import SendingSystem.Server.ApiSend
import SendingSystem.Server.HeapSend
import SendingSystem.Server.ApiUpload
import SendingSystem.Server.History
import SendingSystem.Server.Storage
import SendingSystem.Server.FileHandles
import SendingSystem.Server.Rejection
import SendingSystem.Server.OpenApi
import SendingSystem.Server.Wire
import SendingSystem.Server.Verbatim
import SendingSystem.Server.Harmless
import SendingSystem.Server.UploadHistory
import SendingSystem.Server.Recording
import SendingSystem.Server.Subnet
import SendingSystem.Server.ServerIps
import SendingSystem.Server.HeapIps
import SendingSystem.Server.SubnetKey
import SendingSystem.Server.SaveRace
import SendingSystem.Server.Peers
import SendingSystem.Server.ApiOpenapi
import SendingSystem.Server.Concurrent
import SendingSystem.Server.Restart
import SendingSystem.Server.Undisturbed
import SendingSystem.Client.Filename
import SendingSystem.Client.Connector
import SendingSystem.Client.TlsClient
import SendingSystem.Client.FileBody
import SendingSystem.Client.Database
import SendingSystem.Client.SendData
import SendingSystem.Client.Url
import SendingSystem.Client.FreshRequest
import SendingSystem.Client.History
import SendingSystem.Client.LastSend
import SendingSystem.Client.Seeding
import SendingSystem.Client.NamedSearch
import SendingSystem.Client.ServerResponse
import SendingSystem.Client.MainScreen
import SendingSystem.Client.ScreenRuns
import SendingSystem.Client.ScreenRest
import SendingSystem.System.FileNames
import SendingSystem.System.Histories
import SendingSystem.System.StoredNames
import SendingSystem.System.Replies
import SendingSystem.System.Delivery
import SendingSystem.System.FileDelivery
import SendingSystem.System.Exchanges
import SendingSystem.System.SendingTime
