import Migfm.Chat.Bounds
import Migfm.Chat.Token
import Migfm.Chat.SendFull
import Migfm.Robot.RoundTrip
import Migfm.Robot.Close
import Migfm.Comm.Fifo
import Migfm.Master.Lines
import Migfm.Net.Window
import Migfm.Net.Lifetime
import Migfm.Logic.Equality
import Migfm.Logic.StringConversions
import Migfm.Logic.HttpForm
import Migfm.Logic.HttpKinds
import Migfm.Logic.JsonAgree
import Migfm.Music.Collection
import Migfm.Music.Like
import Migfm.Data.DataCache
import Migfm.Public.BasicInfo
import Migfm.Queue.Delivery
import Migfm.Pool.History
import Migfm.Pool.Workers
import Migfm.Music.DicPool
import Migfm.Music.TypeSongs
import Migfm.Recv.Requests
import Migfm.Sociality.ShareToken
import Migfm.Storage.Readers
import Migfm.Master.Reconnect
import Migfm.Sociality.Comments
import Migfm.Sociality.CurrentSong
import Migfm.Public.RadomIn
import Migfm.Robot.PrizeRate
import Migfm.Wire.TypedStream
import Migfm.Robot.Announced
import Migfm.Chat.Offers
import Migfm.Usersvc.DBComm
import Migfm.Usersvc.Profile
import Migfm.Net.References
import Migfm.Logic.Paths
import Migfm.Logic.EmptyChildren
import Migfm.Logic.Merge
import Migfm.Public.UrlEncode
import Migfm.Chat.Summary
import Migfm.Public.QueryString
import Migfm.Music.Dimensions
import Migfm.Logic.XmlTags
import Migfm.Storage.HashReplies
import Migfm.Music.NearUsers
import Migfm.Music.Channels
import Migfm.Public.Allocation
import Migfm.Chat.Schedule
import Migfm.Public.Handles
import Migfm.Data.BatchUsers
import Migfm.Chat.Confirm
import Migfm.Music.SongLists
import Migfm.Logic.Unicode
import Migfm.Data.MysqlEngine
import Migfm.Public.Numerals
import Migfm.Sociality.Lyric
import Migfm.Music.Listeners
import Migfm.Lbs.NearUsers
import Migfm.Library.Scanning
import Migfm.Public.HttpMethod
import Migfm.Push.BaiDuPushMsgInfo
import Migfm.Net.HttpApi
import Migfm.Library.JsonText
import Migfm.Music.SongArrays
import Migfm.Library.Rounding
import Migfm.Music.Quotas
import Migfm.Comm.Layout
import Migfm.Comm.Repos
import Migfm.Comm.Windows
import Migfm.Data.Dimensions
import Migfm.Chat.Plugins
import Migfm.Master.UserMgr
import Migfm.Robot.Forecast
import Migfm.Robot.WeatherPush
import Migfm.Sociality.Gifts
import Migfm.Robot.SongDispatch
import Migfm.Public.Md5sum
import Migfm.Robot.Heartbeats
import Migfm.Net.Buffer
import Migfm.System.Link
import Migfm.Music.Base64
import Migfm.Library.SortedMap
import Migfm.Public.JsonWriter
import Migfm.Public.JsonTexts
import Migfm.Public.JsonRoundTrip
import Migfm.Master.NewMusic
import Migfm.Library.LeastUsed
import Migfm.Master.UtilMgr
import Migfm.Comm.FixedBuf
import Migfm.System.Gateway
