import Goofy.Lib.Transition
import Goofy.Settings
import Goofy.Os
import Goofy.Util.IntTypes
import Goofy.Gopher.Menu
import Goofy.Gopher.ProtoReader
import Goofy.Gopher.Request
import Goofy.Gopher.NodeFSys
import Goofy.Gopher.Confinement
import Goofy.Gopher.Listing
import Goofy.MapParser
import Goofy.Lib.Numbering
import Goofy.Gopher.Map
import Goofy.Gopher.Routing
import Goofy.Loader
import Goofy.Site
import Goofy.Registration
import Goofy.SiteRouting
import Goofy.Serving
import Goofy.Session
import Goofy.SessionRuns
import Goofy.Gopher.UserErrors
import Goofy.ErrorMenus
import Goofy.Gopher.ListingMenu
import Goofy.GophermapLines
import Goofy.Gopher.GophermapMenu
import Goofy.Lib.Handles
import Goofy.Server
import Goofy.SettingsFile
import Goofy.ConfiguredPorts
import Goofy.ServedFile
import Goofy.Gopher.Redirection
import Goofy.Gopher.Delivery
import Goofy.Gopher.WriterRuns
import Goofy.Gopher.ReaderRuns
import Goofy.Gopher.ReaderReuse
import Goofy.Gopher.NormalForm
import Goofy.Util.Tokens
import Goofy.Gopher.RequestTokens
import Goofy.Lib.Exchange
import Goofy.Conversation
import Goofy.Interleaving
import Goofy.SessionEnd
import Goofy.Shutdown
import Goofy.Gopher.ServedMenu
import Goofy.Gopher.InternalErrors
import Goofy.MapGrowth
import Goofy.LiveLinks
import Goofy.StableSelectors
import Goofy.Browsing
import Goofy.StartUp
