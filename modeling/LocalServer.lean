import LocalServer.Library.Machine
import LocalServer.Library.Search
import LocalServer.Library.Utf8
import LocalServer.Library.Text
import LocalServer.Library.Numeral
import LocalServer.Library.HashMap
import LocalServer.Library.Path
import LocalServer.Library.FileSystem
import LocalServer.Library.Action
import LocalServer.Library.Descriptors
import LocalServer.Library.Transition
import LocalServer.Library.Parsing
import LocalServer.Request
import LocalServer.Response
import LocalServer.Config
import LocalServer.Session
import LocalServer.Cgi
import LocalServer.Handler
import LocalServer.Tokenizer
import LocalServer.ConfigParser
import LocalServer.Server
import LocalServer.ChunkedBody
import LocalServer.RequestFraming
import LocalServer.RequestText
import LocalServer.Confinement
import LocalServer.Isolation
import LocalServer.Ownership
import LocalServer.Segmentation
import LocalServer.Effects
import LocalServer.UploadCycle
import LocalServer.ConfigGrammar
import LocalServer.ConfigAcceptance
import LocalServer.ConfigRejection
import LocalServer.ConfigText
import LocalServer.ConfigFile
import LocalServer.Servable
import LocalServer.VirtualHosts
import LocalServer.AccessControl
import LocalServer.Library.Seam
import LocalServer.UrlMapping
import LocalServer.SessionRuns
import LocalServer.SessionIds
import LocalServer.Responses
import LocalServer.ResponseFraming
import LocalServer.BodyLimit
import LocalServer.LocationMatching
import LocalServer.WriteIntegrity
import LocalServer.CgiFraming
import LocalServer.ErrorPages
import LocalServer.Footprint
import LocalServer.Timeouts
import LocalServer.Bookkeeping
import LocalServer.Edges
import LocalServer.Library.Pipes
import LocalServer.CgiPipes
import LocalServer.Cookies
import LocalServer.CgiStatus
import LocalServer.CgiDeadline
import LocalServer.Duplicates
import LocalServer.ErrorPositions
import LocalServer.Lexing
import LocalServer.BodySizes
import LocalServer.SessionTraces
import LocalServer.DirectoryServing
import LocalServer.ListingLinks
import LocalServer.Library.Writer
import LocalServer.Encoders
import LocalServer.TrailingSlashes
import LocalServer.Library.Exchange
import LocalServer.Library.Wire
import LocalServer.Handling
import LocalServer.Watching
import LocalServer.Exchanges
import LocalServer.Handled
import LocalServer.Library.Interleaving
import LocalServer.Threads
import LocalServer.Lifetimes
import LocalServer.Survival
import LocalServer.Relevance
import LocalServer.Scripts
import LocalServer.Library.Refinement
import LocalServer.Library.FileStore
import LocalServer.StoreServing
import LocalServer.StoreRuns
import LocalServer.Library.KindsOnly
import LocalServer.Reformatting
import LocalServer.ClientView
import LocalServer.History
import LocalServer.SessionLoops
import LocalServer.Authors
import LocalServer.Logins
