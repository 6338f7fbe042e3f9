import Httplib.Util.String
import Httplib.Util.Utf8
import Httplib.Http.Message
import Httplib.Body.FormData
import Httplib.Session.Loop
import Httplib.Session.Framing
import Httplib.Session.Answers
import Httplib.Session.Payload
import Httplib.Session.Connect
import Httplib.WebSocket.Conn
import Httplib.WebSocket.Writer
import Httplib.WebSocket.Close
import Httplib.WebSocket.Delivery
import Httplib.WebSocket.Moves
import Httplib.WebSocket.Echo
import Httplib.WebSocket.Stall
import Httplib.WebSocket.Progress
import Httplib.WebSocket.EchoDrain
import Httplib.WebSocket.Release
import Httplib.WebSocket.Channel
import Httplib.Html.Ranges
import Httplib.Html.RangeSpecs
import Httplib.Html.RangeAccept
import Httplib.Html.RangeBounds
import Httplib.Html.Listing
import Httplib.Html.ListingDecode
import Httplib.Html.ListingUtf8
import Httplib.Html.ErrorPage
