import Webos.Lib.Bytes
import Webos.Lib.Fragment
import Webos.Lib.RingQueue
import Webos.Lib.Program
import Webos.Lib.Monitor
import Webos.Lib.Files
import Webos.Adb.Config
import Webos.Adb.Wire
import Webos.Adb.Router.State
import Webos.Adb.Router.Streams
import Webos.Adb.Router.Dispatch
import Webos.Adb.Router.Frame
import Webos.Adb.Router.Receiver
import Webos.Adb.Framing
import Webos.Adb.Session.Machine
import Webos.Adb.Session.Runs
import Webos.Adb.Session.Ties
import Webos.Adb.Router.Refines
import Webos.Adb.Router.Sessions
import Webos.Adb.Delivery
import Webos.Adb.Sync.Path
import Webos.Adb.Sync.Service
import Webos.Adb.Sync.Wire
import Webos.Adb.Sync.Parser
import Webos.Adb.Sync.Replies
import Webos.Adb.Sync.Boundaries
import Webos.Adb.Sync.Staging
import Webos.Adb.Sync.Effects
import Webos.Adb.Sync.Transaction
import Webos.Adb.Sync.Uploads
import Webos.Adb.Sync.Pushes
import Webos.Adb.Usb.Transmit
import Webos.Adb.Router.Rules
import Webos.Adb.Router.Gate
import Webos.Adb.Router.Ids
import Webos.Adb.Usb.Link
import Webos.Adb.Usb.Receive
import Webos.Adb.Usb.Packets
import Webos.Adb.Router.Callbacks
import Webos.Adb.Router.Opens
import Webos.Lib.ByteRing
import Webos.Lib.Owners
import Webos.Services.LogBuffer
import Webos.Adb.Shell.Policy
import Webos.Adb.Shell.Service
import Webos.Adb.Logcat.Service
import Webos.Adb.Router.Contexts
import Webos.Adb.Shell.Ownership
import Webos.Adb.Sync.Ownership
import Webos.Adb.Logcat.Ownership
import Webos.Adb.System
import Webos.Adb.Contexts
import Webos.Adb.StagingFiles
import Webos.Adb.Wraparound
import Webos.Adb.Conversations
import Webos.Adb.Refusals
import Webos.Lib.LinkedTree
import Webos.Lib.CString
import Webos.Devfs.Path
import Webos.Devfs.Tree
import Webos.Devfs.Files
import Webos.Devfs.Invariant
import Webos.Devfs.Register
import Webos.Devfs.Handles
import Webos.Lib.PathMap
import Webos.Devfs.Spec
import Webos.Devfs.Refines
import Webos.Devfs.Interleaving
import Webos.Lib.Format
import Webos.Utils.Json
import Webos.Utils.Escaping
import Webos.Utils.Members
import Webos.Services.Ota
import Webos.Services.Http.Server
import Webos.Services.Http.Handlers
import Webos.Services.Http.Bodies
import Webos.Services.Http.Lengths
import Webos.Services.Http.Uploads
import Webos.Lib.Segments
import Webos.Services.App.Context
import Webos.Services.App.Utf8
import Webos.Services.App.Sandbox
import Webos.Adb.Shell.Editor
import Webos.Adb.Router.Uplink
import Webos.Adb.Shell.Strokes
import Webos.Adb.Shell.Interactive
import Webos.Adb.Shell.Outputs
import Webos.Adb.Sync.Answers
import Webos.Adb.Shell.Paths
import Webos.Adb.Sync.Components
import Webos.Adb.Sync.Hangup
import Webos.Adb.Sync.Leftovers
import Webos.Lib.Runs
import Webos.Adb.Shell.Grammar
import Webos.Services.LogHistory
import Webos.Adb.Logcat.Live
import Webos.Devfs.Listing
import Webos.Lib.Tokens
import Webos.Services.App.Utf8Reads
import Webos.Services.App.Origins
import Webos.Services.HttpClient.Headers
import Webos.Services.Http.Pushbin
import Webos.Drivers.Gpio
import Webos.Drivers.RgbLed
import Webos.Drivers.LedTexts
import Webos.Lib.Checked
import Webos.Lib.CheckedRing
import Webos.Adb.Logcat.Rings
import Webos.Adb.Router.Bounds
import Webos.Adb.Shell.Buffers
import Webos.Adb.Sync.Consistency
