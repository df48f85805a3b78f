import BaseUtilities.Coding.Crc
import BaseUtilities.Effects.Charts
import BaseUtilities.Effects.Dialogue
import BaseUtilities.Effects.Interrupts
import BaseUtilities.Effects.Logic
import BaseUtilities.Effects.Owners
import BaseUtilities.Effects.Program
import BaseUtilities.Effects.Runs
import BaseUtilities.Effects.Session
import BaseUtilities.Effects.Tasks
import BaseUtilities.Effects.Total
import BaseUtilities.Effects.Trace
import BaseUtilities.Files.Content
import BaseUtilities.Files.Descriptors
import BaseUtilities.Files.FileHandle
import BaseUtilities.Files.Lines
import BaseUtilities.Files.Transfers
import BaseUtilities.Files.Values
import BaseUtilities.FlashDb.Additions
import BaseUtilities.FlashDb.Allocation
import BaseUtilities.FlashDb.Caches
import BaseUtilities.FlashDb.Changes
import BaseUtilities.FlashDb.Checks
import BaseUtilities.FlashDb.Collection
import BaseUtilities.FlashDb.Damage
import BaseUtilities.FlashDb.Defaults
import BaseUtilities.FlashDb.Finding
import BaseUtilities.FlashDb.Headers
import BaseUtilities.FlashDb.Iterations
import BaseUtilities.FlashDb.Kvdb
import BaseUtilities.FlashDb.Layout
import BaseUtilities.FlashDb.Loading
import BaseUtilities.FlashDb.Nodes
import BaseUtilities.FlashDb.Operations
import BaseUtilities.FlashDb.Pairs
import BaseUtilities.FlashDb.Places
import BaseUtilities.FlashDb.Sectors
import BaseUtilities.FlashDb.Sessions
import BaseUtilities.FlashDb.Setting
import BaseUtilities.FlashDb.Statuses
import BaseUtilities.FlashDb.Storage
import BaseUtilities.FlashDb.Utils
import BaseUtilities.FlashDb.Writing
import BaseUtilities.Framing.Fragments
import BaseUtilities.Ftp.Abort
import BaseUtilities.Ftp.Addresses
import BaseUtilities.Ftp.Arrays
import BaseUtilities.Ftp.AsciiDownload
import BaseUtilities.Ftp.AsciiUpload
import BaseUtilities.Ftp.Commands
import BaseUtilities.Ftp.Completion
import BaseUtilities.Ftp.Control
import BaseUtilities.Ftp.Data
import BaseUtilities.Ftp.Discipline
import BaseUtilities.Ftp.Fields
import BaseUtilities.Ftp.Frame
import BaseUtilities.Ftp.Framing
import BaseUtilities.Ftp.Hearing
import BaseUtilities.Ftp.Image
import BaseUtilities.Ftp.Ledger
import BaseUtilities.Ftp.Leftovers
import BaseUtilities.Ftp.Lines
import BaseUtilities.Ftp.Login
import BaseUtilities.Ftp.Newlines
import BaseUtilities.Ftp.OneBuffer
import BaseUtilities.Ftp.OneReply
import BaseUtilities.Ftp.Passive
import BaseUtilities.Ftp.Platform
import BaseUtilities.Ftp.Replies
import BaseUtilities.Ftp.Reports
import BaseUtilities.Ftp.Server
import BaseUtilities.Ftp.Session
import BaseUtilities.Ftp.Sockets
import BaseUtilities.Ftp.Stream
import BaseUtilities.Ftp.Synchrony
import BaseUtilities.Ftp.Transfers
import BaseUtilities.Kv.Closed
import BaseUtilities.Kv.Databases
import BaseUtilities.Kv.KVDB
import BaseUtilities.Kv.RoundTrip
import BaseUtilities.Kv.Stores
import BaseUtilities.Kv.Typed
import BaseUtilities.Memory.Buffer
import BaseUtilities.Memory.Text
import BaseUtilities.Net.IPAddress
import BaseUtilities.Net.Parsing
import BaseUtilities.Storage.Cells
import BaseUtilities.Storage.Nor
import BaseUtilities.Storage.Slots
import BaseUtilities.Thread.Code
import BaseUtilities.Thread.LifeCycle
import BaseUtilities.Timers.DelayExec
import BaseUtilities.Timers.Delays
import BaseUtilities.Timers.Durations
import BaseUtilities.Timers.Ledger
import BaseUtilities.Timers.Points
import BaseUtilities.Timers.Room
import BaseUtilities.Uuid.SimpleUuid
import BaseUtilities.WebSocket.Client
import BaseUtilities.WebSocket.Frames
import BaseUtilities.WebSocket.Pairing
import BaseUtilities.WiFi.Credentials
import BaseUtilities.WiFi.Driver
import BaseUtilities.WiFi.Interfaces
import BaseUtilities.WiFi.Modes
import BaseUtilities.WiFi.Reconnection
