import Imapcl.Foundation.StateExcept
import Imapcl.Foundation.Cursor
import Imapcl.Foundation.Cut
import Imapcl.Foundation.Machine
import Imapcl.Foundation.Words
import Imapcl.Foundation.Pattern
import Imapcl.Foundation.Overwrite
import Imapcl.Foundation.Getopt
import Imapcl.Response.Basic
import Imapcl.Response.Decimal
import Imapcl.Parser.Machine
import Imapcl.Parser.Grammar
import Imapcl.Parser.Discipline
import Imapcl.Parser.WireForm
import Imapcl.Parser.Elements
import Imapcl.Parser.Consumption
import Imapcl.Parser.Stream
import Imapcl.Parser.Truncated
import Imapcl.Parser.Numbers
import Imapcl.Parser.Literal
import Imapcl.Parser.Success
import Imapcl.Parser.Inversion
import Imapcl.Parser.Delivered
import Imapcl.Parser.Greeting
import Imapcl.Parser.Lines
import Imapcl.Parser.StatusLine
import Imapcl.Parser.Nil
import Imapcl.Parser.Progress
import Imapcl.Parser.Tagged
import Imapcl.Parser.Echo
import Imapcl.Parser.UpToLiteral
import Imapcl.Parser.Bounds
import Imapcl.Parser.Language
import Imapcl.Parser.Exact
import Imapcl.Parser.Segments
import Imapcl.Receiver.Basic
import Imapcl.Receiver.Chunks
import Imapcl.Receiver.Survival
import Imapcl.Receiver.Provenance
import Imapcl.Receiver.Account
import Imapcl.Session.Command
import Imapcl.Session.Basic
import Imapcl.Session.System
import Imapcl.Session.Terminal
import Imapcl.Session.Permitted
import Imapcl.Session.Logout
import Imapcl.Session.Reply
import Imapcl.Session.Schedule
import Imapcl.Session.Outcome
import Imapcl.Session.Conversation
import Imapcl.Session.Download
import Imapcl.Session.CommandLine
import Imapcl.Session.Mailbox
import Imapcl.Session.Login
import Imapcl.Session.Loop
import Imapcl.Session.Fetch
import Imapcl.Session.Selected
import Imapcl.Session.Tags
import Imapcl.Message.Date
import Imapcl.Message.Directory
import Imapcl.Message.FileName
import Imapcl.Server.Connect
import Imapcl.Server.TCPStream
import Imapcl.Client.Credentials
import Imapcl.Client.Basic
import Imapcl.Client.Dispatch
import Imapcl.Client.Machine
import Imapcl.Client.Quit
import Imapcl.Client.SequenceSets
import Imapcl.Client.Reports
import Imapcl.Client.SetUp
import Imapcl.Client.Exit
import Imapcl.Client.Arguments
import Imapcl.World.Basic
import Imapcl.World.Queue
import Imapcl.World.Saved
import Imapcl.World.Termination
import Imapcl.World.Sequential
import Imapcl.World.Download
import Imapcl.World.Commands
import Imapcl.World.Sent
import Imapcl.World.Requested
import Imapcl.World.Lifetime
import Imapcl.World.Shutdown
