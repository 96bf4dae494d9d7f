import LavaTunnel.Main
import LavaTunnel.Correctness.MapIndex
import LavaTunnel.Correctness.Cuboid
import LavaTunnel.Correctness.ServerRelay
import LavaTunnel.Correctness.ClientRelay
import LavaTunnel.Correctness.SplitFree
import LavaTunnel.Correctness.Mirror
import LavaTunnel.Correctness.Placement
import LavaTunnel.Correctness.Cancel
import LavaTunnel.Correctness.Hide
import LavaTunnel.Correctness.Threads
import LavaTunnel.Correctness.Width
import LavaTunnel.Correctness.Broken
import LavaTunnel.Correctness.Text
import LavaTunnel.Correctness.FastMap
import LavaTunnel.Correctness.Chat
import LavaTunnel.Correctness.Position
import LavaTunnel.Correctness.Hidden
import LavaTunnel.Correctness.Hacks
import LavaTunnel.Correctness.Chunk
import LavaTunnel.Correctness.Isolation
import LavaTunnel.Correctness.Records
import LavaTunnel.Correctness.Transfer
import LavaTunnel.Correctness.Parse
import LavaTunnel.Correctness.Info
import LavaTunnel.Correctness.Access
import LavaTunnel.Correctness.Login
import LavaTunnel.Correctness.MapBounds
import LavaTunnel.Correctness.Finalize
import LavaTunnel.Correctness.Pieces
import LavaTunnel.Correctness.Strings
import LavaTunnel.Correctness.Refusals
import LavaTunnel.Correctness.Presence
import LavaTunnel.Correctness.Following
import LavaTunnel.Correctness.Revert
import LavaTunnel.Correctness.Termination
import LavaTunnel.Correctness.Halt
import LavaTunnel.Correctness.Sizing
import LavaTunnel.Correctness.Malformed
import LavaTunnel.Correctness.Extensions
import LavaTunnel.Correctness.Gimps
import LavaTunnel.Correctness.Lists
import LavaTunnel.Correctness.Formats
import LavaTunnel.Correctness.Http
import LavaTunnel.Correctness.Api
import LavaTunnel.Correctness.Padding
import LavaTunnel.Correctness.Wrappers
import LavaTunnel.Correctness.Form
import LavaTunnel.Wire.Framed
import LavaTunnel.Wire.Calls
import LavaTunnel.Wire.Solo
import LavaTunnel.StartUp
import LavaTunnel.Correctness.Frames
import LavaTunnel.Correctness.RoundFrames
import LavaTunnel.Correctness.Activity
import LavaTunnel.Correctness.Masks
import LavaTunnel.Correctness.Clicks
import LavaTunnel.Correctness.Substreams
import LavaTunnel.Correctness.Calls
import LavaTunnel.Correctness.Negotiation
import LavaTunnel.Correctness.Session
import LavaTunnel.Correctness.Disk
import LavaTunnel.Correctness.Console
import LavaTunnel.Correctness.Duplex
import LavaTunnel.Correctness.Building
import LavaTunnel.Correctness.SignIn
import LavaTunnel.Correctness.Restarts
