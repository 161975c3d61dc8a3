import PluginKit.Text.Blank
import PluginKit.Text.Quoted
import PluginKit.Path
import PluginKit.Wire.Key
import PluginKit.Wire.KeyMap
import PluginKit.Wire.Schema
import PluginKit.Wire.Contracts
import PluginKit.Wire.Reader
import PluginKit.FileSystem.Listing
import PluginKit.FileSystem.Operations
import PluginKit.Socket
import PluginKit.Lifecycle.Serving
import PluginKit.Plugin.Handshake
import PluginKit.Lifecycle.Supervision
import PluginKit.Lifecycle.Schedule
import PluginKit.Command.Info
import PluginKit.Command.Serve
import PluginKit.Logging
import PluginKit.Main
import PluginKit.Config.File
import PluginKit.CommandLine.Help
import PluginKit.CommandLine.Parse
import PluginKit.Proofs.Lifecycle.Interleaving
import PluginKit.Proofs.Lifecycle.Section
import PluginKit.Proofs.Lifecycle.Step
import PluginKit.Proofs.Lifecycle.Turn
import PluginKit.Proofs.Lifecycle.Order
import PluginKit.Proofs.Lifecycle.Loops
import PluginKit.Proofs.Lifecycle.Queue
import PluginKit.Proofs.Lifecycle.Sound
import PluginKit.Proofs.Lifecycle.Rest
import PluginKit.Proofs.Lifecycle.Discipline
import PluginKit.Proofs.Lifecycle.LeftRunning
import PluginKit.Proofs.Socket
import PluginKit.Proofs.Lifecycle.Coherence
import PluginKit.Proofs.FileSystem.Following
import PluginKit.Proofs.FileSystem.Growth
import PluginKit.Proofs.Socket.Removal
import PluginKit.Proofs.Socket.Binding
import PluginKit.Proofs.Lifecycle.AllOrNone
import PluginKit.Proofs.Lifecycle.Restart
import PluginKit.Proofs.Lifecycle.Alarm
import PluginKit.Proofs.Lifecycle.CrashWindow
import PluginKit.Proofs.Lifecycle.Serving
import PluginKit.Proofs.FileSystem.Directory
import PluginKit.Proofs.Socket.Rebinding
import PluginKit.Proofs.Lifecycle.Alone
import PluginKit.Proofs.Lifecycle.Retry
import PluginKit.Proofs.Reporter.Delivery
import PluginKit.Proofs.Reporter.Accounting
import PluginKit.Proofs.Wire.Feeding
import PluginKit.Proofs.Wire.Combination
import PluginKit.Proofs.Wire.Encoding
import PluginKit.Proofs.Wire.Merging
import PluginKit.Proofs.Wire.RoundTrip
import PluginKit.Proofs.Wire.Locality
import PluginKit.Proofs.Wire.Padding
import PluginKit.Proofs.Wire.UnknownFields
import PluginKit.Proofs.Lifecycle.Progress
import PluginKit.Proofs.Lifecycle.Departure
import PluginKit.Proofs.Lifecycle.Leftover
import PluginKit.Proofs.Lifecycle.LastStop
import PluginKit.Proofs.Lifecycle.Signals
import PluginKit.Proofs.FileSystem.Tree
import PluginKit.Proofs.FileSystem.Making
import PluginKit.Proofs.FileSystem.Ways
import PluginKit.Proofs.Socket.Placing
import PluginKit.Proofs.Socket.Aliases
import PluginKit.Proofs.Socket.Failing
import PluginKit.Proofs.Socket.Repeating
import PluginKit.Proofs.Socket.Clearing
import PluginKit.Proofs.Components
import PluginKit.Proofs.Socket.Registration
import PluginKit.Proofs.CommandLine.Occurrence
import PluginKit.Proofs.CommandLine.Gathering
import PluginKit.Proofs.CommandLine.Rendering
import PluginKit.Proofs.Config.Rendering
import PluginKit.Proofs.Lifecycle.Overflow
import PluginKit.Proofs.Logging
