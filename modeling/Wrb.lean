import Wrb.Contracts.Clarity
import Wrb.Contracts.Elements
import Wrb.Contracts.Viewports
import Wrb.Core.Globals
import Wrb.Lib.Channels
import Wrb.Lib.Cycles
import Wrb.Lib.Forest
import Wrb.Lib.Links
import Wrb.Lib.Loops
import Wrb.Lib.Overlay
import Wrb.Lib.Programs
import Wrb.Lib.Runs
import Wrb.Lib.Taken
import Wrb.Lib.TreeMap
import Wrb.Lib.Versions
import Wrb.Lib.Wire
import Wrb.Lib.WordWrap
import Wrb.Lib.Wrap
import Wrb.Net.Accepted
import Wrb.Net.Messages
import Wrb.Net.Relays
import Wrb.Net.Session
import Wrb.Net.Signed
import Wrb.Runner.Decoding
import Wrb.Runner.Error
import Wrb.Runner.Fallback
import Wrb.Runner.Reference
import Wrb.Runner.RoundTrip
import Wrb.Runner.Site
import Wrb.Runner.Zonefile
import Wrb.Storage.Acceptance
import Wrb.Storage.Authenticity
import Wrb.Storage.Basic
import Wrb.Storage.Capacity
import Wrb.Storage.Concurrent
import Wrb.Storage.Failures
import Wrb.Storage.Isolation
import Wrb.Storage.Mock
import Wrb.Storage.Reference
import Wrb.Storage.Reopen
import Wrb.Storage.Replica
import Wrb.Storage.Retries
import Wrb.Storage.Sharing
import Wrb.Storage.Slices
import Wrb.Storage.SlicesCodec
import Wrb.Storage.Superblock
import Wrb.Storage.SuperblockCodec
import Wrb.Storage.Wrbpod
import Wrb.Storage.WrbpodTraces
import Wrb.Tx.Auth
import Wrb.Tx.Basic
import Wrb.Tx.Codec
import Wrb.Tx.Commitment
import Wrb.Tx.Completed
import Wrb.Tx.Handoff
import Wrb.Tx.Reference
import Wrb.Tx.RoundTrip
import Wrb.Tx.Signer
import Wrb.Ui.CharBuff
import Wrb.Ui.Checkbox
import Wrb.Ui.Coherence
import Wrb.Ui.Compose
import Wrb.Ui.Corners
import Wrb.Ui.Custody
import Wrb.Ui.Events
import Wrb.Ui.Focus
import Wrb.Ui.Forms
import Wrb.Ui.Fresh
import Wrb.Ui.Front
import Wrb.Ui.GapBuffer
import Wrb.Ui.Ink
import Wrb.Ui.Layout
import Wrb.Ui.LineCount
import Wrb.Ui.Loading
import Wrb.Ui.MaxLen
import Wrb.Ui.Moves
import Wrb.Ui.Overwrite
import Wrb.Ui.PrintAt
import Wrb.Ui.PrintEnd
import Wrb.Ui.Printing
import Wrb.Ui.Readable
import Wrb.Ui.Redraw
import Wrb.Ui.Root
import Wrb.Ui.Scanline
import Wrb.Ui.SceneGraph
import Wrb.Ui.Scrolling
import Wrb.Ui.TextArea
import Wrb.Ui.TextLine
import Wrb.Ui.Value
import Wrb.Ui.Vertical
import Wrb.Ui.Viewport
import Wrb.Viewer.Basic
import Wrb.Viewer.Order
import Wrb.Viewer.Rest
import Wrb.Viewer.Shutdown
import Wrb.Viewer.Threads
import Wrb.Vm.AtBlock
import Wrb.Vm.Db
import Wrb.Vm.Kvstore
import Wrb.Vm.Layers
import Wrb.Vm.PlainMap
import Wrb.Vm.Sessions
import Wrb.Vm.Snapshots
import Wrb.Vm.Special
import Wrb.Vm.WriteBuffer
