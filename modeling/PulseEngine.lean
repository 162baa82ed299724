import PulseEngine.Asset.Handles
import PulseEngine.Asset.Required
import PulseEngine.Asset.Shutdown
import PulseEngine.Datatable.Lookup
import PulseEngine.Datatable.Deadlock
import PulseEngine.RenderGraph.Cull
import PulseEngine.RenderGraph.Dead
import PulseEngine.RenderGraph.Hazard
import PulseEngine.Application.Order
import PulseEngine.Application.PostBuild
import PulseEngine.Asset.Lifecycle
import PulseEngine.Tablegen.Capacity
import PulseEngine.Library.Search
import PulseEngine.Config.Balance
import PulseEngine.Prefab.Loads
import PulseEngine.Text.Lines
import PulseEngine.Graphics.Idle
import PulseEngine.Tablegen.Agreement
import PulseEngine.Graphics.Globals
import PulseEngine.Graphics.Transparent
import PulseEngine.Graphics.Stale
import PulseEngine.Font.AtlasTotal
import PulseEngine.Datalist.Serializer
import PulseEngine.Datalist.PathStack
import PulseEngine.Asset.Turns
import PulseEngine.Asset.Fairness
import PulseEngine.Asset.Issued
import PulseEngine.Asset.PathCache
import PulseEngine.Asset.Advance
import PulseEngine.Asset.Drain
import PulseEngine.Datalist.KeyValue
import PulseEngine.Datalist.RepeatedKeys
import PulseEngine.Graphics.SyncProtocol
import PulseEngine.Graphics.FramePhases
import PulseEngine.Graphics.FrameSync
import PulseEngine.Graphics.FrameRun
import PulseEngine.Graphics.UploadLoader
import PulseEngine.Graphics.GpuObjects
import PulseEngine.Asset.Unheld
import PulseEngine.Graphics.Composite
import PulseEngine.Library.Batch
import PulseEngine.RenderGraph.Batches
import PulseEngine.Datatable.Register
import PulseEngine.Datatable.RowLayout
import PulseEngine.Datatable.Strings
import PulseEngine.Datatable.Resolve
import PulseEngine.Datalist.Lexer
import PulseEngine.Datalist.Scalar
import PulseEngine.Datalist.Integers
import PulseEngine.Library.Reading
import PulseEngine.Datalist.Escapes
import PulseEngine.Datalist.Quote
import PulseEngine.Application.Failures
import PulseEngine.Application.Cycle
import PulseEngine.Library.Descent
import PulseEngine.Prefab.Bases
import PulseEngine.Library.Schedule
import PulseEngine.PackageLoader.LoadOrder
import PulseEngine.PackageLoader.Mounts
import PulseEngine.Library.RoundUp
import PulseEngine.Library.Splice
import PulseEngine.Library.Growing
import PulseEngine.Library.Refinement
import PulseEngine.RenderGraph.Handles
import PulseEngine.RenderGraph.Upload
import PulseEngine.RenderGraph.Transfer
import PulseEngine.RenderGraph.Memory
import PulseEngine.RenderGraph.Moves
import PulseEngine.RenderGraph.Denoted
import PulseEngine.Text.Overflow
import PulseEngine.Text.Layout
import PulseEngine.Text.Segments
import PulseEngine.Text.Characters
import PulseEngine.Library.Envelope
import PulseEngine.Library.LowerBound
import PulseEngine.Font.Distance
import PulseEngine.Font.DistanceGrid
import PulseEngine.Font.BitmapText
import PulseEngine.Font.Bitmap
import PulseEngine.Font.BitmapGlyphs
import PulseEngine.Font.BitmapPage
import PulseEngine.Font.Generation
import PulseEngine.Font.GenerationRuns
import PulseEngine.Font.Token
import PulseEngine.Text.Extract
import PulseEngine.Text.Fresh
import PulseEngine.Text.Drawn
import PulseEngine.Library.KeyedTree
import PulseEngine.Config.Trees
import PulseEngine.Config.Merge
import PulseEngine.Library.Keeping
import PulseEngine.Library.Population
import PulseEngine.Prefab.Cleanup
import PulseEngine.Prefab.Restored
import PulseEngine.Library.ByteRange
import PulseEngine.Library.Interning
import PulseEngine.Library.Positions
import PulseEngine.Library.Writes
import PulseEngine.Loader.ShaderProperties
import PulseEngine.Loader.MaterialColumns
import PulseEngine.Loader.MeshImport
import PulseEngine.Loader.SettingsCopy
import PulseEngine.Loader.SettingsPlaced
import PulseEngine.Loader.SettingsRight
import PulseEngine.Renderer.UboBlocks
import PulseEngine.Renderer.UboSafe
import PulseEngine.Renderer.FeatureColumns
import PulseEngine.Renderer.FeatureColumnsOwn
import PulseEngine.Renderer.UniformWrites
import PulseEngine.Renderer.UniformData
import PulseEngine.Graphics.UploadRecord
import PulseEngine.Graphics.KtxStaging
import PulseEngine.Prefab.Instantiate
import PulseEngine.Datalist.Tokens
import PulseEngine.Input.State
import PulseEngine.Transform.Propagate
import PulseEngine.Asset.Registry
import PulseEngine.Datatable.FindRow
import PulseEngine.Loader.MaterialValues
import PulseEngine.Config.Read
