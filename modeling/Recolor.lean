import Recolor.Main
import Recolor.Mosaic.Record
import Recolor.Proofs.Chain.Canonical
import Recolor.Proofs.Json.Distinct
import Recolor.Proofs.Mosaic.Restoration
import Recolor.Proofs.Mosaic.TileChain
import Recolor.Proofs.Settings.Merging
import Recolor.Proofs.Item.Layers
import Recolor.Proofs.FileTree.Store
import Recolor.Proofs.Item.Usable
import Recolor.Proofs.Run.Ending
import Recolor.Proofs.Run.Stages
import Recolor.Proofs.Run.Outcome
import Recolor.Proofs.Run.ValidSettings
import Recolor.Proofs.Canvas.Decomposition
import Recolor.Proofs.Item.Cropping
import Recolor.Proofs.Canvas.Clearing
import Recolor.Proofs.Run.Single
import Recolor.Proofs.Chain.Grammar
import Recolor.Proofs.Mosaic.Replacing
import Recolor.Proofs.Json.Compact
import Recolor.Proofs.Json.Texts
import Recolor.Proofs.Item.Stripping
import Recolor.Proofs.Item.SpawnLine
import Recolor.Proofs.Text.Trimming
import Recolor.Proofs.Color.Reading
import Recolor.Proofs.Attempt.Each
import Recolor.Proofs.Chain.Cells
import Recolor.Proofs.Chain.Faults
import Recolor.Proofs.Settings.IgnoredColor
import Recolor.Proofs.Mosaic.LastEntry
import Recolor.Proofs.Item.Containers
import Recolor.Proofs.Item.Stamping
import Recolor.Proofs.Item.Rerendering
import Recolor.Proofs.Mosaic.Words
import Recolor.Proofs.Mosaic.Rendering
import Recolor.Proofs.Canvas.Placement
import Recolor.Proofs.Path.Ancestors
import Recolor.Proofs.Settings.Nearest
import Recolor.Proofs.Json.Records
import Recolor.Proofs.Item.Offsets
import Recolor.Proofs.Path.Name
import Recolor.Proofs.Path.Preview
import Recolor.Proofs.CommandLine.Input
import Recolor.Proofs.FileTree.Confined
import Recolor.Proofs.Run.Preview
