import OstreeTar.Path
import OstreeTar.Tar
import OstreeTar.Export.Layout
import OstreeTar.Export.Writer
import OstreeTar.Export.Steps
import OstreeTar.Export.Checkout
import OstreeTar.Export.Collisions
import OstreeTar.Export.Formats
import OstreeTar.Export.Content
import OstreeTar.Export.Closure
import OstreeTar.Export.Objects
import OstreeTar.Export.PathFamilies
import OstreeTar.Export.Once
import OstreeTar.Export.Entries
import OstreeTar.Export.Termination
import OstreeTar.Export.Release
import OstreeTar.Import.FindLayer
import OstreeTar.Run
import OstreeTar.Import.Extraction
import OstreeTar.Import.Manifest
import OstreeTar.Import.Progress
import OstreeTar.Import.Release
