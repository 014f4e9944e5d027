import ClassViewer.CommandLine.Program
import ClassViewer.Main
import ClassViewer.Proofs.ArchiveMember
import ClassViewer.Proofs.Convergence
import ClassViewer.Proofs.OutputGuard
import ClassViewer.Proofs.PrimaryFirst
import ClassViewer.Proofs.Lines.Placement
import ClassViewer.Proofs.Lines.Spacing
import ClassViewer.Proofs.Lines.Comments
import ClassViewer.Proofs.BlankLines
import ClassViewer.Proofs.Registry
import ClassViewer.Proofs.SharedStore
import ClassViewer.Proofs.Path
import ClassViewer.Proofs.Disk.Confined
import ClassViewer.Proofs.Scratch
import ClassViewer.Proofs.Disk.Place
import ClassViewer.Proofs.JarDownloads
import ClassViewer.Proofs.EngineOutcome
import ClassViewer.Proofs.Disk.Meanwhile
import ClassViewer.Proofs.Rows
import ClassViewer.Proofs.Preferences.Space
import ClassViewer.Proofs.Preferences.Codec
import ClassViewer.Proofs.Disk.Still
import ClassViewer.Proofs.Disk.Vacant
import ClassViewer.Proofs.Preferences.Seat
import ClassViewer.Proofs.EngineCalls
import ClassViewer.Proofs.Apart
import ClassViewer.Proofs.Preferences.Settings
import ClassViewer.Proofs.Preferences.History
import ClassViewer.Proofs.Diagnostics
import ClassViewer.Proofs.LoggedProblems
import ClassViewer.Proofs.ClassPaths
import ClassViewer.Proofs.PrintedLines
import ClassViewer.Proofs.Lines.Targets
import ClassViewer.Proofs.Lines.SecondPass
import ClassViewer.Proofs.ArchiveScope
import ClassViewer.Proofs.LoadableRuns
import ClassViewer.Proofs.Naming
import ClassViewer.Proofs.Disk.Passage
import ClassViewer.Proofs.Directory
import ClassViewer.Proofs.Disk.Direct
import ClassViewer.Proofs.Siblings
import ClassViewer.Proofs.ToolPaths
import ClassViewer.Proofs.Disk.Filled
import ClassViewer.Proofs.PrimaryBytes
import ClassViewer.Proofs.Location
import ClassViewer.Proofs.ImplicitSubcommand
import ClassViewer.Proofs.PathOrder
import ClassViewer.Proofs.ClassFiles
import ClassViewer.Proofs.ToolText
import ClassViewer.Proofs.Footers
import ClassViewer.Proofs.Lines.Histories
