import BlockFS.CommandLine.Command
import BlockFS.Host.Image
import BlockFS.Host.Tree
import BlockFS.Kernel.Server
import BlockFS.Main
import BlockFS.Prompt
import BlockFS.Session
import BlockFS.Proofs.DiskBlocks
import BlockFS.Proofs.Evaluation
import BlockFS.Proofs.Store
import BlockFS.Proofs.AllocationExact
import BlockFS.Proofs.DirectoryTree
import BlockFS.Proofs.FileContents
import BlockFS.Proofs.NameMaps
import BlockFS.Proofs.NamesExact
import BlockFS.Proofs.InterruptedRemoval
import BlockFS.Proofs.FailedMaking
import BlockFS.Proofs.FailedCalls
import BlockFS.Proofs.LeakedBlocks
import BlockFS.Proofs.ConfinedWrites
import BlockFS.Proofs.PackedFiles
import BlockFS.Proofs.LossyText
import BlockFS.Proofs.ListedNames
import BlockFS.Proofs.FileLives
import BlockFS.Proofs.OpenFiles
import BlockFS.Proofs.OpenHandles
import BlockFS.Proofs.Answers
import BlockFS.Proofs.Remounting
import BlockFS.Proofs.PagedListing
import BlockFS.Proofs.Keeping
import BlockFS.Proofs.MetadataBlocks
import BlockFS.Proofs.HostileImages
import BlockFS.Proofs.Machine
import BlockFS.Proofs.Machine.Records
import BlockFS.Proofs.Machine.Files
import BlockFS.Proofs.Machine.Directories
import BlockFS.Proofs.Machine.Tree
import BlockFS.Proofs.Machine.Sessions
import BlockFS.Proofs.Machine.Requests
import BlockFS.Proofs.Machine.Runs
import BlockFS.Proofs.Causes
import BlockFS.Proofs.CursorTables
import BlockFS.Proofs.Unmounted
import BlockFS.Proofs.FormatExact
import BlockFS.Proofs.FencedVolumes
import BlockFS.Proofs.ConservedBitmaps
import BlockFS.Proofs.AtomicRenames
import BlockFS.Proofs.RenamedPaths
import BlockFS.Proofs.Scene.Writing
import BlockFS.Proofs.WritesInPieces
import BlockFS.Proofs.LongestWrites
import BlockFS.Proofs.InodeTables
import BlockFS.Proofs.FirstFit
import BlockFS.Proofs.AppendedWrites
import BlockFS.Proofs.HeldDirectories
import BlockFS.Proofs.BitmapReports
import BlockFS.Proofs.ListingWalks
import BlockFS.Proofs.RemovedKinds
import BlockFS.Proofs.PackingOrder
import BlockFS.Proofs.SoundLayouts
import BlockFS.Proofs.Machine.Cursors
