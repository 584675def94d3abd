import SoreOS.ForStd.Mem
import SoreOS.ForStd.Except
import SoreOS.ForStd.Run
import SoreOS.ForStd.Layout
import SoreOS.ForStd.LittleEndian
import SoreOS.ForStd.Halves
import SoreOS.ForStd.Segments
import SoreOS.ForStd.Ledger
import SoreOS.ForStd.Halting
import SoreOS.ForStd.Pic
import SoreOS.Native.CString
import SoreOS.Native.Screen
import SoreOS.Native.IoBuffers
import SoreOS.Native.Keyboard
import SoreOS.Native.FAT32
import SoreOS.Native.MediaUtility
import SoreOS.Native.MediaMain
import SoreOS.Native.Drive
import SoreOS.Native.Identify
import SoreOS.Native.Filesys
import SoreOS.Native.StringCompare
import SoreOS.Native.Kernel
import SoreOS.Native.System
import SoreOS.Native.Interrupts
import SoreOS.Native.Loader
import SoreOS.Native.LoaderSearch
import SoreOS.Native.BootLoader
import SoreOS.Spec.ScreenInvariant
import SoreOS.Spec.ScreenHistory
import SoreOS.Spec.ScreenPaging
import SoreOS.Spec.ScreenAccess
import SoreOS.Spec.ScreenLog
import SoreOS.Spec.ScreenDisplay
import SoreOS.Spec.ScrollMoves
import SoreOS.Spec.InputQueue
import SoreOS.Spec.LineEditor
import SoreOS.Spec.LineEcho
import SoreOS.Spec.ScreenText
import SoreOS.Spec.HeaderFields
import SoreOS.Spec.Volume
import SoreOS.Spec.EmptyVolume
import SoreOS.Spec.BootImage
import SoreOS.Spec.DriveCorrect
import SoreOS.Spec.IdentifyWait
import SoreOS.Spec.Partition
import SoreOS.Spec.FreeClusters
import SoreOS.Spec.Handles
import SoreOS.Spec.BuildWrites
import SoreOS.Spec.MediaSessions
import SoreOS.Spec.SectorAddress
import SoreOS.Spec.Division
import SoreOS.Spec.LoaderAddress
import SoreOS.Spec.HeaderCopies
import SoreOS.Spec.LoaderRun
import SoreOS.Spec.FolderSearch
import SoreOS.Spec.BootSafety
import SoreOS.Spec.BootChain
import SoreOS.Spec.BootBuilt
import SoreOS.Spec.ScanFrame
import SoreOS.Spec.FatCache
import SoreOS.Spec.FreshWalk
import SoreOS.Spec.ReadFile
import SoreOS.Spec.EndMarks
import SoreOS.Spec.DirectoryScan
import SoreOS.Spec.DirectoryChain
import SoreOS.Spec.Names
import SoreOS.Spec.StringOrder
import SoreOS.Spec.ShortName
import SoreOS.Spec.Vfat
import SoreOS.Spec.ClusterScan
import SoreOS.Spec.LongNameStores
import SoreOS.Spec.Listing
import SoreOS.Spec.FindFile
import SoreOS.Spec.ReadErrors
import SoreOS.Spec.FilledFile
import SoreOS.Spec.ScanOutput
import SoreOS.Spec.ScanReplies
import SoreOS.Spec.FailedOpen
import SoreOS.Spec.KeyboardStores
import SoreOS.Spec.PathRuns
import SoreOS.Spec.WideNames
import SoreOS.Spec.Refill
import SoreOS.Spec.NeededReads
import SoreOS.Spec.NegativeSizes
import SoreOS.Spec.SystemPath
import SoreOS.Spec.DirectoryTree
import SoreOS.Spec.Shell
import SoreOS.Spec.ShellAnswers
import SoreOS.Spec.BuiltShell
import SoreOS.Spec.KernelRun
import SoreOS.Spec.InterruptLines
import SoreOS.Spec.Console
import SoreOS.Spec.SharedVolume
import SoreOS.Spec.RepeatedSearch
