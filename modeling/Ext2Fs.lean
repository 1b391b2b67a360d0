import Ext2Fs.Reasoning.Exec
import Ext2Fs.Reasoning.Runs
import Ext2Fs.Reasoning.Store
import Ext2Fs.Reasoning.Bytes
import Ext2Fs.Reasoning.Bitmap
import Ext2Fs.Reasoning.Memory
import Ext2Fs.Reasoning.Segments
import Ext2Fs.Reasoning.Heap
import Ext2Fs.Reasoning.Compare
import Ext2Fs.Model.Types
import Ext2Fs.Model.Disk
import Ext2Fs.Model.Format
import Ext2Fs.Model.Mount
import Ext2Fs.Model.Alloc
import Ext2Fs.Model.Inode
import Ext2Fs.Model.Name
import Ext2Fs.Model.Directory
import Ext2Fs.Model.File
import Ext2Fs.Model.DiskSim
import Ext2Fs.Model.Shell
import Ext2Fs.Model.Ext2Shell
import Ext2Fs.Model.CommandLine
import Ext2Fs.Model.EntryList
import Ext2Fs.Model.Program
import Ext2Fs.Model.BlockDriver
import Ext2Fs.Spec.Bits
import Ext2Fs.Spec.Geometry
import Ext2Fs.Spec.Records
import Ext2Fs.Spec.Format
import Ext2Fs.Spec.CreateRoot
import Ext2Fs.Spec.Mount
import Ext2Fs.Spec.Alloc
import Ext2Fs.Spec.InodeTable
import Ext2Fs.Spec.Names
import Ext2Fs.Spec.NameGrammar
import Ext2Fs.Spec.BlockWalk
import Ext2Fs.Spec.Lookup
import Ext2Fs.Spec.RootDir
import Ext2Fs.Spec.Insert
import Ext2Fs.Spec.Make
import Ext2Fs.Spec.Live
import Ext2Fs.Spec.NewEntry
import Ext2Fs.Spec.Session
import Ext2Fs.Spec.AllocSteps
import Ext2Fs.Spec.DirWrites
import Ext2Fs.Spec.DiskSim
import Ext2Fs.Spec.FormatTrace
import Ext2Fs.Spec.FirstSector
import Ext2Fs.Spec.Client
import Ext2Fs.Properties.DescriptorTable
import Ext2Fs.Properties.GroupAddresses
import Ext2Fs.Properties.Accounting
import Ext2Fs.Properties.InodeTable
import Ext2Fs.Properties.NewDirectory
import Ext2Fs.Properties.CrossLinks
import Ext2Fs.Properties.DirectoryContents
import Ext2Fs.Properties.ErrorAtomicity
import Ext2Fs.Properties.FreshMount
import Ext2Fs.Properties.Totals
import Ext2Fs.Properties.BlockAllocator
import Ext2Fs.Properties.InodeAllocator
import Ext2Fs.Properties.InodeWrites
import Ext2Fs.Properties.GroupSearch
import Ext2Fs.Properties.Replicas
import Ext2Fs.Properties.MkdirCounters
import Ext2Fs.Properties.SectorArray
import Ext2Fs.Properties.FormatGeometry
import Ext2Fs.Properties.BlockMapping
import Ext2Fs.Properties.ShellPath
import Ext2Fs.Properties.ShellNames
import Ext2Fs.Properties.History
import Ext2Fs.Properties.NameGrammar
import Ext2Fs.Properties.NameBuffers
import Ext2Fs.Properties.DisplayedNames
import Ext2Fs.Properties.LookupContents
import Ext2Fs.Properties.ReadLoop
import Ext2Fs.Properties.WriteLoop
import Ext2Fs.Properties.NameComparison
import Ext2Fs.Properties.CommandLine
import Ext2Fs.Properties.EntryList
import Ext2Fs.Properties.DiskUsage
import Ext2Fs.Properties.FreeBits
import Ext2Fs.Properties.Remount
import Ext2Fs.Spec.Program
import Ext2Fs.Properties.ProgramRuns
import Ext2Fs.Properties.RootCapacity
import Ext2Fs.Properties.FileRoundTrip
import Ext2Fs.Properties.Confinement
import Ext2Fs.Properties.Reformat
import Ext2Fs.Properties.FileWrites
import Ext2Fs.Properties.DiskRefinement
import Ext2Fs.Properties.BlockDriver
import Ext2Fs.Spec.CommandWords
import Ext2Fs.Properties.Dumps
import Ext2Fs.Properties.LineOutcomes
import Ext2Fs.Spec.Volume
import Ext2Fs.Properties.VolumeRefinement
