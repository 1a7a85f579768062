import DalvikLinkage.Bytes.Uleb128
import DalvikLinkage.Text.ModifiedUtf8
import DalvikLinkage.Symbol.AccessFlags
import DalvikLinkage.Body.MethodBody
import DalvikLinkage.Linkcheck
import DalvikLinkage.Main
import DalvikLinkage.Proofs.Body.ArenaViews
import DalvikLinkage.Proofs.Machine
import DalvikLinkage.Proofs.Body.Placement
import DalvikLinkage.Proofs.Body.Positions
import DalvikLinkage.Proofs.Body.Editing
import DalvikLinkage.Proofs.Body.Slots
import DalvikLinkage.Proofs.Body.SlotView
import DalvikLinkage.Proofs.Repository.MethodLookup
import DalvikLinkage.Proofs.Repository.FieldLookup
import DalvikLinkage.Proofs.ClassPath.Dependencies
import DalvikLinkage.Proofs.ClassPath.Failures
import DalvikLinkage.Proofs.ClassPath.Loading
import DalvikLinkage.Proofs.Container.Multidex
import DalvikLinkage.Proofs.Container.Lookup
import DalvikLinkage.Proofs.Bytes.Reading
import DalvikLinkage.Proofs.Bytes.Uleb128
import DalvikLinkage.Proofs.Image.ClassData
import DalvikLinkage.Proofs.Image.Records
import DalvikLinkage.Proofs.Image.Layout
import DalvikLinkage.Proofs.Container.OatStore
import DalvikLinkage.Proofs.Text.ModifiedUtf8
import DalvikLinkage.Proofs.Text.Utf8
import DalvikLinkage.Proofs.Container.OatData
import DalvikLinkage.Proofs.Container.OatImages
import DalvikLinkage.Proofs.Linkage.Missing
import DalvikLinkage.Proofs.Repository.Answers
import DalvikLinkage.Proofs.Repository.Contents
import DalvikLinkage.Proofs.Repository.Definitions
import DalvikLinkage.Proofs.Repository.Shadowing
import DalvikLinkage.Proofs.Body.TryRanges
import DalvikLinkage.Proofs.Bytes.Appending
import DalvikLinkage.Proofs.Image.Lookups
import DalvikLinkage.Proofs.Image.Appending
import DalvikLinkage.Proofs.Body.InPlace
import DalvikLinkage.Proofs.Body.Refusals
import DalvikLinkage.Proofs.Body.Walking
import DalvikLinkage.Proofs.Outcome
import DalvikLinkage.Proofs.Symbol.Descriptors
import DalvikLinkage.Proofs.Symbol.WrittenKeys
import DalvikLinkage.Proofs.Repository.Reordering
import DalvikLinkage.Proofs.Repository.InterfaceOrder
import DalvikLinkage.Proofs.Repository.Rejected
import DalvikLinkage.Proofs.Repository.SearchBounds
import DalvikLinkage.Proofs.Image.SkippedClassData
import DalvikLinkage.Proofs.Body.Reverting
import DalvikLinkage.Proofs.Body.Folding
import DalvikLinkage.Proofs.Body.Removing
import DalvikLinkage.Proofs.ClassPath.DeviceSearch
import DalvikLinkage.Proofs.ClassPath.StandIns
import DalvikLinkage.Proofs.Bytes.Digits
import DalvikLinkage.Proofs.Elf.Words
import DalvikLinkage.Proofs.Elf.Range
import DalvikLinkage.Proofs.Image.Strings
import DalvikLinkage.Proofs.Path
import DalvikLinkage.Proofs.ClassPath.EntryNames
import DalvikLinkage.Proofs.ClassPath.Siblings
