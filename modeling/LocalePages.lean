import LocalePages.Main
import LocalePages.Shell.Program
import LocalePages.Shell.Command
import LocalePages.Command.Session
import LocalePages.Run.Compilation
import LocalePages.Run.Extraction
import LocalePages.Page.Synthesis
import LocalePages.Project.CatalogModule
import LocalePages.Tool.Search
import LocalePages.Project.Initial
import LocalePages.Project.Files
import LocalePages.Project.Modules
import LocalePages.Project.Root
import LocalePages.Disk.Changes
import LocalePages.Glob.Expand
import LocalePages.Tool.Call
import LocalePages.Catalog.CallSheet
import LocalePages.Catalog.MessageMap
import LocalePages.Page.Selection
import LocalePages.Page.Localization
import LocalePages.Proofs.SecondPass
import LocalePages.Proofs.SheetReading
import LocalePages.Proofs.CachedCatalogs
import LocalePages.Proofs.LocaleOrder
import LocalePages.Proofs.StringSets
import LocalePages.Proofs.TranslatedPage
import LocalePages.Proofs.Writing
import LocalePages.Proofs.AuthoredPages
import LocalePages.Proofs.Modes
import LocalePages.Proofs.Repetition
import LocalePages.Proofs.Regeneration
import LocalePages.Proofs.CherryPicking
import LocalePages.Proofs.MessageMaps
import LocalePages.Proofs.WrittenCatalogs
import LocalePages.Proofs.OwnCatalogs
import LocalePages.Proofs.ModuleOrder
import LocalePages.Proofs.Copies
import LocalePages.Proofs.BadPages
import LocalePages.Proofs.LocalizedTags
import LocalePages.Proofs.TemplateContents
import LocalePages.Proofs.DistinctCalls
import LocalePages.Proofs.WrittenJson
import LocalePages.Proofs.PluralMessages
import LocalePages.Proofs.MapContents
import LocalePages.Proofs.BuiltPages
import LocalePages.Proofs.ShortenedPaths
import LocalePages.Proofs.CheckedConfigs
import LocalePages.Proofs.TagForms
import LocalePages.Proofs.HeldProjects
import LocalePages.Proofs.LocaleGrammar
import LocalePages.Proofs.CanonicalNames
import LocalePages.Proofs.LocaleChoices
import LocalePages.Proofs.VariantPaths
import LocalePages.Proofs.FirstFaults
import LocalePages.Proofs.ModuleSetup
import LocalePages.Proofs.CollectedSources
import LocalePages.Proofs.FoundFiles
import LocalePages.Proofs.Literals
import LocalePages.Proofs.Owners
import LocalePages.Proofs.ProjectRoots
import LocalePages.Proofs.InlinedContents
import LocalePages.Proofs.CanonicalTexts
