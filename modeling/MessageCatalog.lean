import MessageCatalog.FileTree
import MessageCatalog.Main
import MessageCatalog.Proofs.EventStream
import MessageCatalog.Proofs.PolicyAgreement
import MessageCatalog.Proofs.ReaderSteps
import MessageCatalog.Proofs.ElementForest
import MessageCatalog.Proofs.TagReading
import MessageCatalog.Proofs.ElementNesting
import MessageCatalog.Proofs.StructuralReading
import MessageCatalog.Proofs.ForestReader
import MessageCatalog.Proofs.CatalogOfForest
import MessageCatalog.Proofs.ElementRoles
import MessageCatalog.Proofs.EscapedText
import MessageCatalog.Proofs.IndexedLookup
import MessageCatalog.Proofs.LineNumberText
import MessageCatalog.Proofs.WrittenTags
import MessageCatalog.Proofs.WrittenMarkup
import MessageCatalog.Proofs.WrittenContent
import MessageCatalog.Proofs.WrittenLines
import MessageCatalog.Proofs.RoundTrip
import MessageCatalog.Proofs.ElementFaults
import MessageCatalog.Proofs.LenientFailure
import MessageCatalog.Proofs.FileTreeRuns
import MessageCatalog.Proofs.SurroundingDirectories
import MessageCatalog.Proofs.ConfigurationFile
import MessageCatalog.Proofs.CommandRuns
import MessageCatalog.Proofs.Rewriting
import MessageCatalog.Proofs.MarkupPrefix
import MessageCatalog.Proofs.StrayData
import MessageCatalog.Proofs.ElementReading
import MessageCatalog.Proofs.RepeatedParts
import MessageCatalog.Proofs.TruncatedDocument
import MessageCatalog.Proofs.TranslatorAnswers
import MessageCatalog.Proofs.Pruning
import MessageCatalog.Proofs.CleanReview
import MessageCatalog.Proofs.Seeding
import MessageCatalog.Proofs.TranslatorSetRuns
import MessageCatalog.Proofs.EntryOrder
import MessageCatalog.Proofs.Utf8Text
import MessageCatalog.Proofs.LoadedFiles
import MessageCatalog.Proofs.DirectoryLoading
import MessageCatalog.Proofs.CatalogJsonForms
import MessageCatalog.Proofs.PlaceMarkers
import MessageCatalog.Proofs.ReviewFindings
import MessageCatalog.Proofs.CursorRuns
import MessageCatalog.Proofs.ContentText
import MessageCatalog.Proofs.Insertions
import MessageCatalog.Proofs.CharacterEntities
import MessageCatalog.Proofs.TextSpelling
import MessageCatalog.Proofs.CompleteForms
import MessageCatalog.Proofs.SeedingAndPruning
import MessageCatalog.Proofs.ControlCharacters
import MessageCatalog.Proofs.WrittenInventory
import MessageCatalog.Proofs.LanguageMatching
import MessageCatalog.Proofs.CountSubstitution
import MessageCatalog.Proofs.Positions
import MessageCatalog.Proofs.WarningOrder
import MessageCatalog.Proofs.CheckedFiles
import MessageCatalog.Proofs.JsonNumberText
import MessageCatalog.Proofs.JsonPrinting
import MessageCatalog.Proofs.CountingAndSeeding
import MessageCatalog.Proofs.TextRuns
import MessageCatalog.Proofs.ElementCalls
import MessageCatalog.Proofs.EventRequests
import MessageCatalog.Proofs.ElementExtent
import MessageCatalog.Proofs.ReadingCount
