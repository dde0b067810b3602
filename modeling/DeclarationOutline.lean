import DeclarationOutline.Main
import DeclarationOutline.Proofs.HeaderClosing
import DeclarationOutline.Proofs.ScanPlaces
import DeclarationOutline.Proofs.HeaderPlaces
import DeclarationOutline.Proofs.FunctionScan
import DeclarationOutline.Proofs.TestcaseScan
import DeclarationOutline.Proofs.DocumentOrder
import DeclarationOutline.Proofs.LineEndings
import DeclarationOutline.Proofs.JsonReport
import DeclarationOutline.Proofs.YamlReport
import DeclarationOutline.Proofs.WildcardLanguage
import DeclarationOutline.Proofs.TreePaths
import DeclarationOutline.Proofs.Discovery
import DeclarationOutline.Proofs.EntryLocations
import DeclarationOutline.Proofs.PanelSessions
import DeclarationOutline.Proofs.PathPieces
import DeclarationOutline.Proofs.DiskWalks
import DeclarationOutline.Proofs.DiskChanges
import DeclarationOutline.Proofs.MadeDirectories
import DeclarationOutline.Proofs.LastingFacts
import DeclarationOutline.Proofs.ShownPaths
import DeclarationOutline.Proofs.TreeReading
import DeclarationOutline.Proofs.StoredPreference
import DeclarationOutline.Proofs.PreferenceHistory
import DeclarationOutline.Proofs.DefaultRun
import DeclarationOutline.Proofs.NameMatching
import DeclarationOutline.Proofs.ControlStatements
import DeclarationOutline.Proofs.ArgumentGrammar
import DeclarationOutline.Proofs.FileContents
import DeclarationOutline.Proofs.PresentationOptions
import DeclarationOutline.Proofs.AlphabeticalOrder
import DeclarationOutline.Proofs.ParameterTypes
import DeclarationOutline.Proofs.LabelReading
import DeclarationOutline.Proofs.SurveyOrder
import DeclarationOutline.Proofs.RelativePaths
import DeclarationOutline.Proofs.Utf8Boundaries
import DeclarationOutline.Proofs.WildcardCharacters
import DeclarationOutline.Proofs.CoreSchema
import DeclarationOutline.Proofs.TypedFields
import DeclarationOutline.Proofs.RepeatedSorting
import DeclarationOutline.Proofs.CaseTieBreaks
import DeclarationOutline.Proofs.HeldPreference
import DeclarationOutline.Proofs.LossyDecoding
import DeclarationOutline.Proofs.LinePositions
import DeclarationOutline.Proofs.DocumentReading
