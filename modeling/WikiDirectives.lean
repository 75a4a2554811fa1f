import WikiDirectives.CommandLine.Report
import WikiDirectives.Main
import WikiDirectives.Proofs.BuiltinCalls
import WikiDirectives.Proofs.Numerals
import WikiDirectives.Proofs.LegalDepths
import WikiDirectives.Proofs.Tokens
import WikiDirectives.Proofs.Inlining
import WikiDirectives.Proofs.Detection
import WikiDirectives.Proofs.WrittenArguments
import WikiDirectives.Proofs.Segmentation
import WikiDirectives.Proofs.LineEndings
import WikiDirectives.Proofs.Resolution
import WikiDirectives.Proofs.SinglePass
import WikiDirectives.Proofs.ArticleMarkup
import WikiDirectives.Proofs.DirectiveNames
import WikiDirectives.Proofs.SettingsSearch
import WikiDirectives.Proofs.SettingsFile
import WikiDirectives.Proofs.FailedRuns
import WikiDirectives.Proofs.SharedStash
import WikiDirectives.Proofs.PagePaths
import WikiDirectives.Proofs.PageListing
import WikiDirectives.Proofs.AllowedNames
import WikiDirectives.Proofs.RepeatedExpansion
import WikiDirectives.Proofs.LoadedSettings
import WikiDirectives.Proofs.RegistrationHistory
import WikiDirectives.Proofs.NameOrder
import WikiDirectives.Proofs.HelpListing
import WikiDirectives.Proofs.DetectedFragments
import WikiDirectives.Proofs.Pruning
import WikiDirectives.Proofs.PageHierarchy
import WikiDirectives.Proofs.SettingsOrigin
