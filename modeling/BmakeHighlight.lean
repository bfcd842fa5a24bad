import BmakeHighlight.Main
import BmakeHighlight.FileTree
import BmakeHighlight.Proofs.RenderingFidelity
import BmakeHighlight.Proofs.LineRendering
import BmakeHighlight.Proofs.WindowAgreement
import BmakeHighlight.Proofs.LineTerminators
import BmakeHighlight.Proofs.OpeningComment
import BmakeHighlight.Proofs.LineTiling
import BmakeHighlight.Proofs.LinePlaces
import BmakeHighlight.Proofs.QuotedText
import BmakeHighlight.Proofs.CommandOutcome
import BmakeHighlight.Proofs.ListingRecovery
import BmakeHighlight.Proofs.LineLookup
import BmakeHighlight.Proofs.CommentSpan
import BmakeHighlight.Proofs.ReferenceScan
import BmakeHighlight.Proofs.NumberWords
import BmakeHighlight.Proofs.KeywordOccurrences
import BmakeHighlight.Proofs.QuotePairs
import BmakeHighlight.Proofs.OperatorRuns
import BmakeHighlight.Proofs.SpanOverlap
import BmakeHighlight.Proofs.LayeringOrder
import BmakeHighlight.Proofs.Excerpt
import BmakeHighlight.Proofs.WindowChecks
import BmakeHighlight.Proofs.WindowForm
import BmakeHighlight.Proofs.FileExtension
import BmakeHighlight.Proofs.OutsideLines
import BmakeHighlight.Proofs.PassSequence
