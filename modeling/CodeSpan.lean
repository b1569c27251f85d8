import CodeSpan.Dialect.Draft
import CodeSpan.Main
import CodeSpan.Pattern.Lemmas
import CodeSpan.Proofs.Extraction
import CodeSpan.Proofs.Ranking
import CodeSpan.Proofs.Reextraction
import CodeSpan.Proofs.BlankCode
import CodeSpan.Proofs.CommentChunk
import CodeSpan.Proofs.Resolution
import CodeSpan.Proofs.Insertion
import CodeSpan.Proofs.Nesting
import CodeSpan.Proofs.BraceProgram
import CodeSpan.Proofs.LeftContext
import CodeSpan.Proofs.Indentation
import CodeSpan.Proofs.KeywordLine
import CodeSpan.Proofs.KeywordProgram
import CodeSpan.Proofs.KeywordAside
import CodeSpan.Proofs.CommentAutomaton
import CodeSpan.Proofs.BraceOrder
import CodeSpan.Proofs.Hops
import CodeSpan.Proofs.LocateInsertion
import CodeSpan.Proofs.Locality
import CodeSpan.Proofs.Window
import CodeSpan.Proofs.QualifiedName
import CodeSpan.Proofs.ImplicitOpen
import CodeSpan.Proofs.LocatedText
import CodeSpan.Proofs.TrailingComment
import CodeSpan.Proofs.KeywordCount
import CodeSpan.Proofs.SearchMode
import CodeSpan.Proofs.FirstUse
import CodeSpan.Proofs.HintPlace
import CodeSpan.Proofs.ResolveOutcome
import CodeSpan.Proofs.AlignedCode
import CodeSpan.Proofs.CommandAgreement
import CodeSpan.Proofs.GlobBelow
import CodeSpan.Proofs.DisplayPath
import CodeSpan.Proofs.SpanBounds
import CodeSpan.Proofs.PromptReading
import CodeSpan.Proofs.HintSeparator
import CodeSpan.Proofs.DialectBuilding
import CodeSpan.Proofs.PreviewRows
import CodeSpan.Proofs.SplitJoin
