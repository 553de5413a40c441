import RecordQuery.Limits.Text
import RecordQuery.Query.Text
import RecordQuery.Session
import RecordQuery.Proofs.Assertions
import RecordQuery.Proofs.PlainReading
import RecordQuery.Proofs.Sentence.Predicates
import RecordQuery.Proofs.ValueOrder
import RecordQuery.Proofs.Emptiness
import RecordQuery.Proofs.FirstFault
import RecordQuery.Proofs.Twins
import RecordQuery.Proofs.Answers
import RecordQuery.Proofs.Sessions
import RecordQuery.Proofs.Precedence
import RecordQuery.Proofs.Telling
import RecordQuery.Proofs.Cutting
import RecordQuery.Proofs.Requests
import RecordQuery.Proofs.Combining
import RecordQuery.Proofs.Structure
import RecordQuery.Proofs.Union
import RecordQuery.Proofs.KeyOrder
import RecordQuery.Proofs.Stability
import RecordQuery.Proofs.Arrangements
import RecordQuery.Proofs.PathScanning
import RecordQuery.Proofs.PathRendering
import RecordQuery.Proofs.PathComposition
import RecordQuery.Proofs.OrderingClause
import RecordQuery.Proofs.Verdicts
import RecordQuery.Proofs.ParameterOrder
import RecordQuery.Proofs.Timestamps
import RecordQuery.Proofs.Wrapping
import RecordQuery.Proofs.Loosening
import RecordQuery.Proofs.Placeholders
import RecordQuery.Proofs.Spellings
import RecordQuery.Proofs.LimitTexts
import RecordQuery.Proofs.Reports
import RecordQuery.Proofs.Relocation
