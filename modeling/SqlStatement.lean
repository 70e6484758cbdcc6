import SqlStatement.Pool.Clean
import SqlStatement.Pool.Lease
import SqlStatement.Session
import SqlStatement.Proofs.AliasFreshness
import SqlStatement.Proofs.ContextAccounting
import SqlStatement.Proofs.Frame
import SqlStatement.Proofs.LeaseIsolation
import SqlStatement.Proofs.Placeholders
import SqlStatement.Proofs.SelectDefects
import SqlStatement.Proofs.SessionHistory
import SqlStatement.Proofs.ValueIndependence
import SqlStatement.Proofs.WhereReading
import SqlStatement.Proofs.JoinPruning
import SqlStatement.Proofs.AlikeNamings
import SqlStatement.Proofs.DeclarationOrder
import SqlStatement.Proofs.AliasUniqueness
import SqlStatement.Proofs.TiedJoins
import SqlStatement.Proofs.IntroductionOrder
import SqlStatement.Proofs.UnionComposition
import SqlStatement.Proofs.DebugRendering
import SqlStatement.Proofs.JoinCycles
import SqlStatement.Proofs.WhereRendering
import SqlStatement.Proofs.BaseAlias
import SqlStatement.Proofs.OperatorLanguage
import SqlStatement.Proofs.NullTests
import SqlStatement.Proofs.FieldOrder
import SqlStatement.Proofs.Upserts
import SqlStatement.Proofs.Constants
import SqlStatement.Proofs.Respelling
import SqlStatement.Proofs.SelectFieldText
import SqlStatement.Proofs.UpdateLines
import SqlStatement.Proofs.SelectLines
import SqlStatement.Proofs.MemberTails
import SqlStatement.Proofs.EmittedJoins
