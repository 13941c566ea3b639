import Respell.Main
import Respell.Proofs.StrictRendering
import Respell.Syntax.Encoding
import Respell.Token.Operator
import Respell.Proofs.Accounting
import Respell.Proofs.Parametricity
import Respell.Proofs.Grouping
import Respell.Proofs.UniqueReading
import Respell.Proofs.PackageRendering
import Respell.Proofs.Cut.Token
import Respell.Proofs.Cut.Layout
import Respell.Proofs.Cut.Lexeme
import Respell.Proofs.Cut.Run
import Respell.Proofs.Cut.Strings
import Respell.Proofs.Isolation
import Respell.Proofs.Reparsing
import Respell.Proofs.Extracted
import Respell.Proofs.Digits
import Respell.Proofs.OrderIndependence
import Respell.Proofs.Encoding
import Respell.Proofs.Path
import Respell.Proofs.Discovery
import Respell.Proofs.ModuleCount
import Respell.Proofs.CommandAgreement
import Respell.Proofs.PackageGate
import Respell.Proofs.Monotonicity
import Respell.Proofs.Pruning
import Respell.Proofs.Compositionality
import Respell.Proofs.Collecting
import Respell.Proofs.LineStructure
import Respell.Proofs.ModuleExtraction
import Respell.Proofs.PackageExtraction
import Respell.Proofs.Parts
import Respell.Proofs.SoundTrees
import Respell.Proofs.SoundStatements
import Respell.Proofs.WellFormed
import Respell.Proofs.ReadingFaults
import Respell.Proofs.CommentTransparency
import Respell.Proofs.TableLoading
import Respell.Proofs.JsonLoading
import Respell.Proofs.Quoting
import Respell.Proofs.JsonText
import Respell.Proofs.TomlText
import Respell.Proofs.YamlScanning
import Respell.Proofs.YamlText
import Respell.Proofs.TableRoundtrip
import Respell.Proofs.ShortCircuit
import Respell.Proofs.LoneAtom
import Respell.Proofs.Escapes
import Respell.Proofs.IntegerLiterals
import Respell.Proofs.StringBodies
import Respell.Proofs.StringLiterals
import Respell.Proofs.Rounding
import Respell.Proofs.ShortestDecimal
import Respell.Proofs.FloatTexts
import Respell.Proofs.FloatLiterals
import Respell.Proofs.DiscoveredEntries
import Respell.Proofs.ModuleOrder
import Respell.Proofs.PairLoading
import Respell.Proofs.OperatorTags
