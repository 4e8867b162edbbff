import Abacus.Main
import Abacus.Proofs.Derivation
import Abacus.Proofs.TokenStream
import Abacus.Proofs.Reading
import Abacus.Proofs.Conservation
import Abacus.Proofs.Automaton
import Abacus.Proofs.Sentence
import Abacus.Proofs.Language
import Abacus.Proofs.Precedence
import Abacus.Proofs.EarliestFault
import Abacus.Proofs.Spelling
import Abacus.Proofs.Decomposition
import Abacus.Proofs.Serving
import Abacus.Proofs.Rescanning
import Abacus.Proofs.Transcript
import Abacus.Proofs.Substitution
import Abacus.Proofs.Embedding
import Abacus.Proofs.Groups
import Abacus.Proofs.Nearest
import Abacus.Proofs.PrintedValues
import Abacus.Proofs.Relabelling
import Abacus.Proofs.Invocation
import Abacus.Proofs.LineFeed
import Abacus.Proofs.BoundedOutput
import Abacus.Proofs.Listening
import Abacus.Proofs.Cursor
import Abacus.Proofs.NearestValue
import Abacus.Proofs.Blanks
import Abacus.Proofs.Margins
import Abacus.Proofs.RoundedText
import Abacus.Proofs.Records
import Abacus.Proofs.ScanBounds
import Abacus.Proofs.ShownTokens
import Abacus.Proofs.Messages
