import LexerGen.Main
import LexerGen.Nfa.Path
import LexerGen.Pattern.Grammar
import LexerGen.Proofs.Boundary
import LexerGen.Proofs.Dfa.Joined
import LexerGen.Proofs.Dfa.Nesting
import LexerGen.Proofs.Dfa.Representation
import LexerGen.Proofs.Lex
import LexerGen.Proofs.Munch
import LexerGen.Proofs.Pattern.Diagnosis
import LexerGen.Proofs.Pattern.Grammar
import LexerGen.Proofs.Prenex.Writable
import LexerGen.Regex.Forms
import LexerGen.Regex.Language
import LexerGen.Proofs.Prenex.Spelling
import LexerGen.Proofs.Prenex.Reading
import LexerGen.Proofs.Dfa.Dead
import LexerGen.Proofs.Dfa.Numbering
import LexerGen.Proofs.Definitions
import LexerGen.Proofs.Graph.Text
import LexerGen.Proofs.Pattern.Parenthesized
import LexerGen.Proofs.Graph.History
import LexerGen.Proofs.Graph.Automaton
import LexerGen.Proofs.Desugaring
import LexerGen.Proofs.Literal
import LexerGen.Proofs.Graph.Listing
import LexerGen.Proofs.CommandLine.Lossless
import LexerGen.Proofs.Nfa.Isolation
import LexerGen.Proofs.Pattern.Balance
import LexerGen.Proofs.CommandLine.Modes
import LexerGen.Proofs.Worklist
