import DialogueScript.CommandLine.Run
import DialogueScript.Main
import DialogueScript.Proofs.CommandLine.Run
import DialogueScript.Proofs.Compile.Accounting
import DialogueScript.Proofs.Compile.Concatenation
import DialogueScript.Proofs.Compile.Formatting
import DialogueScript.Proofs.Compile.Forms
import DialogueScript.Proofs.Compile.LineEndings
import DialogueScript.Proofs.Compile.Replacement
import DialogueScript.Proofs.Compile.Undecodable
import DialogueScript.Proofs.Diagnostics.Readers
import DialogueScript.Proofs.Diagnostics.Runs
import DialogueScript.Proofs.Script.Lenience
import DialogueScript.Proofs.Script.Listing
import DialogueScript.Proofs.Script.Lookup
import DialogueScript.Proofs.Script.Ron
import DialogueScript.Proofs.Script.Validation
import DialogueScript.Proofs.Syntax.Concatenation
import DialogueScript.Proofs.Syntax.Spans
import DialogueScript.Proofs.Syntax.SyntaxErrors
import DialogueScript.Proofs.Syntax.Unambiguity
import DialogueScript.Syntax.Query
