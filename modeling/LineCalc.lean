import LineCalc.Main
import LineCalc.Preferences
import LineCalc.Service
import LineCalc.Proofs.Tally
import LineCalc.Proofs.Rearrangement
import LineCalc.Proofs.Recovery
import LineCalc.Proofs.Layout
import LineCalc.Proofs.History
import LineCalc.Proofs.Truncation
import LineCalc.Proofs.Classification
import LineCalc.Proofs.Wording
import LineCalc.Proofs.Legibility
import LineCalc.Proofs.Phases
import LineCalc.Proofs.Shortcut
import LineCalc.Proofs.Recursion
import LineCalc.Proofs.Joining
import LineCalc.Proofs.Renaming
import LineCalc.Proofs.Settlement
import LineCalc.Proofs.Reply
import LineCalc.Proofs.Placement
import LineCalc.Proofs.Invocation
import LineCalc.Proofs.Stopping
import LineCalc.Proofs.Faults
import LineCalc.Proofs.Ending
import LineCalc.Proofs.Continuation
import LineCalc.Proofs.Regrouping
import LineCalc.Proofs.Atomicity
import LineCalc.Proofs.Splitting
import LineCalc.Proofs.Division
import LineCalc.Proofs.Places
import LineCalc.Proofs.Halving
import LineCalc.Proofs.Reconstruction
import LineCalc.Proofs.Nesting
import LineCalc.Proofs.Verbosity
import LineCalc.Proofs.Definitions
import LineCalc.Proofs.Storage
