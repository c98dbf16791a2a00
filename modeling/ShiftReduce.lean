import ShiftReduce.Main
import ShiftReduce.Proofs.Calculator.Accounting
import ShiftReduce.Proofs.Calculator.Annotations
import ShiftReduce.Proofs.Calculator.Assignments
import ShiftReduce.Proofs.Calculator.Balance
import ShiftReduce.Proofs.Calculator.Budget
import ShiftReduce.Proofs.Calculator.Correctness
import ShiftReduce.Proofs.Calculator.Diagnosis
import ShiftReduce.Proofs.Calculator.Earliest
import ShiftReduce.Proofs.Calculator.Isolation
import ShiftReduce.Proofs.Calculator.Language
import ShiftReduce.Proofs.Calculator.Layout
import ShiftReduce.Proofs.Calculator.Munch
import ShiftReduce.Proofs.Calculator.Nesting
import ShiftReduce.Proofs.Calculator.Outcomes
import ShiftReduce.Proofs.Calculator.Safety
import ShiftReduce.Proofs.Calculator.Scanning
import ShiftReduce.Proofs.Machine.DepthLimit
import ShiftReduce.Proofs.Machine.Diagnostics
import ShiftReduce.Proofs.Machine.Discipline
import ShiftReduce.Proofs.Machine.Fresh
import ShiftReduce.Proofs.Machine.Headway
import ShiftReduce.Proofs.Machine.Locations
import ShiftReduce.Proofs.Machine.Recovery
import ShiftReduce.Proofs.Machine.Tokens
import ShiftReduce.Proofs.Machine.Wording
import ShiftReduce.Proofs.Stack
import ShiftReduce.Proofs.Tables.Description
import ShiftReduce.Proofs.Tables.Listing
import ShiftReduce.Proofs.Tables.Validation
import ShiftReduce.Script
