import Hart.Bytes.Buffer
import Hart.Bytes.Number
import Hart.CommandLine.Arguments
import Hart.CommandLine.Files
import Hart.CommandLine.Journal
import Hart.CommandLine.Report
import Hart.CommandLine.Traced
import Hart.Elf.File
import Hart.Elf.Header
import Hart.Elf.Load
import Hart.Elf.NameTable
import Hart.Elf.SectionHeader
import Hart.Encoding.Decode
import Hart.Encoding.Opcode
import Hart.Encoding.Refinement
import Hart.Encoding.Word
import Hart.Image
import Hart.Instruction.Basic
import Hart.Instruction.Flags
import Hart.Instruction.Format
import Hart.Instruction.Operation
import Hart.Instruction.Text
import Hart.Listing
import Hart.LoadError
import Hart.Machine.Action
import Hart.Machine.Arithmetic
import Hart.Machine.Register
import Hart.Machine.State
import Hart.Machine.Step
import Hart.Machine.Trap
import Hart.Main
import Hart.Proofs.Acceptance
import Hart.Proofs.Accesses
import Hart.Proofs.Appending
import Hart.Proofs.Arithmetic
import Hart.Proofs.Assembler
import Hart.Proofs.Console
import Hart.Proofs.Counting
import Hart.Proofs.Decoding
import Hart.Proofs.Dependence
import Hart.Proofs.Effects
import Hart.Proofs.Enlarging
import Hart.Proofs.Execution
import Hart.Proofs.Fields
import Hart.Proofs.Footprint
import Hart.Proofs.GuardedAccesses
import Hart.Proofs.GuardedDecoding
import Hart.Proofs.GuardedExecution
import Hart.Proofs.GuardedFields
import Hart.Proofs.GuardedListing
import Hart.Proofs.Guards
import Hart.Proofs.Halting
import Hart.Proofs.Halves
import Hart.Proofs.History
import Hart.Proofs.Installed
import Hart.Proofs.Installing
import Hart.Proofs.Inverse
import Hart.Proofs.Lines
import Hart.Proofs.Listening
import Hart.Proofs.Loading
import Hart.Proofs.Numerals
import Hart.Proofs.Parcels
import Hart.Proofs.Persistence
import Hart.Proofs.Placement
import Hart.Proofs.ProgramCounter
import Hart.Proofs.Reference
import Hart.Proofs.Rendering
import Hart.Proofs.RoundTrip
import Hart.Proofs.Running
import Hart.Proofs.Spelling
import Hart.Proofs.Tables
import Hart.Proofs.Targets
import Hart.Proofs.Tracing
import Hart.Proofs.Traps
import Hart.Proofs.Verdict
import Hart.Proofs.View
import Hart.Proofs.Walk
import Hart.Proofs.WellFormed
import Hart.Proofs.Writer
import Hart.Proofs.ZeroRegister
import Hart.Simulator.Basic
import Hart.Simulator.Executed
import Hart.Simulator.Run
import Hart.Text.Digits
import Hart.Text.Quoted
import Hart.Text.Terminal
