import NodeScript.Assembler
import NodeScript.Engine
import NodeScript.ValueWord
import NodeScript.Proofs.CursorLaw
import NodeScript.Proofs.OperandEncoding
import NodeScript.Proofs.OperandShape
import NodeScript.Proofs.CompleteExpression
import NodeScript.Proofs.ExpressionExtent
import NodeScript.Proofs.FramePosition
import NodeScript.Proofs.DepthCounter
import NodeScript.Proofs.HostOperation
import NodeScript.Proofs.NestingLimit
import NodeScript.Proofs.ExpressionTree
import NodeScript.Proofs.OpcodeMeaning
import NodeScript.Proofs.TreeEvaluation
import NodeScript.Proofs.FittingInteger
import NodeScript.Proofs.NormalizedValue
import NodeScript.Proofs.ValueWordCodec
import NodeScript.Proofs.ProcedureResult
import NodeScript.Proofs.NormalizedEvaluation
import NodeScript.Proofs.DrawlessExpression
import NodeScript.Proofs.ReadOnlyEvaluation
import NodeScript.Proofs.CheckedOperation
import NodeScript.Proofs.CheckedEvaluation
import NodeScript.Proofs.ImmediateRoundTrip
import NodeScript.Proofs.WordReading
import NodeScript.Proofs.FaultRecord
import NodeScript.Proofs.PacketPayload
import NodeScript.Proofs.CodeLocality
import NodeScript.Proofs.OperandEvaluation
import NodeScript.Proofs.GlobalsAndBindings
import NodeScript.Proofs.FiberCensus
import NodeScript.Proofs.FiberRuns
import NodeScript.Proofs.ImageTables
import NodeScript.Proofs.HandleChecks
import NodeScript.Proofs.ReproducibleRuns
import NodeScript.Proofs.BufferReading
import NodeScript.Proofs.TerminatedMatch
import NodeScript.Proofs.ImmediateLookup
import NodeScript.Proofs.IntegerDoubles
import NodeScript.Proofs.CorrectRounding
import NodeScript.Proofs.IntegralRounding
import NodeScript.Proofs.NumericOrder
import NodeScript.Proofs.IntegerArithmetic
import NodeScript.Proofs.ObjectQueries
import NodeScript.Proofs.RandomInteger
import NodeScript.Proofs.AbsoluteValue
import NodeScript.Proofs.OperandLength
