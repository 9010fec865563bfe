import RTLola.Ir.Basic
import RTLola.Ir.Layers
import RTLola.Schedule.Slots
import RTLola.Schedule.Condense
import RTLola.Schedule.Cycle
import RTLola.Schedule.From
import RTLola.Io.InputReader
import RTLola.Io.OutputHandler
import RTLola.Io.Progress
import RTLola.Storage.Value
import RTLola.Storage.Ops
import RTLola.Evaluator.Config
