import Spreadsheet.Address.Zone
import Spreadsheet.Address.Coordinate
import Spreadsheet.Coercion
import Spreadsheet.NumberFormat
import Spreadsheet.Reference.Text
import Spreadsheet.Formula.Lexer
import Spreadsheet.Formula.Parser
import Spreadsheet.Formula.Printer
import Spreadsheet.Evaluation.Basic
import Spreadsheet.Function.Library
import Spreadsheet.Sheet.Basic
import Spreadsheet.Sheet.Registry
import Spreadsheet.Recalculation.Schedule
import Spreadsheet.Redirection.References
import Spreadsheet.Workbook.Recalculation
import Spreadsheet.Workbook.Structure
import Spreadsheet.Workbook.Clipboard
import Spreadsheet.Proofs.Recalculation.Components
import Spreadsheet.Proofs.Recalculation.CorrectSchedules
import Spreadsheet.Proofs.Recalculation.LeastOrders
import Spreadsheet.Proofs.Workbook.ExclusiveArrays
import Spreadsheet.Proofs.Workbook.CircularErrors
import Spreadsheet.Proofs.Workbook.SettledRuns
import Spreadsheet.Proofs.Workbook.InsertedLines
import Spreadsheet.Proofs.Workbook.PastedBlocks
import Spreadsheet.Proofs.Workbook.MovedBlocks
import Spreadsheet.Proofs.Workbook.WordedFormulas
import Spreadsheet.Proofs.Workbook.FormattedCells
import Spreadsheet.Proofs.Recalculation.WritersFirst
import Spreadsheet.Proofs.Workbook.SheetNumbers
import Spreadsheet.Proofs.Workbook.CitedCollisions
import Spreadsheet.Proofs.Workbook.CitedRuns
import Spreadsheet.Proofs.Recalculation.RecordedDependencies
import Spreadsheet.Proofs.Workbook.AlteredCells
import Spreadsheet.Proofs.Formula.TiledFormulas
import Spreadsheet.Proofs.Reference.NormalForms
import Spreadsheet.Proofs.Formula.SheetReferences
import Spreadsheet.Proofs.Evaluation.SingleRuns
import Spreadsheet.Proofs.Evaluation.Pointwise
import Spreadsheet.Proofs.Redirection.CopiedReferences
import Spreadsheet.Proofs.Recalculation.EnumerationOrder
import Spreadsheet.Proofs.Reference.CoordinateTexts
import Spreadsheet.Proofs.Calendar.SerialNumbers
import Spreadsheet.Proofs.Address.FaithfulZones
