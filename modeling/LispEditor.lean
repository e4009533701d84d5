import LispEditor.Text.Slice
import LispEditor.Text.Line
import LispEditor.Text.Utf16
import LispEditor.Text.CharRange
import LispEditor.Text.Blank
import LispEditor.Text.WordChar
import LispEditor.Text.DecimalDigit
import LispEditor.Text.Printable
import LispEditor.Text.Hex
import LispEditor.Text.Quoted
import LispEditor.Text.Shown
import LispEditor.Text.Typeable
import LispEditor.Syntax.Token
import LispEditor.Syntax.Snapshot
import LispEditor.Syntax.Delimiter
import LispEditor.Motion.Column
import LispEditor.Motion.Group
import LispEditor.Motion.Element
import LispEditor.Log
import LispEditor.Indent.Advice
import LispEditor.Indent.Edit
import LispEditor.Indent.OpenGroups
import LispEditor.Indent.Region
import LispEditor.Indent.Newline
import LispEditor.Indent.Bounded
import LispEditor.Pattern.Basic
import LispEditor.Pattern.Search
import LispEditor.Definition
import LispEditor.Vocabulary
import LispEditor.Colour.Palette
import LispEditor.Colour.Rule
import LispEditor.Colour.Line
import LispEditor.Number.Binary64
import LispEditor.Number.Shortest
import LispEditor.Number.Layout
import LispEditor.Number.Numeral
import LispEditor.Json.Value
import LispEditor.Json.Reader
import LispEditor.Json.Printer
import LispEditor.Json.Integer
import LispEditor.Storage.Path
import LispEditor.Storage.Utf8
import LispEditor.Storage.Disk
import LispEditor.Failure
import LispEditor.Dialect
import LispEditor.Settings
import LispEditor.Editor.Document
import LispEditor.Editor.Basic
import LispEditor.Editor.Typing
import LispEditor.Editor.Command
import LispEditor.Window.Dialog
import LispEditor.Window.Basic
import LispEditor.Window.Command
import LispEditor.Window.Menu
import LispEditor.Verbosity
import LispEditor.Startup
import LispEditor.Main
import LispEditor.Proofs.Lines
import LispEditor.Proofs.ScanMode
import LispEditor.Proofs.StringSpans
import LispEditor.Proofs.BlankSplice
import LispEditor.Proofs.StringViews
import LispEditor.Proofs.GroupStack
import LispEditor.Proofs.Motion
import LispEditor.Proofs.Advice
import LispEditor.Proofs.LineEdit
import LispEditor.Proofs.RegionRescan
import LispEditor.Proofs.RegionContent
import LispEditor.Proofs.RegionLines
import LispEditor.Proofs.RegionFixpoint
import LispEditor.Proofs.RegionRange
import LispEditor.Proofs.ShownText
import LispEditor.Proofs.DocumentEdit
import LispEditor.Proofs.EditorIndent
import LispEditor.Proofs.EditorSelection
import LispEditor.Proofs.ColouredText
import LispEditor.Proofs.EditorChange
import LispEditor.Proofs.StoredText
import LispEditor.Proofs.WindowFiles
import LispEditor.Proofs.FloatDigits
import LispEditor.Proofs.JsonMembers
import LispEditor.Proofs.JsonScalar
import LispEditor.Proofs.JsonRoundTrip
import LispEditor.Proofs.LoadedSettings
import LispEditor.Proofs.SettingsRestart
import LispEditor.Proofs.StatusBar
import LispEditor.Proofs.PairedTyping
import LispEditor.Proofs.MotionInverse
import LispEditor.Proofs.MotionLookup
import LispEditor.Proofs.MotionNesting
import LispEditor.Proofs.PrescribedColumn
import LispEditor.Proofs.BlankEdits
import LispEditor.Proofs.PatternReading
import LispEditor.Proofs.DefinitionHead
import LispEditor.Proofs.ShownNames
import LispEditor.Proofs.NamesInCode
import LispEditor.Proofs.HiddenDefinitions
import LispEditor.Proofs.LineBreak
import LispEditor.Proofs.RegionCursor
import LispEditor.Proofs.RegionWidth
import LispEditor.Proofs.RegionLookup
import LispEditor.Proofs.Utf16Positions
import LispEditor.Proofs.GroupQueries
import LispEditor.Proofs.WholeWords
import LispEditor.Proofs.SymbolsMenu
