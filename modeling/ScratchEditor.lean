import ScratchEditor.Editor.Session
import ScratchEditor.Pane.Paint
import ScratchEditor.Run.Runner
import ScratchEditor.Settings.Store
import ScratchEditor.Shell.Command
import ScratchEditor.Text.Encoding
import ScratchEditor.Shell.Arithmetic
import ScratchEditor.Shell.Glob
import ScratchEditor.Shell.State
import ScratchEditor.Files.Launch
import ScratchEditor.Shell.Builtin
import ScratchEditor.Shell.Eval
import ScratchEditor.Run.Execution
import ScratchEditor.Run.Host
import ScratchEditor.CommandLine.Arguments
import ScratchEditor.CommandLine.Help
import ScratchEditor.CommandLine.Execute
import ScratchEditor.Shell.Token
import ScratchEditor.Main
import ScratchEditor.Proofs.Utf8.Lossy
import ScratchEditor.Proofs.Utf8.Stream
import ScratchEditor.Proofs.Run.Blocks
import ScratchEditor.Proofs.Pattern.Continuing
import ScratchEditor.Proofs.Pattern.ContinuingBracket
import ScratchEditor.Proofs.Pattern.ContinuingGroup
import ScratchEditor.Proofs.Pattern.Inside
import ScratchEditor.Proofs.Pattern.Reads
import ScratchEditor.Proofs.Token.Combined
import ScratchEditor.Proofs.Pattern.Reach
import ScratchEditor.Proofs.Pattern.Scan
import ScratchEditor.Proofs.Pattern.Size
import ScratchEditor.Proofs.Token.Engines
import ScratchEditor.Proofs.Token.Groups
import ScratchEditor.Proofs.Token.Heads
import ScratchEditor.Proofs.Token.Leftmost
import ScratchEditor.Proofs.Pattern.Cut
import ScratchEditor.Proofs.Token.Keywords
import ScratchEditor.Proofs.Token.Table
import ScratchEditor.Proofs.Token.Parts
import ScratchEditor.Proofs.Token.Regions
import ScratchEditor.Proofs.Editor.Painting
import ScratchEditor.Proofs.Editor.Repaint
import ScratchEditor.Proofs.Editor.UpToDate
import ScratchEditor.Proofs.Text.Runs
import ScratchEditor.Proofs.Pattern.Rounds
import ScratchEditor.Proofs.Token.Lexer
import ScratchEditor.Proofs.Token.Lexemes
import ScratchEditor.Proofs.Token.Accepted
import ScratchEditor.Proofs.Token.Tokens
import ScratchEditor.Proofs.Editor.Excerpt
import ScratchEditor.Proofs.Report.Entry
import ScratchEditor.Proofs.Report.Reading
import ScratchEditor.Proofs.Report.Records
import ScratchEditor.Proofs.Report.Faithful
import ScratchEditor.Proofs.Report.Notices
import ScratchEditor.Proofs.Text.Spots
import ScratchEditor.Proofs.Json.Documents
import ScratchEditor.Proofs.Settings.Colors
import ScratchEditor.Proofs.Settings.Records
import ScratchEditor.Proofs.Settings.RoundTrip
import ScratchEditor.Proofs.Files.Tree
import ScratchEditor.Proofs.Settings.Saved
import ScratchEditor.Proofs.Editor.Operations
import ScratchEditor.Proofs.Pane.Held
import ScratchEditor.Proofs.Settings.Keywords
import ScratchEditor.Proofs.Editor.Keystrokes
import ScratchEditor.Proofs.Pane.Terminal
import ScratchEditor.Proofs.Settings.Loaded
import ScratchEditor.Proofs.Run.Results
import ScratchEditor.Proofs.Report.Joined
import ScratchEditor.Proofs.Settings.Edited
import ScratchEditor.Proofs.Report.Listing
import ScratchEditor.Proofs.Editor.Edits
import ScratchEditor.Proofs.Text.LineExtents
import ScratchEditor.Proofs.Text.LineBytes
import ScratchEditor.Proofs.Editor.Gutter
import ScratchEditor.Proofs.Text.Rows
import ScratchEditor.Proofs.Indent.Depth
import ScratchEditor.Proofs.Indent.Votes
import ScratchEditor.Proofs.Indent.Recovery
import ScratchEditor.Proofs.Text.Payloads
import ScratchEditor.Proofs.Editor.Typing
import ScratchEditor.Proofs.Token.Rebuilt
import ScratchEditor.Proofs.Text.Meter
import ScratchEditor.Proofs.Text.Splicing
