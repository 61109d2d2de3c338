import ButtonPanel.Board
import ButtonPanel.Board.Scanner
import ButtonPanel.CommandLine.Run
import ButtonPanel.Files.Folder
import ButtonPanel.Main
import ButtonPanel.Sink.Journal
import ButtonPanel.Sink.Recorder
import ButtonPanel.Proofs.Cycle
import ButtonPanel.Proofs.Log
import ButtonPanel.Proofs.Board.Run
import ButtonPanel.Proofs.ButtonHistory
import ButtonPanel.Proofs.Board.Buttons
import ButtonPanel.Proofs.Board.Touch
import ButtonPanel.Proofs.Board.Loss
import ButtonPanel.Proofs.Scanner.Run
import ButtonPanel.Proofs.Scanner.Resync
import ButtonPanel.Proofs.Scanner.Slots
import ButtonPanel.Proofs.Scanner.Faults
import ButtonPanel.Proofs.Queue.Order
import ButtonPanel.Proofs.Queue.Pipe
import ButtonPanel.Proofs.Panel.Build
import ButtonPanel.Proofs.Panel.Gestures
import ButtonPanel.Proofs.CommandLine.Output
import ButtonPanel.Proofs.CommandLine.Losses
import ButtonPanel.Proofs.CommandLine.Sources
import ButtonPanel.Proofs.Text.Decimal
import ButtonPanel.Proofs.Text.Lines
import ButtonPanel.Proofs.Text.Canonical
import ButtonPanel.Proofs.Json.Numeral
import ButtonPanel.Proofs.Json.Quoted
import ButtonPanel.Proofs.Json.Spelling
import ButtonPanel.Proofs.Json.Reader
import ButtonPanel.Proofs.Json.Codec
import ButtonPanel.Proofs.Panel.Document
import ButtonPanel.Proofs.Panel.Labels
import ButtonPanel.Proofs.Panel.Session
import ButtonPanel.Proofs.Panel.Watch
import ButtonPanel.Proofs.Panel.Reorder
import ButtonPanel.Proofs.Json.Rejection
import ButtonPanel.Proofs.Json.Selection
import ButtonPanel.Proofs.Panel.Layout
import ButtonPanel.Proofs.Panel.Verdict
import ButtonPanel.Proofs.Panel.Chronicle
import ButtonPanel.Proofs.Panel.Keys
import ButtonPanel.Proofs.Board.Tracking
import ButtonPanel.Proofs.Board.Independence
import ButtonPanel.Proofs.Scanner.Inversion
import ButtonPanel.Proofs.Scanner.EdgeDetection
import ButtonPanel.Proofs.Panel.InPlace
import ButtonPanel.Proofs.Panel.Atomicity
import ButtonPanel.Proofs.Emitter.Strokes
import ButtonPanel.Proofs.Emitter.Agreement
import ButtonPanel.Proofs.Panel.Truncation
import ButtonPanel.Proofs.CommandLine.Transcript
