import Parley.Archive.Basic
import Parley.Archive.Loading
import Parley.Archive.Path
import Parley.Bus.Basic
import Parley.Bus.Delivery
import Parley.Config
import Parley.Dialog.Basic
import Parley.Dialog.Reach
import Parley.Dialog.Resolve
import Parley.Document.Reader
import Parley.Document.Shape
import Parley.Document.Writer
import Parley.Json.Basic
import Parley.Json.Lenient
import Parley.Json.Printer
import Parley.Json.Reader
import Parley.Library.Basic
import Parley.Load
import Parley.Log
import Parley.Names
import Parley.Number.Binary64
import Parley.Number.Reading
import Parley.Play.Command
import Parley.Play.Event
import Parley.Play.Runner
import Parley.Play.Signature
import Parley.Play.Variables
import Parley.Proofs.Archive.Folder
import Parley.Proofs.Bus.Chronicle
import Parley.Proofs.Bus.Editions
import Parley.Proofs.Bus.Incident
import Parley.Proofs.Bus.InTurn
import Parley.Proofs.Bus.Once
import Parley.Proofs.Bus.Queue
import Parley.Proofs.Bus.Reentrant
import Parley.Proofs.Bus.Roster
import Parley.Proofs.Bus.Posting
import Parley.Proofs.Bus.Turns
import Parley.Proofs.Dialog.Connected
import Parley.Proofs.Dialog.Reach
import Parley.Proofs.Dialog.Resolution
import Parley.Proofs.Dialog.Titles
import Parley.Proofs.Document.Accepted
import Parley.Proofs.Document.Completed
import Parley.Proofs.Document.Fit
import Parley.Proofs.Document.Parts
import Parley.Proofs.Document.ReadBack
import Parley.Proofs.Document.RoundTrip
import Parley.Proofs.Document.Schema
import Parley.Proofs.Json.Fields
import Parley.Proofs.Json.Proper
import Parley.Proofs.Json.Same
import Parley.Proofs.Library.Isolated
import Parley.Proofs.Library.Record
import Parley.Proofs.Library.Visit
import Parley.Proofs.Play.Afresh
import Parley.Proofs.Play.Confined
import Parley.Proofs.Play.Course
import Parley.Proofs.Play.Interrupted
import Parley.Proofs.Play.Keeping
import Parley.Proofs.Play.Limit
import Parley.Proofs.Play.Marked
import Parley.Proofs.Play.Mirror
import Parley.Proofs.Play.Noting
import Parley.Proofs.Play.Offered
import Parley.Proofs.Play.Order
import Parley.Proofs.Play.Passage
import Parley.Proofs.Play.Path
import Parley.Proofs.Play.Performed
import Parley.Proofs.Play.Picked
import Parley.Proofs.Play.Registered
import Parley.Proofs.Play.Replay
import Parley.Proofs.Play.Resting
import Parley.Proofs.Play.Resumed
import Parley.Proofs.Play.Standing
import Parley.Proofs.Play.Together
import Parley.Proofs.Play.Watched
import Parley.Proofs.Results
import Parley.Proofs.Script.Assignment
import Parley.Proofs.Script.Blocks
import Parley.Proofs.Script.Body
import Parley.Proofs.Script.Bracket
import Parley.Proofs.Script.Concatenation
import Parley.Proofs.Script.Condition
import Parley.Proofs.Script.Doomed
import Parley.Proofs.Script.Entries
import Parley.Proofs.Script.Faults
import Parley.Proofs.Script.Formed
import Parley.Proofs.Script.Guarded
import Parley.Proofs.Script.Layout
import Parley.Proofs.Script.Misplaced
import Parley.Proofs.Script.Moved
import Parley.Proofs.Script.Names
import Parley.Proofs.Script.Option
import Parley.Proofs.Script.Places
import Parley.Proofs.Script.Printer
import Parley.Proofs.Script.RoundTrip
import Parley.Proofs.Script.Rows
import Parley.Proofs.Script.Speech
import Parley.Proofs.Script.Splitting
import Parley.Proofs.Script.Statement
import Parley.Proofs.Script.Steps
import Parley.Proofs.Script.Tagged
import Parley.Proofs.Tables
import Parley.Proofs.Text.Blank
import Parley.Proofs.Text.Lines
import Parley.Proofs.Text.Order
import Parley.Proofs.Text.Rows
import Parley.Proofs.Text.Shell
import Parley.Proofs.Text.Whole
import Parley.Rehearsal.Backstage
import Parley.Rehearsal.Listening
import Parley.Rehearsal.Performance
import Parley.Rehearsal.Session
import Parley.Script.Basic
import Parley.Script.Body
import Parley.Script.Fault
import Parley.Script.Guard
import Parley.Script.Option
import Parley.Script.Reader
import Parley.Script.Source
import Parley.Script.Speech
import Parley.Script.Statement
import Parley.Table
import Parley.Text.Blank
import Parley.Text.Half
import Parley.Text.Hex
import Parley.Text.Lead
import Parley.Text.Lines
import Parley.Text.Octets
import Parley.Text.Printable
import Parley.Text.Quoted
import Parley.Text.Ranges
import Parley.Text.Shell
import Parley.Text.Word
import Parley.Proofs.Play.Afresh
