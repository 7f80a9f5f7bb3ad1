import ArmLink.Arm
import ArmLink.Arm.Follow
import ArmLink.Arm.Lifecycle
import ArmLink.Bench
import ArmLink.Command
import ArmLink.CommandLine.Arguments
import ArmLink.CommandLine.Daemon
import ArmLink.CommandLine.Ending
import ArmLink.CommandLine.Kind
import ArmLink.CommandLine.Task
import ArmLink.CommandLine.Tool
import ArmLink.Config
import ArmLink.Dashboard.Exchange
import ArmLink.Dashboard.Request
import ArmLink.Decimal.Binary64
import ArmLink.Decimal.Fixed
import ArmLink.Decimal.Integer
import ArmLink.Decimal.Reading
import ArmLink.Decimal.Shortest
import ArmLink.Duration
import ArmLink.Failure
import ArmLink.Fault.Messages
import ArmLink.Fault.Report
import ArmLink.Fault.Table
import ArmLink.File
import ArmLink.File.Tree
import ArmLink.Json.Document
import ArmLink.Json.Value
import ArmLink.Link
import ArmLink.Link.Buffer
import ArmLink.Main
import ArmLink.Monitor
import ArmLink.Motion.Keeper
import ArmLink.Motion.Move
import ArmLink.Payload
import ArmLink.Record.Messages
import ArmLink.Record.Robot
import ArmLink.Record.Telemetry
import ArmLink.Reply
import ArmLink.Robot.Angle
import ArmLink.Robot.Index
import ArmLink.Robot.JogAxis
import ArmLink.Robot.Mode
import ArmLink.Robot.Pose
import ArmLink.Robot.Units
import ArmLink.Session
import ArmLink.Telemetry.Frame
import ArmLink.Telemetry.Reader
import ArmLink.Telemetry.Snapshot
import ArmLink.Telemetry.Word
import ArmLink.Text.Blank
import ArmLink.Text.Digit
import ArmLink.Text.Printable
import ArmLink.Text.Quoted
import ArmLink.Text.Ranges
import ArmLink.Text.Utf8
import ArmLink.Watch
import ArmLink.Watch.Schedule
import ArmLink.Yaml.Cursor
import ArmLink.Yaml.Field
import ArmLink.Yaml.Layout
import ArmLink.Yaml.Node
import ArmLink.Yaml.Property
import ArmLink.Yaml.Scalar
import ArmLink.Yaml.Token
import ArmLink.Proofs.LeftAlone
import ArmLink.Proofs.ReaderMoves
import ArmLink.Proofs.Interleaving
import ArmLink.Proofs.Escalation
import ArmLink.Proofs.GaveUp
import ArmLink.Proofs.Reassembly
import ArmLink.Proofs.Disconnection
import ArmLink.Proofs.Numerals
import ArmLink.Proofs.ReplyGrammar
import ArmLink.Proofs.WrittenReply
import ArmLink.Proofs.InStep
import ArmLink.Proofs.HandsOff
import ArmLink.Proofs.LineInFront
import ArmLink.Proofs.WholeCharacters
import ArmLink.Proofs.CutReply
import ArmLink.Proofs.FrameCodec
import ArmLink.Proofs.Following
import ArmLink.Proofs.LastFrame
import ArmLink.Proofs.Shutdown
import ArmLink.Proofs.ShownStatus
import ArmLink.Proofs.Notices
import ArmLink.Proofs.Recovery
import ArmLink.Proofs.SentOnce
import ArmLink.Proofs.WrittenLists
import ArmLink.Proofs.ListGrammar
import ArmLink.Proofs.FaultReport
import ArmLink.Proofs.LastTold
import ArmLink.Proofs.WatchCourse
import ArmLink.Proofs.WatchSends
import ArmLink.Proofs.FaultsTold
import ArmLink.Proofs.MotionStream
import ArmLink.Proofs.ReportText
import ArmLink.Proofs.FilledBuffer
import ArmLink.Proofs.ExactValue
import ArmLink.Proofs.Rounding
import ArmLink.Proofs.DecimalRounding
import ArmLink.Proofs.Decimals
import ArmLink.Proofs.FixedPoint
import ArmLink.Proofs.SentNumbers
import ArmLink.Proofs.OneCommand
import ArmLink.Proofs.TurnBetween
import ArmLink.Proofs.IntegerReply
import ArmLink.Proofs.SamplesTold
import ArmLink.Proofs.SampleRate
import ArmLink.Proofs.Differences
import ArmLink.Proofs.SampleChanges
import ArmLink.Proofs.AngleOfDoubles
import ArmLink.Proofs.DecimalScale
import ArmLink.Proofs.JsonGrammar
import ArmLink.Proofs.JointLines
import ArmLink.Proofs.FixedAxes
