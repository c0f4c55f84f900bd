import CardComputer.Fault
import CardComputer.Text.Hex
import CardComputer.Text.Hidden
import CardComputer.Text.Quoted
import CardComputer.Json.Numeral
import CardComputer.Json.Reader
import CardComputer.Json.Stored
import CardComputer.Json.Printer
import CardComputer.Log.Basic
import CardComputer.Card.Code
import CardComputer.Card.Deck
import CardComputer.Card.Swipe
import CardComputer.Op
import CardComputer.Card.Scanner
import CardComputer.Panel.Keypad
import CardComputer.Panel.Segment
import CardComputer.Panel.Frame
import CardComputer.Panel.Display
import CardComputer.Panel.Expander
import CardComputer.Link.Mailbox
import CardComputer.Link.Stall
import CardComputer.Config.Text
import CardComputer.Card.Text
import CardComputer.Timeline.Basic
import CardComputer.Board.Bus
import CardComputer.Machine.Basic
import CardComputer.Machine.Turn
import CardComputer.Machine.Agenda
import CardComputer.Machine.Run
import CardComputer.Machine.Saved
import CardComputer.Json.Path
import CardComputer.Proofs.Board.Unlogged
import CardComputer.Proofs.Board.Access
import CardComputer.Proofs.Machine.Effect
import CardComputer.Proofs.Machine.Run
import CardComputer.Proofs.Machine.CaughtUp
import CardComputer.Proofs.Machine.Chunking
import CardComputer.Proofs.Timeline.Order
import CardComputer.Proofs.Machine.History
import CardComputer.Proofs.Machine.Saving
import CardComputer.Proofs.Timeline.Renumbering
import CardComputer.Proofs.Machine.Twins
import CardComputer.Proofs.Machine.Pending
import CardComputer.Proofs.Machine.TimeOrder
import CardComputer.Proofs.Machine.Stalls
import CardComputer.Proofs.Machine.StallSafety
import CardComputer.Proofs.Board.Picture
import CardComputer.Proofs.Machine.Periodic
import CardComputer.Proofs.Machine.Scan
import CardComputer.Proofs.Machine.Undisturbed
import CardComputer.Proofs.Machine.Logging
import CardComputer.Proofs.Board.Faults
import CardComputer.Proofs.Machine.Ending
import CardComputer.Proofs.Board.Polling
import CardComputer.Proofs.Machine.Journal
import CardComputer.Proofs.Machine.UnitTimes
import CardComputer.Proofs.Machine.Loading
import CardComputer.Proofs.Machine.Clock
import CardComputer.Proofs.Machine.Room
import CardComputer.Proofs.Machine.Headroom
import CardComputer.Proofs.Timeline.Queue
import CardComputer.Proofs.Machine.Frames
import CardComputer.Proofs.Machine.PowerOn
import CardComputer.Proofs.Board.Handshake
import CardComputer.Proofs.Board.Apart
import CardComputer.Proofs.Card.Decoding
import CardComputer.Proofs.Machine.GatedCycles
import CardComputer.Proofs.Panel.Keypad
import CardComputer.Proofs.Board.KeyScan
import CardComputer.Proofs.Log.Budgets
import CardComputer.Proofs.Card.ScanHistory
import CardComputer.Proofs.Board.Tone
import CardComputer.Proofs.Panel.Decay
import CardComputer.Proofs.Config.RoundTrip
import CardComputer.Proofs.Machine.Playback
