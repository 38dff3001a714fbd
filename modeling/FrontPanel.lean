import FrontPanel.Command.Scripted
import FrontPanel.Controller.Basic
import FrontPanel.Controller.BuiltIn
import FrontPanel.Display.Trace
import FrontPanel.Proofs.Command.History
import FrontPanel.Proofs.Menu.Refresh
import FrontPanel.Proofs.Page.Stack
import FrontPanel.Proofs.Tft.Framing
import FrontPanel.Settings.Notice
import FrontPanel.Settings.Reader
import FrontPanel.Text.Runs
import FrontPanel.Proofs.Tft.Start
import FrontPanel.Proofs.Menu.Mode
import FrontPanel.Proofs.Settings.Statement
import FrontPanel.Proofs.Settings.Value
import FrontPanel.Proofs.Settings.Plain
import FrontPanel.Proofs.Settings.Accepted
import FrontPanel.Proofs.Settings.Strictness
import FrontPanel.Proofs.Controller.Wiring
import FrontPanel.Proofs.Control.Balance
import FrontPanel.Proofs.Sensor.Position
import FrontPanel.Proofs.Sensor.Latch
import FrontPanel.Proofs.Controller.Halt
import FrontPanel.Proofs.Page.Presses
import FrontPanel.Proofs.Settings.LastAssignment
import FrontPanel.Proofs.Page.Entries
import FrontPanel.Proofs.Menu.Residue
import FrontPanel.Proofs.Menu.Scroll
import FrontPanel.Proofs.Menu.Requests
import FrontPanel.Proofs.Tft.Blocks
import FrontPanel.Proofs.Tft.Fill
import FrontPanel.Proofs.Command.Service
import FrontPanel.Proofs.Control.Shaft
import FrontPanel.Proofs.Settings.Bounds
import FrontPanel.Proofs.Settings.PinText
import FrontPanel.Proofs.Settings.Ownership
import FrontPanel.Proofs.Tft.Script
import FrontPanel.Proofs.Menu.ScrollBar
import FrontPanel.Proofs.Settings.Relayout
import FrontPanel.Proofs.Settings.OneKey
import FrontPanel.Proofs.Menu.Checked
import FrontPanel.Proofs.Menu.Margins
import FrontPanel.Proofs.Tft.Cells
import FrontPanel.Proofs.Tft.Advance
import FrontPanel.Proofs.Page.Highlight
import FrontPanel.Proofs.Menu.Turns
import FrontPanel.Proofs.Command.Parameter
import FrontPanel.Proofs.Page.Idle
import FrontPanel.Proofs.Menu.Capabilities
import FrontPanel.Proofs.Control.Buttons
import FrontPanel.Proofs.Page.Rows
import FrontPanel.Proofs.Text.Size
import FrontPanel.Proofs.Controller.StatusReport
import FrontPanel.Proofs.Controller.Cadence
