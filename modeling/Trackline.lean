import Trackline.Main
import Trackline.Workspace.Step
import Trackline.Proofs.Extent
import Trackline.Proofs.Polyline
import Trackline.Proofs.Positions
import Trackline.Proofs.Rings
import Trackline.Proofs.StyleBook
import Trackline.Proofs.Decimator.Cuts
import Trackline.Proofs.Decimator.Moves
import Trackline.Proofs.Decimator.State
import Trackline.Proofs.Drawing.Spans
import Trackline.Proofs.Drawing.Trip
import Trackline.Proofs.Kml.Text
import Trackline.Proofs.Table.Numerals
import Trackline.Proofs.Time.Plain
import Trackline.Proofs.Workspace.Edits
import Trackline.Proofs.Workspace.Pool
import Trackline.Proofs.Workspace.Refusal
import Trackline.Proofs.Workspace.Tracks
