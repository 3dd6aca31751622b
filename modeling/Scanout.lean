import Scanout.Main
import Scanout.Proofs.ByteRows
import Scanout.Proofs.Encoding
import Scanout.Proofs.Decoding
import Scanout.Proofs.RecordText
import Scanout.Proofs.Saving
import Scanout.Proofs.Resizing
import Scanout.Proofs.SessionHistory
import Scanout.Proofs.SweepPlan
import Scanout.Proofs.SweepRun
import Scanout.Proofs.Choosing
import Scanout.Proofs.Calibration
import Scanout.Proofs.Interruption
import Scanout.Proofs.Caching
import Scanout.Proofs.Recording
import Scanout.Proofs.CleaningUp
import Scanout.Proofs.Uninterrupted
import Scanout.Proofs.Truncation
import Scanout.Proofs.Isolation
import Scanout.Proofs.Verdicts
import Scanout.Proofs.Loading
import Scanout.Proofs.Paths
import Scanout.Proofs.Replacing
import Scanout.Proofs.Rendering
import Scanout.Proofs.Enumeration
import Scanout.Proofs.Passes
import Scanout.Proofs.FileChanges
import Scanout.Proofs.WorkingTree
import Scanout.Proofs.Rounding
import Scanout.Proofs.Closing
import Scanout.Proofs.Following
import Scanout.Proofs.Deliveries
import Scanout.Proofs.Refusals
import Scanout.Proofs.RecordFaults
import Scanout.Proofs.EncodingFaults
import Scanout.Proofs.Counting
import Scanout.Proofs.WideStrides
import Scanout.Proofs.Neighbourhoods
import Scanout.Proofs.MovedSides
import Scanout.Proofs.Retrying
import Scanout.Proofs.Fitting
import Scanout.Proofs.Refitting
import Scanout.Proofs.Drawing
import Scanout.Proofs.Margins
import Scanout.Proofs.Providers
import Scanout.Proofs.Answers
import Scanout.Proofs.LeastPadding
import Scanout.Proofs.SizeText
import Scanout.Proofs.OrderNames
import Scanout.Proofs.Capturing
import Scanout.Proofs.AlignedStrides
import Scanout.Proofs.ByteCounts
import Scanout.Proofs.Copying
import Scanout.Proofs.Ticks
