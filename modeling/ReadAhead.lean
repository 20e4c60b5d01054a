import ReadAhead.Cache.Bitmap
import ReadAhead.Cache.Budget
import ReadAhead.Cache.Key
import ReadAhead.Cache.Session
import ReadAhead.Numeric.Scientific
import ReadAhead.Planner.Acceleration
import ReadAhead.Planner.State
import ReadAhead.Planner.Setting
import ReadAhead.Queue.Receipt
import ReadAhead.Queue.Settle
import ReadAhead.Queue.Token
import ReadAhead.Reader
import ReadAhead.Proofs.Numeric.Equality
import ReadAhead.Proofs.Cache.Arithmetic
import ReadAhead.Proofs.Cache.Budget
import ReadAhead.Proofs.Cache.ListCache
import ReadAhead.Proofs.Cache.Release
import ReadAhead.Proofs.Planner.Load
import ReadAhead.Proofs.Planner.Onset
import ReadAhead.Proofs.Planner.Plan
import ReadAhead.Proofs.Queue.Conservation
import ReadAhead.Proofs.Queue.Dispatch
import ReadAhead.Proofs.Queue.Background
import ReadAhead.Proofs.Queue.Cancel
import ReadAhead.Proofs.Queue.Crew
import ReadAhead.Proofs.Queue.Waking
import ReadAhead.Proofs.Queue.Aftermath
import ReadAhead.Proofs.Queue.InFlight
import ReadAhead.Proofs.Planner.Sums
import ReadAhead.Proofs.Planner.Published
import ReadAhead.Proofs.Planner.FrameInterval
import ReadAhead.Proofs.Planner.Offsets
import ReadAhead.Proofs.Planner.Discarded
import ReadAhead.Proofs.Planner.FreshStart
import ReadAhead.Proofs.Planner.Notices
import ReadAhead.Proofs.Planner.Ranking
import ReadAhead.Proofs.Planner.Cadence
import ReadAhead.Proofs.Planner.Override
import ReadAhead.Proofs.Queue.Notices
import ReadAhead.Proofs.Queue.Settlement
import ReadAhead.Proofs.Reader
import ReadAhead.Proofs.Cache.Inclusion
import ReadAhead.Proofs.Cache.Tally
import ReadAhead.Proofs.Cache.Oversized
import ReadAhead.Proofs.Cache.WholeBudget
import ReadAhead.Proofs.Cache.BufferLength
import ReadAhead.Proofs.Queue.PendingRuns
import ReadAhead.Proofs.Planner.Growth
import ReadAhead.Proofs.Planner.Sensitivity
