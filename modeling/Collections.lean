import Collections.Callback
import Collections.Casting
import Collections.Cursor.Program
import Collections.Cursor.SplitReport
import Collections.Filling
import Collections.Log.Context
import Collections.Log.Message
import Collections.Proofs.Cursor.BothWays
import Collections.Proofs.Cursor.Concatenation
import Collections.Proofs.Cursor.Looping
import Collections.Proofs.Cursor.Ranges
import Collections.Proofs.Cursor.ReadOnly
import Collections.Proofs.Cursor.Removing
import Collections.Proofs.Cursor.Restarting
import Collections.Proofs.Cursor.Reversal
import Collections.Proofs.Cursor.Splitting
import Collections.Proofs.Cursor.Truth
import Collections.Proofs.Enumeration
import Collections.Proofs.Log.Verbosity
import Collections.Proofs.Prefixes
import Collections.Proofs.PutIfAbsent
import Collections.Proofs.Shared.MapRefinement
import Collections.Proofs.Shared.Positions
import Collections.Proofs.Shared.Queue.Abandonment
import Collections.Proofs.Shared.Queue.Capacity
import Collections.Proofs.Shared.Scripts
import Collections.Proofs.Weak.Amortization
import Collections.Proofs.Weak.BulkInsertion
import Collections.Proofs.Weak.LettingGo
import Collections.Proofs.Weak.RefMap.Atomicity
import Collections.Proofs.Weak.RefMap.Sizing
import Collections.Proofs.Weak.SafeWalks
import Collections.Proofs.Weak.SweepFree
import Collections.Shared.List
import Collections.Shared.Queue.Options
import Collections.Shared.Queue.Steps
import Collections.Shared.Session.Map
import Collections.Shared.Set
import Collections.StartsWith
import Collections.Text.Builder
import Collections.Throwing
import Collections.Weak.PurgeSchedule
import Collections.Weak.RefMap.Settings
import Collections.Weak.Session.Map
import Collections.Weak.Session.RefMap
import Collections.Weak.Session.Set
import Collections.Weak.Session.SharedSet
import Collections.Weak.Session.Slot
