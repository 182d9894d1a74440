import WarmCache.Main
import WarmCache.Race
import WarmCache.Proofs.Rounds
import WarmCache.Proofs.Worker
import WarmCache.Proofs.FiniteMap
import WarmCache.Proofs.Balance
import WarmCache.Proofs.Courses
import WarmCache.Proofs.Direct
import WarmCache.Proofs.Rejections
import WarmCache.Proofs.Happenings
import WarmCache.Proofs.Cycles
import WarmCache.Proofs.Stopping
import WarmCache.Proofs.Attempts
import WarmCache.Proofs.Booked
import WarmCache.Proofs.Effects
import WarmCache.Proofs.Ledger
import WarmCache.Proofs.Underway
import WarmCache.Proofs.Statistics
import WarmCache.Proofs.Commuting
import WarmCache.Proofs.Plain
import WarmCache.Proofs.Notes
import WarmCache.Proofs.Orders
import WarmCache.Proofs.Runs
import WarmCache.Proofs.Lifetimes
import WarmCache.Proofs.Tallies
import WarmCache.Proofs.Totals
import WarmCache.Proofs.Invocations
import WarmCache.Proofs.Independence
import WarmCache.Proofs.Light
import WarmCache.Proofs.Orderly
import WarmCache.Proofs.Warmth
import WarmCache.Proofs.Punctual
import WarmCache.Proofs.Draining
import WarmCache.Proofs.KeepWarm
import WarmCache.Proofs.Expiring
import WarmCache.Proofs.Removals
import WarmCache.Proofs.Panics
import WarmCache.Proofs.Traceless
import WarmCache.Proofs.ClockMoves
import WarmCache.Proofs.Flushing
import WarmCache.Proofs.Retries
import WarmCache.Proofs.Loading
import WarmCache.Proofs.Signals
import WarmCache.Proofs.EarlyStops
import WarmCache.Proofs.Service
