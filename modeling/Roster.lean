import Roster.Main
import Roster.Postgres.Repository
import Roster.Proofs.Accounts
import Roster.Proofs.Agreement
import Roster.Proofs.Announcements
import Roster.Proofs.Broadcast
import Roster.Proofs.Callers
import Roster.Proofs.Characters
import Roster.Proofs.Escapes
import Roster.Proofs.Loop
import Roster.Proofs.Mirror
import Roster.Proofs.Observations
import Roster.Proofs.Observers
import Roster.Proofs.Orders
import Roster.Proofs.Outcome
import Roster.Proofs.Passwords
import Roster.Proofs.Queries
import Roster.Proofs.Readiness
import Roster.Proofs.Rejections
import Roster.Proofs.RoundTrip
import Roster.Proofs.Sendings
import Roster.Proofs.Tally
import Roster.Proofs.Timestamps
import Roster.Proofs.Watch
import Roster.Proofs.Upkeep
import Roster.Proofs.Chronicles
import Roster.Proofs.Closing
import Roster.Proofs.Sides
import Roster.Proofs.Sessions
import Roster.Proofs.Nesting
import Roster.Proofs.Members
import Roster.Proofs.Ambiguity
import Roster.Proofs.Captures
import Roster.Proofs.Pages
import Roster.Proofs.Placeholders
import Roster.Proofs.Assignments
import Roster.Proofs.Pacing
import Roster.Proofs.Starting
import Roster.Proofs.Rearrangements
import Roster.Proofs.Chronology
import Roster.Proofs.Precedence
import Roster.Proofs.Asking
