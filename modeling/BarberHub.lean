import BarberHub.Support.Grouping
import BarberHub.Support.HalfOpen
import BarberHub.Support.OffsetZone
import BarberHub.Support.KeyedTable
import BarberHub.Support.Fallible
import BarberHub.Support.Rounding
import BarberHub.Support.Runs
import BarberHub.Support.Spacing
import BarberHub.Support.SlidingWindow
import BarberHub.Support.LikePatterns
import BarberHub.Support.Paging
import BarberHub.Support.SphericalCaps
import BarberHub.Support.Programs
import BarberHub.Support.RelyGuarantee
import BarberHub.Support.Pools
import BarberHub.Support.CivilCalendar
import BarberHub.Support.Numerals
import BarberHub.Support.TextTemplates
import BarberHub.Support.Lines
import BarberHub.Support.Decisions
import BarberHub.Support.LockedTransactions
import BarberHub.Support.LockDiscipline
import BarberHub.Support.LockedPools
import BarberHub.Support.Unlocked
import BarberHub.Support.WriteFrames
import BarberHub.Support.GrowingTables
import BarberHub.Core.Time
import BarberHub.Core.Errors
import BarberHub.Core.Tables
import BarberHub.Core.Environment
import BarberHub.Core.Pagination
import BarberHub.Availability.Intervals
import BarberHub.Availability.SetAlgebra
import BarberHub.Availability.FreeSlots
import BarberHub.Availability.LocalDay
import BarberHub.Availability.Exactness
import BarberHub.Slots.Available
import BarberHub.Slots.Bookable
import BarberHub.Slots.Interference
import BarberHub.Slots.Range
import BarberHub.Slots.LocalClock
import BarberHub.Slots.Totality
import BarberHub.Slots.WholeTables
import BarberHub.Slots.Grid
import BarberHub.Booking.Writes
import BarberHub.Booking.Transitions
import BarberHub.Booking.Guarantees
import BarberHub.Booking.Finality
import BarberHub.Booking.Operations
import BarberHub.Booking.Concurrent
import BarberHub.Booking.Exclusion
import BarberHub.Booking.Offers
import BarberHub.Booking.Race
import BarberHub.Booking.Alone
import BarberHub.Booking.Authority
import BarberHub.Booking.Moving
import BarberHub.Booking.Expiry
import BarberHub.Booking.Losses
import BarberHub.Accounts.Tokens
import BarberHub.Accounts.Rotation
import BarberHub.Accounts.Sessions
import BarberHub.Accounts.Replay
import BarberHub.Accounts.History
import BarberHub.Accounts.RateLimit
import BarberHub.Accounts.Window
import BarberHub.Accounts.Access
import BarberHub.Frontend.Session
import BarberHub.Frontend.SingleFlight
import BarberHub.Directory.Permissions
import BarberHub.Directory.Updates
import BarberHub.Directory.Editing
import BarberHub.Directory.PartialUpdates
import BarberHub.Directory.Assignment
import BarberHub.Directory.Joining
import BarberHub.Schedule.Week
import BarberHub.Schedule.Blocking
import BarberHub.Schedule.Replacement
import BarberHub.Reviews.Ratings
import BarberHub.Reviews.Drift
import BarberHub.Reminders.Sweep
import BarberHub.Reminders.Once
import BarberHub.Reminders.Coverage
import BarberHub.System.Notifications
import BarberHub.System.Operations
import BarberHub.System.Vetting
import BarberHub.System.Works
import BarberHub.System.Statements
import BarberHub.Analytics.Dashboards
import BarberHub.Analytics.Revenue
import BarberHub.Analytics.ScanOrder
import BarberHub.Analytics.RowOrder
import BarberHub.System.Beside
import BarberHub.System.Commits
import BarberHub.System.Records
import BarberHub.System.Roles
import BarberHub.System.Confidentiality
import BarberHub.System.Integrity
import BarberHub.Directory.Catalogue
import BarberHub.Booking.Effects
import BarberHub.Reviews.Queueing
import BarberHub.System.OneShop
import BarberHub.System.OwnersDecision
import BarberHub.System.TwoChairs
import BarberHub.System.Sequential
import BarberHub.System.SwitchingOff
import BarberHub.System.BlockedTime
import BarberHub.System.WriteSkew
import BarberHub.Schedule.DayWindows
import BarberHub.Search.Escaping
import BarberHub.Search.Geo
import BarberHub.Search.Shops
import BarberHub.Search.BoundingBox
import BarberHub.Search.Listings
import BarberHub.Search.Pages
import BarberHub.Schedule.Weekly
import BarberHub.Analytics.Additivity
import BarberHub.Analytics.Periods
import BarberHub.Frontend.BookingPage
import BarberHub.Frontend.SlotChoice
import BarberHub.Search.Distances
import BarberHub.System.Offsets
import BarberHub.Reminders.Mails
