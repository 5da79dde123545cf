import Parley.Text.Case
import Parley.Media
import Parley.Flow.Writing
import Parley.Flow.Graph
import Parley.Session.Document
import Parley.Step.Run
import Parley.Rehearsal.Conversation
import Parley.Rehearsal.Cabinet
import Parley.Rehearsal.Reception
import Parley.Registry.Directory
import Parley.Store.Choice
import Parley.Text.Bases
import Parley.Http.Client
import Parley.Http.Retry
import Parley.Consultation.Record
import Parley.Webhook
import Parley.Desk.Remote
import Parley.Media.Remote
import Parley.Rehearsal.Script
import Parley.Rehearsal.Vendor
import Parley.Rehearsal.Counter
import Parley.Proofs.Program
import Parley.Proofs.Turn.Tour
import Parley.Proofs.Flow.Routes
import Parley.Proofs.Turn.Commit
import Parley.Proofs.Turn.Conversation
import Parley.Proofs.Turn.Resume
import Parley.Proofs.Step.Courses
import Parley.Proofs.Step.Prompt
import Parley.Proofs.Turn.Question
import Parley.Proofs.Value.Entries
import Parley.Proofs.Step.Dialogues
import Parley.Proofs.Turn.Restart
import Parley.Proofs.Number.Digits
import Parley.Proofs.Calendar.Moment
import Parley.Proofs.Session.Document
import Parley.Proofs.Store.Sound
import Parley.Proofs.Turn.Stamp
import Parley.Proofs.Inbox.Locks
import Parley.Proofs.Inbox.Phases
import Parley.Proofs.Inbox.Hall
import Parley.Proofs.Inbox.Alone
import Parley.Proofs.Inbox.Serial
import Parley.Proofs.Inbox.Live
import Parley.Proofs.Inbox.Latest
import Parley.Proofs.Inbox.Ended
import Parley.Proofs.Inbox.Makes
import Parley.Proofs.Inbox.Atomic
import Parley.Proofs.Inbox.Queue
import Parley.Proofs.Requests
import Parley.Proofs.Step.Saving
import Parley.Proofs.Turn.Saving
import Parley.Proofs.Turn.Anonymous
import Parley.Proofs.Turn.Staff
import Parley.Proofs.Store.Recents
import Parley.Proofs.Inbox.Ledger
import Parley.Proofs.Inbox.Books
import Parley.Proofs.Inbox.Independence
import Parley.Proofs.Step.Routing
import Parley.Proofs.Turn.Strict
import Parley.Proofs.Turn.Bearings
import Parley.Proofs.Turn.Finish
import Parley.Proofs.Turn.Clearing
import Parley.Proofs.Desk.Shared
import Parley.Proofs.Turn.Walk
import Parley.Proofs.Registry.Books
import Parley.Proofs.Registry.Batch
import Parley.Proofs.Inbox.Runners
import Parley.Proofs.Inbox.Course
import Parley.Proofs.Inbox.House
import Parley.Proofs.Store.Snapshots
import Parley.Proofs.Store.Single
import Parley.Proofs.Inbox.Tickets
import Parley.Proofs.Store.Reopening
import Parley.Proofs.Json.Numbers
import Parley.Proofs.Json.RoundTrip
import Parley.Proofs.Flow.Document
import Parley.Proofs.Flow.Tidy
import Parley.Proofs.Registry.Republish
import Parley.Proofs.Store.Filing
import Parley.Proofs.Store.Flushing
import Parley.Proofs.Step.Again
import Parley.Proofs.Turn.Again
import Parley.Proofs.Turn.Limit
import Parley.Proofs.Step.Replies
import Parley.Proofs.Step.Sequence
import Parley.Proofs.Turn.Capture
import Parley.Proofs.Desk.Recording
import Parley.Proofs.Step.Welcome
import Parley.Proofs.Http.Attempts
import Parley.Proofs.Webhook.Retries
import Parley.Proofs.Json.Reading
import Parley.Proofs.Webhook.Sending
import Parley.Proofs.Template.Documents
import Parley.Proofs.Webhook.Bodies
import Parley.Proofs.Text.Case
import Parley.Proofs.Step.Menu
import Parley.Proofs.Turn.History
import Parley.Proofs.Turn.Tags
import Parley.Proofs.Step.Contracts
import Parley.Proofs.Turn.Contracts
import Parley.Proofs.Media.Readers
import Parley.Proofs.Step.Footprint
import Parley.Proofs.Flow.FirstMatch
import Parley.Proofs.Flow.Defects
import Parley.Proofs.Step.Shapes
import Parley.Proofs.Inbox.Exclusion
import Parley.Proofs.Condition.Laws
import Parley.Proofs.Condition.Verdicts
import Parley.Proofs.Text.Keywords
import Parley.Proofs.Turn.Deadline
import Parley.Proofs.Template.Parts
import Parley.Proofs.Registry.Choosing
import Parley.Proofs.Step.Wording
import Parley.Proofs.Store.Listing
import Parley.Proofs.Store.Damaged
import Parley.Proofs.Gateway.Errands
import Parley.Proofs.Flow.Spelling
import Parley.Proofs.Answer.Email
import Parley.Proofs.Turn.Logbook
