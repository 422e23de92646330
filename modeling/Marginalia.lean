import Marginalia.Main
import Marginalia.Message
import Marginalia.Rehearsal.Course
import Marginalia.Proofs.Pending
import Marginalia.Proofs.Watcher.History
import Marginalia.Proofs.Block
import Marginalia.Proofs.Lookout.Basic
import Marginalia.Proofs.Lookout.NothingLost
import Marginalia.Proofs.Watcher.Supersession
import Marginalia.Proofs.Watcher.Omission
import Marginalia.Proofs.Assembly.Subscriptions
import Marginalia.Proofs.Watcher.Unnoticed
import Marginalia.Proofs.Lookout.Agreement
import Marginalia.Proofs.Notifier.InitialScan
import Marginalia.Proofs.Notifier.Hearing
import Marginalia.Proofs.Notifier.Order
import Marginalia.Proofs.Notifier.Debounce
import Marginalia.Proofs.Notifier.Closing
import Marginalia.Proofs.Assembly.Letters
import Marginalia.Proofs.Assembly.Pauses
import Marginalia.Proofs.Assembly.FailedDeliveries
import Marginalia.Proofs.Watcher.Lifecycle
import Marginalia.Proofs.Watcher.News
import Marginalia.Proofs.Marker.Grammar
import Marginalia.Proofs.Marker.Patterns
import Marginalia.Proofs.Marker.Spelling
import Marginalia.Proofs.Grouping
import Marginalia.Proofs.Message
import Marginalia.Proofs.Watcher.Telling
import Marginalia.Proofs.Watcher.Attaching
import Marginalia.Proofs.Pending.History
import Marginalia.Proofs.Notifier.Hindered
import Marginalia.Proofs.Notifier.Relocation
import Marginalia.Proofs.Watcher.HandedPatterns
import Marginalia.Proofs.Notifier.FailingListeners
import Marginalia.Proofs.Notifier.SeveralDirectories
import Marginalia.Proofs.Block.Keys
import Marginalia.Proofs.Block.Locality
import Marginalia.Proofs.Path.Containment
import Marginalia.Proofs.Message.Headings
import Marginalia.Proofs.Block.LineEnds
import Marginalia.Proofs.Settings.Patterns
