import OtaUpgrade.Checksum.Bitwise
import OtaUpgrade.Link.Faulty
import OtaUpgrade.Main
import OtaUpgrade.Proofs.Session.Books
import OtaUpgrade.Proofs.Session.Proceed
import OtaUpgrade.Proofs.Session.Reply
import OtaUpgrade.Proofs.Session.Complete
import OtaUpgrade.Proofs.Session.SoundStep
import OtaUpgrade.Proofs.Session.DeviceView
import OtaUpgrade.Proofs.Session.Chronicle
import OtaUpgrade.Proofs.Session.Accounts
import OtaUpgrade.Proofs.Session.Success
import OtaUpgrade.Proofs.Session.Entries
import OtaUpgrade.Proofs.Session.Itinerary
import OtaUpgrade.Proofs.Session.Ledger
import OtaUpgrade.Proofs.Session.Deadline
import OtaUpgrade.Proofs.Session.Expiry
import OtaUpgrade.Proofs.Session.Timely
import OtaUpgrade.Proofs.Link.Forecast
import OtaUpgrade.Proofs.Link.Replies
import OtaUpgrade.Proofs.Link.Transparent
import OtaUpgrade.Proofs.Link.Agreement
import OtaUpgrade.Proofs.Link.Soundness
import OtaUpgrade.Proofs.Link.Course
import OtaUpgrade.Proofs.Link.Delivery
import OtaUpgrade.Proofs.Session.Advancing
import OtaUpgrade.Proofs.Session.Stopping
import OtaUpgrade.Proofs.Session.CallScript
import OtaUpgrade.Proofs.Session.Conformance
import OtaUpgrade.Proofs.Session.Hosted
import OtaUpgrade.Proofs.Session.Ending
import OtaUpgrade.Proofs.Session.FirstError
import OtaUpgrade.Proofs.Session.UnexpectedEvents
import OtaUpgrade.Proofs.Link.SideBySide
import OtaUpgrade.Proofs.Link.Willing
import OtaUpgrade.Proofs.Link.UpgradeInvariant
import OtaUpgrade.Proofs.Link.Replied
import OtaUpgrade.Proofs.Link.MovesLeft
import OtaUpgrade.Proofs.Link.Completion
import OtaUpgrade.Proofs.Checksum.Partition
import OtaUpgrade.Proofs.Session.Modes
import OtaUpgrade.Proofs.Session.Overlay
import OtaUpgrade.Proofs.Session.Failing
import OtaUpgrade.Proofs.Link.Defect
import OtaUpgrade.Proofs.Link.UntilFault
import OtaUpgrade.Proofs.Link.Diagnosis
import OtaUpgrade.Proofs.Session.Breakdown
import OtaUpgrade.Proofs.Manager.OneAtATime
import OtaUpgrade.Proofs.Manager.Release
import OtaUpgrade.Proofs.Session.LinkClosing
import OtaUpgrade.Proofs.Link.Terminal
import OtaUpgrade.Proofs.Link.LeftConnected
import OtaUpgrade.Proofs.Link.Nonces
import OtaUpgrade.Proofs.Link.Exchange
import OtaUpgrade.Proofs.Config.Room
import OtaUpgrade.Proofs.Session.Bounds
import OtaUpgrade.Proofs.Session.Unbroken
import OtaUpgrade.Proofs.Session.Sizing
import OtaUpgrade.Proofs.Link.Relay
import OtaUpgrade.Proofs.Link.Fitting
import OtaUpgrade.Proofs.Session.Verdict
import OtaUpgrade.Proofs.Session.Signals
import OtaUpgrade.Proofs.Session.Bulletins
import OtaUpgrade.Proofs.Session.Outstanding
import OtaUpgrade.Proofs.Crypto.Opening
import OtaUpgrade.Proofs.Session.Indifferent
import OtaUpgrade.Proofs.Session.TimeoutFailure
import OtaUpgrade.Proofs.Session.Renumbered
import OtaUpgrade.Proofs.Session.Indicated
import OtaUpgrade.Proofs.Session.IdentityImmaterial
import OtaUpgrade.Proofs.Session.SuccessDespiteError
import OtaUpgrade.Proofs.Link.Postings
import OtaUpgrade.Proofs.Link.PeripheralVerification
import OtaUpgrade.Proofs.Link.RoomOutcome
import OtaUpgrade.Proofs.Cli.InspectionForetells
import OtaUpgrade.Proofs.Toml.Texts
import OtaUpgrade.Proofs.Toml.Numerals
import OtaUpgrade.Proofs.Toml.Documents
import OtaUpgrade.Proofs.Config.Saved
import OtaUpgrade.Proofs.Session.Settling
