import PrintLatch.Queue.Printing
import PrintLatch.Queue.SecondStart
import PrintLatch.Queue.Copies
import PrintLatch.Queue.Signal
import PrintLatch.Queue.Overtaking
import PrintLatch.Queue.Settling
import PrintLatch.Db.Contention
import PrintLatch.Db.Initialize
import PrintLatch.Auth.Tokens
import PrintLatch.Auth.Pairing
import PrintLatch.Auth.StableClient
import PrintLatch.Auth.Redemption
import PrintLatch.Dashboard.Handshake
import PrintLatch.Api.Isolation
import PrintLatch.Api.Rejection
import PrintLatch.Storage.Documents
import PrintLatch.Storage.Captures
import PrintLatch.PdfGuard.ActiveContent
import PrintLatch.PdfGuard.Declarations
import PrintLatch.Sdk.Errors
import PrintLatch.Api.Fallback
import PrintLatch.Dashboard.Browser
import PrintLatch.Ui.Tracking
import PrintLatch.Auth.Supported
import PrintLatch.Api.Repeated
import PrintLatch.Api.OperatorIndex
import PrintLatch.Ui.Listing
import PrintLatch.Ui.Diagnosis
import PrintLatch.Ui.PairingCode
import PrintLatch.Dashboard.HonestAgent
import PrintLatch.Desktop.Accountability
import PrintLatch.Desktop.Strangers
import PrintLatch.Api.CrossOrigin
import PrintLatch.Sdk.JobForm
import PrintLatch.Queue.Drain
import PrintLatch.Ui.Confirm
import PrintLatch.Dashboard.Connection
import PrintLatch.Auth.Listing
import PrintLatch.Desktop.Documents
import PrintLatch.Sdk.Browser
import PrintLatch.Api.Denial
import PrintLatch.Ui.Session
import PrintLatch.Ui.SignedIn
