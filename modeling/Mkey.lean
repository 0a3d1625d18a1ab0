import Mkey.Lib.Machine
import Mkey.Lib.Monitor
import Mkey.Lib.Loop
import Mkey.Lib.Cbc
import Mkey.Lib.Crc
import Mkey.Lib.Chunks
import Mkey.Lib.Aes
import Mkey.Lib.Ber
import Mkey.Lib.Guarded
import Mkey.Lib.Search
import Mkey.Core.Error
import Mkey.Core.Crypto
import Mkey.Core.Base62
import Mkey.Core.MobileKey
import Mkey.Core.MobileKeySteps
import Mkey.Core.Ssp
import Mkey.Core.SspSteps
import Mkey.Core.OpResult
import Mkey.Core.Justin
import Mkey.Core.Stack
import Mkey.Core.StackSteps
import Mkey.Session.Types
import Mkey.Session.Session
import Mkey.Session.Steps
import Mkey.Session.Protocol
import Mkey.Session.Batches
import Mkey.Session.History
import Mkey.Ble.Pump
import Mkey.Ble.Advertisement
import Mkey.Ble.Lock
import Mkey.Ble.Btleplug
import Mkey.Virgil.Container
import Mkey.Wasm.Wire
import Mkey.Wasm.Session
import Mkey.Checked.Crypto
import Mkey.Checked.Base62
import Mkey.Checked.Ssp
import Mkey.Checked.Stack
import Mkey.Checked.Session
import Mkey.Properties.KeyIntegrity
import Mkey.Properties.SecureChannel
import Mkey.Properties.Authentication
import Mkey.Properties.WriteIntegrity
import Mkey.Properties.Noninterference
import Mkey.Properties.Verdict
import Mkey.Properties.PumpExit
import Mkey.Properties.ActionTrace
import Mkey.Properties.KeyCodec
import Mkey.Properties.Rejection
import Mkey.Properties.AuditLatch
import Mkey.Properties.SystemTags
import Mkey.Properties.PumpContract
import Mkey.Properties.Timers
import Mkey.Properties.Traffic
import Mkey.Properties.Handshake0100
import Mkey.Properties.Container
import Mkey.Properties.NoPanic
import Mkey.Properties.TagWrites
import Mkey.Properties.Identifiers
import Mkey.Properties.Checksums
import Mkey.Properties.SspRuns
import Mkey.Properties.LockLifecycle
import Mkey.Properties.ConnectedLink
import Mkey.Properties.Conversation
import Mkey.Properties.Attempt
import Mkey.Properties.PumpRuns
import Mkey.Properties.TagStore
import Mkey.Properties.OpeningMode
import Mkey.Properties.Searches
import Mkey.Properties.LinkProtocol
import Mkey.Properties.GattTraffic
import Mkey.Properties.BrowserSession
import Mkey.Properties.Attempt0100
import Mkey.Properties.Provisioning
import Mkey.Properties.Keystore
import Mkey.Ble.Desktop
import Mkey.Properties.DesktopDriver
import Mkey.Properties.SdkOpen
