import HttpSession.Time.HttpDate
import HttpSession.Text.Quotes
import HttpSession.Text.Integer
import HttpSession.Text.Shown
import HttpSession.Text.Uppercase
import HttpSession.Bytes.Base64
import HttpSession.Bytes.Utf16
import HttpSession.Hash.Md4
import HttpSession.Hash.Sha256
import HttpSession.Hash.Hmac
import HttpSession.Message.Status
import HttpSession.Message.Request
import HttpSession.Exchange.Hops
import HttpSession.Exchange.Tunnel
import HttpSession.Cookie.File
import HttpSession.Settings.Reading
import HttpSession.CommandLine.Reading
import HttpSession.CommandLine.Setup
import HttpSession.Report
import HttpSession.Main
import HttpSession.Proofs.Exchange.Isolation
import HttpSession.Proofs.Exchange.Bounds
import HttpSession.Proofs.Exchange.Disclosure
import HttpSession.Proofs.Exchange.AuthFaults
import HttpSession.Proofs.Cookie.PolicyLaws
import HttpSession.Proofs.Cookie.StoreLaws
import HttpSession.Proofs.Cookie.StoreHistory
import HttpSession.Proofs.Cookie.SentBack
import HttpSession.Proofs.Exchange.Cookies
import HttpSession.Proofs.Cookie.HeaderLaws
import HttpSession.Proofs.Cookie.BestMatch
import HttpSession.Proofs.Cookie.HostOnly
import HttpSession.Proofs.Cookie.Refinement
import HttpSession.Proofs.Cookie.Purging
import HttpSession.Proofs.Auth.Coherence
import HttpSession.Proofs.Auth.StateLaws
import HttpSession.Proofs.Exchange.SwitchedOff
import HttpSession.Proofs.Auth.RepeatedChallenges
import HttpSession.Proofs.Exchange.OneAnswer
import HttpSession.Proofs.ExceptLaws
import HttpSession.Proofs.Exchange.Trail
import HttpSession.Proofs.Auth.NtlmMessages
import HttpSession.Proofs.Auth.ParameterLaws
import HttpSession.Proofs.Auth.DigestAnswer
import HttpSession.Proofs.Cookie.FileLaws
import HttpSession.Proofs.Cookie.Completeness
import HttpSession.Proofs.Auth.Handshakes
import HttpSession.Proofs.Cookie.Defaults
import HttpSession.Proofs.Auth.WrittenChallenges
import HttpSession.Proofs.Time.CalendarLaws
import HttpSession.Proofs.Time.DateTexts
import HttpSession.Proofs.Cookie.Dates
import HttpSession.Proofs.Auth.FreshTokens
import HttpSession.Proofs.Auth.NonceCounts
import HttpSession.Proofs.Auth.MessageLayout
import HttpSession.Proofs.Auth.ServerMessages
import HttpSession.Proofs.Exchange.Bodies
import HttpSession.Proofs.Exchange.Methods
import HttpSession.Proofs.Exchange.CleanAttempts
import HttpSession.Proofs.Exchange.Tunnels
import HttpSession.Proofs.Auth.VaultLaws
import HttpSession.Proofs.Auth.Selection
import HttpSession.Proofs.Cookie.Warnings
import HttpSession.Proofs.Settings.WrittenFiles
import HttpSession.Proofs.Auth.Restarts
import HttpSession.Proofs.Message.HeaderLists
import HttpSession.Proofs.Cookie.Offsets
