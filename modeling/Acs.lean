import Acs.Domain.DisableRuns
import Acs.Domain.DmPasswordRuns
import Acs.Domain.OnDynamo
import Acs.Domain.ServiceSteps
import Acs.Domain.Service
import Acs.Protocol.Builder
import Acs.Protocol.Document
import Acs.Protocol.Request
import Acs.Api.MsisdnIndex
import Acs.Data.SecondaryIndex
import Acs.Interleave.Exec
import Acs.Interleave.Runs
import Acs.Store.OtpContract
import Acs.Store.DynamoDb
import Acs.Auth.OtpRuns
import Acs.Auth.OtpDiscard
import Acs.Auth.OtpIssue
import Acs.Auth.Revocation
import Acs.Omadm.MessageSize
import Acs.Omadm.Refusals
import Acs.Omadm.Enumeration
import Acs.Domain.OtpOwnerRuns
import Acs.Domain.Allowlist
import Acs.Domain.ConfigurationProof
import Acs.Omadm.RequestPaths
import Acs.Omadm.WbxmlSafety
import Acs.Omadm.Splitting
import Acs.Omadm.MoLoad
import Acs.Omadm.Interiors
import Acs.Protocol.Parameters
import Acs.Protocol.Rendering
import Acs.Protocol.Catalog
import Acs.Protocol.Exactness
import Acs.Omadm.SessionKeys
import Acs.Omadm.Inventory
import Acs.Domain.GbaProof
import Acs.Domain.PendingSignal
import Acs.Domain.VersionRuns
import Acs.Omadm.Comments
import Acs.Omadm.WbxmlIntegers
import Acs.Protocol.Merging
import Acs.Api.Spellings
import Acs.Auth.Directives
import Acs.Api.Credentials
import Acs.Data.Octets
import Acs.Data.Utf16
import Acs.Sms.Smpp
import Acs.Sms.SubmitSm
import Acs.Data.Socket
import Acs.Sms.Session
import Acs.Sms.Exchange
import Acs.Sms.Sender
import Acs.Omadm.Failures
import Acs.Omadm.Portions
import Acs.Omadm.Completion
import Acs.Omadm.Isolation
import Acs.Omadm.Retries
import Acs.Omadm.Rounds
