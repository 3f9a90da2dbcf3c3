import Ockam.Lib.BigEndian
import Ockam.Lib.StateMonad
import Ockam.Lib.Triple
import Ockam.Lib.Noise
import Ockam.Lib.Varint
import Ockam.Core.Error
import Ockam.Vault.Types
import Ockam.Vault.SoftwareVault
import Ockam.SecureChannel.NonceTracker
import Ockam.SecureChannel.KeyTracker
import Ockam.SecureChannel.Encryptor
import Ockam.SecureChannel.Decryptor
import Ockam.SecureChannel.Channel
import Ockam.Handshake.State
import Ockam.Handshake.Noise
import Ockam.Handshake.StateMachine
import Ockam.Handshake.Frame
import Ockam.Handshake.Authentication
import Ockam.Handshake.Agreement
import Ockam.Elixir.AeadAesGcm
import Ockam.Elixir.Channel
import Ockam.Elixir.Transport
import Ockam.Elixir.XX
import Ockam.Elixir.XXAgreement
import Ockam.Elixir.ChannelHandshake
import Ockam.MultiAddr.Proto
import Ockam.MultiAddr.Iter
import Ockam.MultiAddr.Basic
import Ockam.MultiAddr.Deque
import Ockam.MultiAddr.Text
import Ockam.MultiAddr.Decode
import Ockam.Abac.Expr
import Ockam.Abac.Eval
import Ockam.Abac.Semantics
import Ockam.Lib.AssocMap
import Ockam.FlowControl.FlowControls
import Ockam.FlowControl.Cleanup
import Ockam.Identity.Creation
import Ockam.Identity.Consistency
import Ockam.Node.InternalMap
import Ockam.Node.Router
import Ockam.Node.Addresses
import Ockam.Node.Shutdown
import Ockam.Portal.Worker
import Ockam.Portal.Lifecycle
import Ockam.Pipe.Ordering
import Ockam.Pipe.Delivery
import Ockam.Handshake.Decode
import Ockam.SecureChannel.KeyAccounting
import Ockam.SecureChannel.Schedule
import Ockam.Abac.Parser
import Ockam.Abac.Brackets
import Ockam.Lib.Lex
import Ockam.Abac.Order
import Ockam.Abac.OrderLaws
import Ockam.Abac.Printer
import Ockam.Abac.RoundTrip
import Ockam.Kafka.LengthDelimited
import Ockam.Transport.TcpFraming
import Ockam.Authenticator.EnrollmentTokens
import Ockam.Kafka.Interceptor
import Ockam.Abac.AccessControl
import Ockam.Identity.Verification
import Ockam.Lib.Peg
import Ockam.Lib.Decimal
import Ockam.Lib.ErlangTerm
import Ockam.AttributeRule.Rule
import Ockam.AttributeRule.Grammar
import Ockam.AttributeRule.Formatter
import Ockam.AttributeRule.RoundTrip
import Ockam.AttributeRule.Authorization
import Ockam.Lib.Decoder
import Ockam.Elixir.KafkaProtocol
import Ockam.Elixir.KafkaMetadata
import Ockam.Elixir.KafkaInterceptor
import Ockam.Elixir.KafkaRoundTrip
import Ockam.Elixir.KafkaReformat
import Ockam.Elixir.KafkaParser
import Ockam.Elixir.KafkaCorrelation
