import FogoSessions.Lib.Bytes
import FogoSessions.Lib.Result
import FogoSessions.Lib.Word
import FogoSessions.Lib.Borsh
import FogoSessions.Lib.BorshPrefix
import FogoSessions.Lib.Base58
import FogoSessions.Lib.Text
import FogoSessions.Lib.ParserLaws
import FogoSessions.Intents.Lines
import FogoSessions.SessionManager.Reading
import FogoSessions.Solana.Pubkey
import FogoSessions.Solana.Instruction
import FogoSessions.Solana.Ed25519Program
import FogoSessions.Intents.OffchainMessage
import FogoSessions.Intents.OffchainWire
import FogoSessions.Intents.OffchainGrammar
import FogoSessions.Intents.Intent
import FogoSessions.Intents.Verified
import FogoSessions.Intents.Legacy
import FogoSessions.Solana.Message
import FogoSessions.Paymaster.Gas
import FogoSessions.Lib.Task
import FogoSessions.Lib.Interleave
import FogoSessions.Paymaster.External
import FogoSessions.Paymaster.ChainIndex
import FogoSessions.IntentTransfer.SignedQuote
import FogoSessions.Paymaster.GasCap
import FogoSessions.Paymaster.Fee
import FogoSessions.Paymaster.Transaction
import FogoSessions.ProgramIds
import FogoSessions.Paymaster.DataConstraint
import FogoSessions.Paymaster.Constraint
import FogoSessions.Lib.Hex
import FogoSessions.Solana.Address
import FogoSessions.Paymaster.Templates
import FogoSessions.Paymaster.Config
import FogoSessions.Paymaster.DomainState
import FogoSessions.Paymaster.Tenants
import FogoSessions.Paymaster.Malformed
import FogoSessions.Paymaster.LookupTables
import FogoSessions.Paymaster.Greedy
import FogoSessions.Paymaster.Wrapping
import FogoSessions.Paymaster.Admission
import FogoSessions.Paymaster.Signing
import FogoSessions.Paymaster.Positions
import FogoSessions.Paymaster.IntentTemplate
import FogoSessions.Paymaster.FeeHandler
import FogoSessions.Paymaster.FeeQuote
import FogoSessions.Paymaster.GasSpend
import FogoSessions.Paymaster.DataSpec
import FogoSessions.Paymaster.DataRefinement
import FogoSessions.Lib.Json
import FogoSessions.Lib.Table
import FogoSessions.Paymaster.ConfigJson
import FogoSessions.Paymaster.Database
import FogoSessions.Paymaster.ConfigSync
import FogoSessions.Paymaster.ConfigLoad
import FogoSessions.Paymaster.ConfigRoundTrip
import FogoSessions.PaymasterAdmin.DbSchema
import FogoSessions.PaymasterAdmin.Enforceable
import FogoSessions.Lib.Parser
import FogoSessions.Intents.KeyValue
import FogoSessions.Sdk.Session
import FogoSessions.Sdk.SystemProgram
import FogoSessions.SdkTs.Ed25519
import FogoSessions.SdkTs.Intent
import FogoSessions.SdkTs.StartSession
import FogoSessions.Lib.Decimal
import FogoSessions.IntentTransfer.Message
import FogoSessions.SdkTs.Transfer
import FogoSessions.Solana.Ledger
import FogoSessions.Solana.Runtime
import FogoSessions.Solana.SystemProgram
import FogoSessions.Solana.TokenProgram
import FogoSessions.Solana.AnchorSpl
import FogoSessions.Solana.Anchor
import FogoSessions.Tollbooth.Program
import FogoSessions.SessionManager.Message
import FogoSessions.DomainRegistry.Record
import FogoSessions.DomainRegistry.Program
import FogoSessions.DomainRegistry.Effects
import FogoSessions.DomainRegistry.RecordSet
import FogoSessions.ChainId
import FogoSessions.ChainId.Program
import FogoSessions.SessionManager.Program
import FogoSessions.SessionManager.Effects
import FogoSessions.Lib.History
import FogoSessions.Sessions.System
import FogoSessions.Sessions.Records
import FogoSessions.Sessions.Lifecycle
import FogoSessions.Sessions.Authorization
import FogoSessions.Sessions.Revocation
import FogoSessions.Sessions.Delegation
import FogoSessions.Intents.Trailing
import FogoSessions.SessionManager.Extra
import FogoSessions.SessionManager.Revoking
import FogoSessions.SessionManager.Closing
import FogoSessions.SessionManager.Approving
import FogoSessions.SessionManager.Symbols
import FogoSessions.SdkTs.Approvals
import FogoSessions.IntentTransfer.Verify
import FogoSessions.IntentTransfer.ExecAmount
import FogoSessions.IntentTransfer.Recipient
import FogoSessions.Lib.Rounding
import FogoSessions.Lib.BigIntText
import FogoSessions.Solana.UiAmount
import FogoSessions.SdkReact.Amount
import FogoSessions.SdkReact.TypedAmount
import FogoSessions.Intents.Rendering
import FogoSessions.DomainRegistry.Rent
import FogoSessions.Sdk.TokenProgram
import FogoSessions.Paymaster.Swap
import FogoSessions.Paymaster.Reconnect
import FogoSessions.Paymaster.TollRecipients
import FogoSessions.Lib.Counter
import FogoSessions.Solana.Custody
import FogoSessions.Solana.Balances
import FogoSessions.IntentTransfer.Accounts
import FogoSessions.IntentTransfer.Ntt
import FogoSessions.IntentTransfer.Program
import FogoSessions.IntentTransfer.Effects
import FogoSessions.IntentTransfer.Settlement
import FogoSessions.IntentTransfer.System
import FogoSessions.IntentTransfer.ExactlyOnce
import FogoSessions.IntentTransfer.Settled
import FogoSessions.Lib.Matching
import FogoSessions.Solana.Replay
import FogoSessions.Solana.Lamports
import FogoSessions.Solana.Native
import FogoSessions.Lib.Calls
import FogoSessions.Paymaster.Sending
import FogoSessions.Paymaster.Delivery
import FogoSessions.Paymaster.SponsorAndSend
import FogoSessions.Sessions.Authority
import FogoSessions.Lib.RoundRobin
import FogoSessions.Paymaster.SponsorPubkey
import FogoSessions.Paymaster.PooledHttpSender
import FogoSessions.Paymaster.RecentSignatures
