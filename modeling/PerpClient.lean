import PerpClient.Bytes.Hex
import PerpClient.Bytes.Base58
import PerpClient.Hash.Sha256
import PerpClient.Hash.Sha512
import PerpClient.Curve.Field
import PerpClient.Curve.Edwards
import PerpClient.Curve.Signing
import PerpClient.Address.Basic
import PerpClient.Address.Derive
import PerpClient.Program
import PerpClient.Account.Layout
import PerpClient.Account.OracleSource
import PerpClient.Account.Status
import PerpClient.Account.Records
import PerpClient.Account.Codec
import PerpClient.Account.Decoded
import PerpClient.Account.Schema
import PerpClient.Text.Utf8
import PerpClient.Text.Name
import PerpClient.Error
import PerpClient.Time.Duration
import PerpClient.Budget
import PerpClient.Transaction.Message
import PerpClient.Transaction.Wire
import PerpClient.Transaction.ComputeBudget
import PerpClient.Json.Value
import PerpClient.Api.Input
import PerpClient.Api.Records
import PerpClient.Api.Basic
import PerpClient.Api.Dispatch
import PerpClient.Cache
import PerpClient.Api.Steps
import PerpClient.Api.Cache
import PerpClient.Ordered
import PerpClient.Store.Tracked
import PerpClient.Api.Tracked
import PerpClient.Remaining.SlotTable
import PerpClient.Remaining.Resolver
import PerpClient.Api.Resolver
import PerpClient.Store.AccountStore
import PerpClient.Api.Store
import PerpClient.Transaction.Compile
import PerpClient.Transaction.Sign
import PerpClient.Ledger.Rpc
import PerpClient.Transaction.Builder
import PerpClient.Ledger.Scripted
import PerpClient.Api.Ledger
import PerpClient.Api.Build
import PerpClient.Loader
import PerpClient.Api.Loader
import PerpClient.Session.State
import PerpClient.Ledger.Unreachable
import PerpClient.Session.Tasks
import PerpClient.Session.Subscriber
import PerpClient.Session.Sender
import PerpClient.Session.Client
import PerpClient.Api.Session
import PerpClient.Bytes.Base64
import PerpClient.Bytes.Zstd
import PerpClient.Json.Reading
import PerpClient.Ledger.TransactionError
import PerpClient.Ledger.TableAccount
import PerpClient.Ledger.Remote
import PerpClient.Api.Rpc
import PerpClient.Proofs.CacheHistory
import PerpClient.Proofs.Buckets
import PerpClient.Proofs.RemainingAccounts
import PerpClient.Proofs.StoreBatch
import PerpClient.Proofs.Readers
import PerpClient.Proofs.AccountDecoding
import PerpClient.Proofs.AccountOrder
import PerpClient.Proofs.ResolveOutcome
import PerpClient.Proofs.SessionFrame
import PerpClient.Proofs.LastActiveTable
import PerpClient.Proofs.BatchLoader
import PerpClient.Proofs.OracleDiscovery
import PerpClient.Proofs.SubscriberRuns
import PerpClient.Proofs.TrackedMerge
import PerpClient.Proofs.ComboRound
import PerpClient.Proofs.SendLoop
import PerpClient.Proofs.ChunkedFlush
import PerpClient.Proofs.ComputeUnits
import PerpClient.Proofs.FreshLoads
import PerpClient.Proofs.CompiledLimit
import PerpClient.Proofs.BuildBudget
import PerpClient.Proofs.Backoff
import PerpClient.Proofs.PaddedNames
import PerpClient.Proofs.SharedBlockhash
