import PayCore.Library.KeyedTable
import PayCore.Library.SessionProgram
import PayCore.Library.SessionSystem
import PayCore.Library.RelyGuarantee
import PayCore.Model.Tables
import PayCore.Model.Writes
import PayCore.Model.Repositories
import PayCore.Service.Payments
import PayCore.Service.Funding
import PayCore.Service.Registration
import PayCore.Library.SerialRuns
import PayCore.Proof.Commits
import PayCore.Proof.Statements
import PayCore.Proof.Requests
import PayCore.Proof.Movements
import PayCore.Proof.Openings
import PayCore.Proof.Handlers
import PayCore.Proof.Coherence
import PayCore.Proof.JobRules
import PayCore.Result.WalletBalances
import PayCore.Proof.StatusMoves
import PayCore.Result.StatusTransitions
import PayCore.Result.FundingCredits
import PayCore.Result.PayoutSettlements
import PayCore.Proof.Books
import PayCore.Proof.SerialJobs
import PayCore.Result.SerialBooks
import PayCore.Proof.SoloHandlers
import PayCore.Result.Reversals
import PayCore.Result.FundingOutcomes
import PayCore.Proof.Regularity
import PayCore.Result.IdempotencyKeys
import PayCore.Result.SharedKeys
import PayCore.Result.ActiveWithdrawals
import PayCore.Result.FraudRules
import PayCore.Result.DailyLimits
import PayCore.Library.LoneSessions
import PayCore.Proof.AskRules
import PayCore.Proof.DispatchRules
import PayCore.Service.Accounts
import PayCore.Service.Kyc
import PayCore.Service.Merchants
import PayCore.Proof.LoneRules
import PayCore.Service.Operations
import PayCore.Proof.KycRules
import PayCore.Result.KycTiers
import PayCore.Result.PayoutDispatches
import PayCore.Library.DurableSessions
import PayCore.Proof.CommitRules
import PayCore.Proof.AccountCommits
import PayCore.Result.CommittedRequests
import PayCore.Library.LockOrder
import PayCore.Proof.LockRules
import PayCore.Result.DeadlockFreedom
import PayCore.Library.SessionHistories
import PayCore.Result.CommittedAnswers
import PayCore.Result.ChargeAmounts
import PayCore.Library.ChosenRows
import PayCore.Proof.BankAccountRules
import PayCore.Result.DefaultAccounts
import PayCore.Proof.PayoutAccountRules
import PayCore.Result.PayoutAccounts
import PayCore.Service.Endpoints
import PayCore.Proof.RoleRules
import PayCore.Result.AdminRoles
import PayCore.Library.Lineages
import PayCore.Proof.TokenRules
import PayCore.Result.SingleUseTokens
import PayCore.Proof.KycRaces
import PayCore.Result.KycReviews
import PayCore.Library.GuardedRuns
import PayCore.Service.DeliveryQueue
import PayCore.Proof.DeliveryRules
import PayCore.Result.StrandedDeliveries
import PayCore.Result.DeliveryAttempts
import PayCore.Result.DeliveredOnce
import PayCore.Library.RunningTotals
import PayCore.Result.LedgerSnapshots
import PayCore.Library.HexText
import PayCore.Library.Replacing
import PayCore.Service.Documents
import PayCore.Result.DocumentKeys
import PayCore.Result.UncreditedCharges
import PayCore.Library.Paging
import PayCore.Service.Listings
import PayCore.Result.ListedPages
import PayCore.Library.AlikeRuns
import PayCore.Library.Failures
import PayCore.Proof.KeyBlindness
import PayCore.Proof.FailureRules
import PayCore.Result.KeyClashes
import PayCore.Result.ProfileClashes
import PayCore.Library.JsonText
import PayCore.Result.ReceivedWebhooks
import PayCore.Library.SessionSteps
import PayCore.Library.WriteCounts
import PayCore.Library.Following
import PayCore.Service.ApiKeys
import PayCore.Library.LatestEntries
import PayCore.Proof.KeyRules
import PayCore.Result.MerchantKeys
import PayCore.Library.StandingInvariants
import PayCore.Model.ForeignKeys
import PayCore.Proof.KeptRecords
import PayCore.Proof.ProperAccounts
import PayCore.Result.SoundRecords
import PayCore.Service.Reconciliation
import PayCore.Proof.OwnRows
import PayCore.Proof.SharedBooks
import PayCore.Library.EscrowBank
import PayCore.Proof.BankMoves
import PayCore.Result.BankRuns
import PayCore.Library.BatchedPasses
import PayCore.Proof.SweepRules
import PayCore.Result.SweptBacklogs
import PayCore.Proof.Estates
import PayCore.Service.Reads
import PayCore.Result.Isolation
import PayCore.Service.Traffic
import PayCore.Proof.Vetting
import PayCore.Proof.VettingRules
import PayCore.Result.VettedSpendings
import PayCore.Library.DecimalArithmetic
import PayCore.Service.DecimalAmounts
import PayCore.Proof.CountedAmounts
import PayCore.Result.DecimalBooks
import PayCore.Library.BackedCalls
import PayCore.Proof.Backings
import PayCore.Proof.AskedCalls
import PayCore.Proof.BackingRules
import PayCore.Proof.BackedSessions
import PayCore.Result.BackedMessages
