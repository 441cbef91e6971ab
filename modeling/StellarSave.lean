import StellarSave.HostProofs
import StellarSave.FootprintProofs
import StellarSave.TraceProofs
import StellarSave.TokenLedgerProofs
import StellarSave.SeatingProofs
import StellarSave.TallyProofs
import StellarSave.DataProofs
import StellarSave.ContributionProofs
import StellarSave.PayoutProofs
import StellarSave.ExecutorProofs
import StellarSave.RefundProofs
import StellarSave.MembershipProofs
import StellarSave.LifecycleProofs
import StellarSave.AdminProofs
import StellarSave.CallProofs
import StellarSave.BackingProofs
import StellarSave.GuardProofs
import StellarSave.RefundGateProofs
import StellarSave.LaunchProofs
import StellarSave.StatusProofs
import StellarSave.StatusCopiesProofs
import StellarSave.StatusMachineProofs
import StellarSave.StandingProofs
import StellarSave.RosterProofs
import StellarSave.FundedProofs
import StellarSave.EscrowProofs
import StellarSave.RotationProofs
import StellarSave.FilingProofs
import StellarSave.CompletionProofs
import StellarSave.FreezeProofs
import StellarSave.TickProofs
import StellarSave.BallotProofs
import StellarSave.AmountProofs
import StellarSave.DissolutionProofs
import StellarSave.MergeProofs
import StellarSave.LimitsProofs
import StellarSave.DeadlineProofs
import StellarSave.ViewProofs
import StellarSave.IndexProofs
import StellarSave.AllowlistProofs
import StellarSave.CreatorProofs
import StellarSave.ProofGateProofs
import StellarSave.RecordProofs
import StellarSave.RewardProofs
import StellarSave.DisputeProofs
import StellarSave.TypingProofs
import StellarSave.LayoutProofs
import StellarSave.BalanceProofs
import StellarSave.ReadingProofs
import StellarSave.TextProofs
import StellarSave.JsonProofs
import StellarSave.IsoProofs
import StellarSave.ChainProofs
import StellarSave.AuditProofs
import StellarSave.TrailProofs
import StellarSave.DoubleProofs
import StellarSave.WebhookProofs
import StellarSave.RetryProofs
import StellarSave.PoolProofs
import StellarSave.QuotaProofs
import StellarSave.ChallengeProofs
import StellarSave.SessionProofs
import StellarSave.PagingProofs
import StellarSave.SearchProofs
import StellarSave.MigrationProofs
import StellarSave.HandoverProofs
import StellarSave.ReentryProofs
import StellarSave.CallbackProofs
import StellarSave.BreakerProofs
import StellarSave.ClientPoolProofs
import StellarSave.FrontierProofs
import StellarSave.HorizonProofs
import StellarSave.ExportProofs
import StellarSave.NotificationProofs
import StellarSave.CacheProofs
import StellarSave.BackupProofs
import StellarSave.KeyRotationProofs
import StellarSave.GatewayProofs
import StellarSave.EventServiceProofs
import StellarSave.SyncQueueProofs
import StellarSave.RankingProofs
import StellarSave.CountSearchProofs
import StellarSave.SelectionProofs
import StellarSave.HistoryProofs
import StellarSave.ListingProofs
import StellarSave.MemberPagesProofs
import StellarSave.StreakProofs
import StellarSave.MilestoneProofs
import StellarSave.DrawProofs
import StellarSave.ClockProofs
import StellarSave.RatingProofs
import StellarSave.PackedProofs
import StellarSave.BitmapProofs
import StellarSave.UnitsProofs
import StellarSave.ReplacementProofs
import StellarSave.PatternProofs
import StellarSave.SanitizerProofs
import StellarSave.BaseProofs
import StellarSave.CrcProofs
import StellarSave.StrKeyProofs
import StellarSave.PenaltyProofs
import StellarSave.BatchProofs
import StellarSave.WithdrawalProofs
import StellarSave.RejoinProofs
import StellarSave.WindowProofs
import StellarSave.LimiterProofs
import StellarSave.RampProofs
import StellarSave.NumeralProofs
import StellarSave.CursorProofs
import StellarSave.ShapeProofs
import StellarSave.KeeperProofs
import StellarSave.PinningProofs
import StellarSave.CalendarProofs
import StellarSave.ReminderProofs
import StellarSave.FragmentProofs
import StellarSave.ComplexityProofs
import StellarSave.SubstitutionProofs
import StellarSave.TemplateProofs
import StellarSave.OverlapProofs
import StellarSave.ReputationProofs
import StellarSave.ShuffleProofs
import StellarSave.RateProofs
import StellarSave.AcquireProofs
import StellarSave.TieredCacheProofs
import StellarSave.BatcherProofs
import StellarSave.WalkProofs
import StellarSave.BrowserCacheProofs
import StellarSave.ReloadProofs
import StellarSave.KycProofs
import StellarSave.ReconcileProofs
import StellarSave.ConsentProofs
import StellarSave.IsolationProofs
import StellarSave.BooksProofs
import StellarSave.VacantProofs
import StellarSave.DbRotationProofs
import StellarSave.ProposalProofs
import StellarSave.FixedWindowProofs
import StellarSave.ApiKeyProofs
import StellarSave.SecretsProofs
import StellarSave.RecommendationProofs
import StellarSave.BucketProofs
import StellarSave.BackoffProofs
import StellarSave.OrderedMapProofs
import StellarSave.RegistryProofs
import StellarSave.SseProofs
import StellarSave.PushReminderProofs
import StellarSave.FunnelProofs
import StellarSave.AsyncDataProofs
import StellarSave.XorshiftProofs
import StellarSave.FuzzProofs
