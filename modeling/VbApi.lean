import VbApi.Activity.Days
import VbApi.Activity.Redact
import VbApi.Activity.RequestLogs
import VbApi.Archive.DirMoves
import VbApi.Archive.HealthCheck
import VbApi.Archive.Lifecycle
import VbApi.Archive.LifecycleRuns
import VbApi.Archive.Purge
import VbApi.Archive.PurgeBatch
import VbApi.Archive.PurgeImpact
import VbApi.Archive.ReadPaths
import VbApi.Archive.SequentialMoves
import VbApi.Archive.Stats
import VbApi.Archive.StoreItems
import VbApi.Auth.Accounts
import VbApi.Auth.AuthCalls
import VbApi.Auth.AuthEffects
import VbApi.Auth.GoogleBinding
import VbApi.Auth.IdleTimeout
import VbApi.Auth.PasswordReset
import VbApi.Auth.RefreshRotation
import VbApi.Contacts.History
import VbApi.Contacts.Records
import VbApi.Foundations.Answers
import VbApi.Foundations.Binary64
import VbApi.Foundations.Calendar
import VbApi.Foundations.Channels
import VbApi.Foundations.Closure
import VbApi.Foundations.DayCount
import VbApi.Foundations.Decimal
import VbApi.Foundations.DecimalText
import VbApi.Foundations.Dict
import VbApi.Foundations.Forest
import VbApi.Foundations.Generations
import VbApi.Foundations.Grouping
import VbApi.Foundations.Interleaving
import VbApi.Foundations.IsoDate
import VbApi.Foundations.IsoOrder
import VbApi.Foundations.JsonText
import VbApi.Foundations.KeyedEdits
import VbApi.Foundations.LikePattern
import VbApi.Foundations.LowerCase
import VbApi.Foundations.Machine
import VbApi.Foundations.Periods
import VbApi.Foundations.PyText
import VbApi.Foundations.QuotedLists
import VbApi.Foundations.Results
import VbApi.Foundations.RoseTrees
import VbApi.Foundations.Sorting
import VbApi.Foundations.Stateful
import VbApi.Foundations.Transactions
import VbApi.Foundations.TsQuery
import VbApi.Foundations.UniqueIndex
import VbApi.Foundations.ZoneRules
import VbApi.Http.BodyLimit
import VbApi.Members.BirthdayMails
import VbApi.Members.Calls
import VbApi.Members.Chronicle
import VbApi.Members.ChronicleRuns
import VbApi.Members.ChronicleWeek
import VbApi.Members.FamilyTree
import VbApi.Members.LogHistory
import VbApi.Members.MemberTree
import VbApi.Members.Organisations
import VbApi.Members.PermissionHistory
import VbApi.Members.RoleExclusivity
import VbApi.Members.RoleReplay
import VbApi.Members.RolesList
import VbApi.Members.SelectiveApproval
import VbApi.P4x.Accounts
import VbApi.P4x.AmountRange
import VbApi.P4x.BankTimes
import VbApi.P4x.CarbonDate
import VbApi.P4x.CategoryDeletion
import VbApi.P4x.CategoryFilters
import VbApi.P4x.CategoryReaders
import VbApi.P4x.CategoryViews
import VbApi.P4x.CategoryWrites
import VbApi.P4x.DebtorReminders
import VbApi.P4x.DirectLaw
import VbApi.P4x.DirectSplits
import VbApi.P4x.FeeBalance
import VbApi.P4x.FeeBalanceAgreement
import VbApi.P4x.FeeBalanceList
import VbApi.P4x.FeeConfiguration
import VbApi.P4x.FeeMonths
import VbApi.P4x.FeeWindows
import VbApi.P4x.Fees
import VbApi.P4x.FilterHits
import VbApi.P4x.FilterSubjects
import VbApi.P4x.FilterToDirect
import VbApi.P4x.HashPayload
import VbApi.P4x.Import
import VbApi.P4x.ImportErrors
import VbApi.P4x.ImportFiles
import VbApi.P4x.ImportFrame
import VbApi.P4x.ImportKeys
import VbApi.P4x.ImportMultiplicity
import VbApi.P4x.ImportRounds
import VbApi.P4x.Listings
import VbApi.P4x.Partners
import VbApi.P4x.PaymentAttribution
import VbApi.P4x.SplitPayments
import VbApi.P4x.Statements
import VbApi.P4x.Store
import VbApi.P4x.SumUpBalance
import VbApi.PublicSite.GalleryAndQuotes
import VbApi.PublicSite.ListRequests
import VbApi.PublicSite.Reorder
import VbApi.Search.PrefixQuery
import VbApi.Standesdb.ChangeRequestInvariant
import VbApi.Standesdb.ChangeRequestRuns
import VbApi.Standesdb.ChangeRequests
import VbApi.Standesdb.DefaultImages
import VbApi.Standesdb.MailingList
import VbApi.Storage.BackupHistory
import VbApi.Storage.BackupNames
import VbApi.Storage.Backups
import VbApi.Storage.ContentStore
import VbApi.Storage.DanglingObjects
import VbApi.Storage.Downsync
import VbApi.Storage.DownsyncRestore
import VbApi.Storage.MirrorOutcome
import VbApi.Storage.RestorePreview
import VbApi.System.Tables
