import SaasBackend.ProjectIsolation
import SaasBackend.AccountDeletion
import SaasBackend.OwnershipRaces
import SaasBackend.HandlerFailures
import SaasBackend.HandlerProgram
import SaasBackend.HandlerInterleaving
import SaasBackend.HandlerHistory
import SaasBackend.HandlerTurnstile
import SaasBackend.KeyedTable
import SaasBackend.Schema
import SaasBackend.Statements
import SaasBackend.StatementEffects
import SaasBackend.AuthTokens
import SaasBackend.AuthService
import SaasBackend.TwoFactorService
import SaasBackend.AccountService
import SaasBackend.FeatureFlagService
import SaasBackend.RequestGuards
import SaasBackend.OrganizationService
import SaasBackend.ProjectService
import SaasBackend.BillingService
import SaasBackend.NewestWins
import SaasBackend.RegexErase
import SaasBackend.Sanitizer
import SaasBackend.AuthSchemas
import SaasBackend.PasswordInputs
import SaasBackend.EmailVerification
import SaasBackend.RefreshRotation
import SaasBackend.KillSwitch
import SaasBackend.SecondFactor
import SaasBackend.PendingChallenges
import SaasBackend.HandlerRecall
import SaasBackend.FactorRequests
import SaasBackend.BackupCodes
import SaasBackend.TotpSteps
import SaasBackend.ResetTokens
import SaasBackend.TokenRecords
import SaasBackend.GoogleLinking
import SaasBackend.WebhookOrder
import SaasBackend.WebhookRaces
import SaasBackend.WebhookRetries
import SaasBackend.BillingCancellation
import SaasBackend.StripeTime
import SaasBackend.BillingDeletion
import SaasBackend.PlanEntitlement
import SaasBackend.AdminPresence
import SaasBackend.Lockout
import SaasBackend.GoogleRaces
import SaasBackend.SessionEndings
import SaasBackend.LoginPrivacy
import SaasBackend.AccountGates
import SaasBackend.TokenCleanup
import SaasBackend.TextCodes
import SaasBackend.OAuthState
import SaasBackend.LoginCsrf
import SaasBackend.TokenKinds
import SaasBackend.UsableAdmins
import SaasBackend.InvitationRaces
import SaasBackend.MembershipOrigins
import SaasBackend.FeatureFlagRoutes
import SaasBackend.SoftDeletion
import SaasBackend.OrganizationListings
import SaasBackend.OrganizationBilling
import SaasBackend.OutsiderPrivacy
import SaasBackend.ApiKeyService
import SaasBackend.ApiKeyHistory
import SaasBackend.FlagGates
import SaasBackend.ChallengeRaces
import SaasBackend.ChallengeAttempts
import SaasBackend.EnrolmentRaces
import SaasBackend.LockLifting
import SaasBackend.DurationText
import SaasBackend.RegistrationFailures
import SaasBackend.DeletionFailures
import SaasBackend.CurrentSubscription
import SaasBackend.CustomerRaces
import SaasBackend.ExpiredInvitations
import SaasBackend.FlagSchemas
import SaasBackend.FlagWrites
import SaasBackend.SanitizedInput
import SaasBackend.SanitizedQuery
import SaasBackend.EmailText
import SaasBackend.LocaleNegotiation
import SaasBackend.OpenApiConverter
import SaasBackend.ZodSchemas
import SaasBackend.Pagination
import SaasBackend.HandlerEmbedding
import SaasBackend.Unwinding
import SaasBackend.Backend
import SaasBackend.NotificationService
import SaasBackend.Mailboxes
import SaasBackend.PreferenceRaces
import SaasBackend.ForeignKeys
import SaasBackend.ReferentialIntegrity
import SaasBackend.AuditService
import SaasBackend.Erasure
import SaasBackend.AuditTrail
import SaasBackend.Maintenance
import SaasBackend.WebhookLedger
import SaasBackend.Base64
import SaasBackend.SecretCrypto
import SaasBackend.FixedWindow
import SaasBackend.RateLimits
import SaasBackend.ColumnWrites
import SaasBackend.ConcurrentEdits
