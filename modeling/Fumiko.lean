import Fumiko.App.AddAccount
import Fumiko.App.Inbox
import Fumiko.App.ReadingPane
import Fumiko.App.SelectionLaws
import Fumiko.App.StyleLaws
import Fumiko.App.SupervisorLaws
import Fumiko.App.SyncBadge
import Fumiko.App.SyncWorker
import Fumiko.App.Theme
import Fumiko.App.TrashScreen
import Fumiko.App.Webmail
import Fumiko.EmailCore.AttachmentLaws
import Fumiko.EmailCore.BudgetLaws
import Fumiko.EmailCore.CharsetLaws
import Fumiko.EmailCore.GmailRestoreLaws
import Fumiko.EmailCore.GmailSelectionLaws
import Fumiko.EmailCore.ImapCursorLaws
import Fumiko.EmailCore.ImapHydrationLaws
import Fumiko.EmailCore.ImapIdentityLaws
import Fumiko.EmailCore.InlineImageLaws
import Fumiko.EmailCore.InterleavingLaws
import Fumiko.EmailCore.PageLaws
import Fumiko.EmailCore.PagingBoundLaws
import Fumiko.EmailCore.RetryLaws
import Fumiko.EmailCore.TokenCacheLaws
import Fumiko.LocalAi.ClassifierLaws
import Fumiko.LocalAi.DownloadLaws
import Fumiko.LocalAi.Models
import Fumiko.LocalAi.OllamaLaws
import Fumiko.LocalAi.PromptLaws
import Fumiko.OAuth.CallbackQueryLaws
import Fumiko.OAuth.ListenerLaws
import Fumiko.OAuth.RotationLaws
import Fumiko.Storage.CommutationLaws
import Fumiko.Storage.MigrationLaws
import Fumiko.Storage.SeedingLaws
