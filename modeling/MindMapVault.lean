import MindMapVault.Foundations.Transition
import MindMapVault.Vault.VersionId
import MindMapVault.Vault.History
import MindMapVault.Vault.Recorded
import MindMapVault.Vault.Handlers
import MindMapVault.Vault.Upload
import MindMapVault.Vault.Retention
import MindMapVault.Foundations.Threads
import MindMapVault.Vault.Concurrency
import MindMapVault.Vault.HistoryIntact
import MindMapVault.Vault.Envelopes
import MindMapVault.Accounts.KeyVersion
import MindMapVault.Accounts.Database
import MindMapVault.Accounts.Rotation
import MindMapVault.Accounts.Rotated
import MindMapVault.Accounts.InFlight
import MindMapVault.Accounts.OldKeyGone
import MindMapVault.Crypto.Cipher
import MindMapVault.Crypto.KeyRotation
import MindMapVault.Crypto.SameReads
import MindMapVault.Vault.Migration
import MindMapVault.Vault.Rescue
import MindMapVault.Vault.Migrated
import MindMapVault.Vault.BareObject
import MindMapVault.Vault.Retrievable
import MindMapVault.Vault.Written
import MindMapVault.Accounts.SignIn
import MindMapVault.Accounts.LinkedSignIn
import MindMapVault.Foundations.Remote
import MindMapVault.Accounts.Invites
import MindMapVault.Accounts.InviteOnce
import MindMapVault.Accounts.InviteCodes
import MindMapVault.Shares.Store
import MindMapVault.Shares.Handlers
import MindMapVault.Shares.Purge
import MindMapVault.Shares.Ended
import MindMapVault.Storage.Holdings
import MindMapVault.Storage.Deletion
import MindMapVault.Storage.Deleted
import MindMapVault.Foundations.Totals
import MindMapVault.Storage.Requests
import MindMapVault.Storage.Usage
import MindMapVault.Storage.Quota
import MindMapVault.Offline.Queue
import MindMapVault.Offline.Drain
import MindMapVault.Offline.Conflict
import MindMapVault.Offline.Saves
import MindMapVault.Offline.Interleaved
import MindMapVault.Offline.OnceEach
import MindMapVault.Desktop.LocalStore
import MindMapVault.Desktop.Recovery
import MindMapVault.Desktop.Commands
import MindMapVault.Desktop.Kept
import MindMapVault.Board.BoardPage
import MindMapVault.Board.Scene
import MindMapVault.Board.Interaction
import MindMapVault.Board.Connected
import MindMapVault.Layout.Geometry
import MindMapVault.Layout.LayoutTree
import MindMapVault.Layout.Heights
import MindMapVault.Layout.Placed
import MindMapVault.Layout.Disjoint
import MindMapVault.Layout.LaidOut
import MindMapVault.Layout.Bands
import MindMapVault.Crypto.Kem
import MindMapVault.Desktop.ExportedFile
import MindMapVault.Desktop.InterruptedSave
import MindMapVault.Desktop.Rekeyed
import MindMapVault.Desktop.Tampering
import MindMapVault.Vault.FailedSteps
import MindMapVault.Vault.PartialUpdates
import MindMapVault.Desktop.VaultCommands
import MindMapVault.Desktop.VaultFiles
import MindMapVault.Foundations.Frame
import MindMapVault.Foundations.RoseTree
import MindMapVault.Foundations.JsonText
import MindMapVault.Foundations.JsonParse
import MindMapVault.Maps.LocalAttachments
import MindMapVault.Maps.Externalized
import MindMapVault.Maps.Opened
import MindMapVault.Maps.Interchange
import MindMapVault.Maps.Transfer
import MindMapVault.Maps.Transferred
import MindMapVault.Maps.Editor
import MindMapVault.Maps.Copies
import MindMapVault.Maps.Edited
import MindMapVault.Maps.TreeOps
import MindMapVault.Maps.TreeIds
import MindMapVault.Maps.Clipping
import MindMapVault.Maps.CutAndPaste
import MindMapVault.Maps.UndoHistory
import MindMapVault.Foundations.Machine
import MindMapVault.Foundations.Rounding
import MindMapVault.Foundations.TokenBucket
import MindMapVault.Throttle.IpAddr
import MindMapVault.Throttle.ClientIp
import MindMapVault.Throttle.InstanceSettings
import MindMapVault.Throttle.AuthThrottle
import MindMapVault.Throttle.Lockout
import MindMapVault.Throttle.Allowance
import MindMapVault.Throttle.Between
import MindMapVault.Throttle.Pruned
import MindMapVault.Accounts.Login
import MindMapVault.Accounts.SaltAnswers
import MindMapVault.Accounts.RetryAfter
import MindMapVault.Storage.Resolution
import MindMapVault.Throttle.VerifyBudget
import MindMapVault.Accounts.RotateCredentials
import MindMapVault.Accounts.VerifyLoad
import MindMapVault.Accounts.KeyMaterial
import MindMapVault.Accounts.KeysKept
import MindMapVault.Accounts.ReservedNames
import MindMapVault.Federation.Flows
import MindMapVault.Federation.Client
import MindMapVault.Federation.SignIns
import MindMapVault.Federation.Founded
import MindMapVault.Federation.Genuine
import MindMapVault.Foundations.Regex
import MindMapVault.Formats.TreeNode
import MindMapVault.Formats.MarkdownExport
import MindMapVault.Formats.MarkdownImport
import MindMapVault.Formats.MarkdownPrefix
import MindMapVault.Formats.MarkdownLines
import MindMapVault.Formats.MarkdownRead
import MindMapVault.Formats.MarkdownTexts
import MindMapVault.Formats.MarkdownGrowth
import MindMapVault.Formats.MarkdownRoundTrip
import MindMapVault.Formats.MarkdownReturns
import MindMapVault.Formats.Xmind
import MindMapVault.Formats.XmindRoundTrip
import MindMapVault.Foundations.Collapse
import MindMapVault.Formats.ExportFileName
import MindMapVault.Foundations.Replacing
import MindMapVault.Foundations.Splitting
import MindMapVault.Foundations.Xml
import MindMapVault.Foundations.XmlText
import MindMapVault.Foundations.XmlParse
import MindMapVault.Formats.FreemindImport
import MindMapVault.Formats.FreemindExport
import MindMapVault.Formats.NoteParagraphs
import MindMapVault.Formats.NotesHtml
import MindMapVault.Formats.NotesMarkup
import MindMapVault.Formats.FreemindMarkup
import MindMapVault.Formats.FreemindRead
import MindMapVault.Formats.FreemindRoundTrip
import MindMapVault.Formats.FreeplaneRoundTrip
import MindMapVault.Formats.WisemappingRoundTrip
import MindMapVault.Session.Sessions
import MindMapVault.Instance.SavedSettings
import MindMapVault.Crypto.SuiteBytes
import MindMapVault.Secrecy.Learned
import MindMapVault.Foundations.Numbered
import MindMapVault.Formats.ImportedIds
import MindMapVault.Storage.Overflow
import MindMapVault.Board.Camera
import MindMapVault.Board.SavedView
import MindMapVault.Board.ZoomRange
import MindMapVault.Foundations.RoseFamilies
import MindMapVault.Maps.Families
import MindMapVault.Maps.Reparented
import MindMapVault.Maps.Removals
import MindMapVault.Foundations.KeyedList
import MindMapVault.Maps.AttachmentSync
import MindMapVault.Maps.AttachmentSynced
import MindMapVault.Notes.Tasks
import MindMapVault.Notes.TaskCounts
import MindMapVault.Storage.Tenants
import MindMapVault.Storage.Requesters
import MindMapVault.Storage.Admission
import MindMapVault.Storage.Isolated
