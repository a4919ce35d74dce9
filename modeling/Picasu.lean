import Picasu.Auth.TokenVersions
import Picasu.Auth.Logout
import Picasu.Auth.Redemption
import Picasu.Auth.Bursts
import Picasu.Auth.Reaping
import Picasu.Auth.EntryCaps
import Picasu.Model.HiddenFilters
import Picasu.Storage.Snapshots
import Picasu.Tasks.MergedFlush
import Picasu.Tasks.LaterWins
import Picasu.Tasks.TreeAfterScan
import Picasu.Tasks.Serial
import Picasu.Tasks.Priority
import Picasu.Tasks.IndexStart
import Picasu.Tasks.IntakeDrain
import Picasu.Tasks.Orphans
import Picasu.Tasks.Timestamps
import Picasu.Router.StoredTags
import Picasu.Router.ShareRevocation
import Picasu.Router.Versions
import Picasu.Router.HiddenResponses
import Picasu.Router.ForeignShares
import Picasu.Router.MovedStats
import Picasu.Router.Renewals
import Picasu.Router.AlbumDelete
import Picasu.Router.SidecarIsolation
import Picasu.Router.ConcurrentUploads
import Picasu.Router.ConfigEdits
import Picasu.Auth.AccountDeletion
import Picasu.Frontend.SearchLiteral
import Picasu.Frontend.Offsets
import Picasu.Frontend.Scroll
import Picasu.Frontend.DataBatches
