import Kubeapps.Lib.Steps
import Kubeapps.Lib.Pool
import Kubeapps.Lib.Go
import Kubeapps.Lib.Text
import Kubeapps.Lib.Url
import Kubeapps.Lib.Semver
import Kubeapps.Lib.Sql
import Kubeapps.Lib.Joined
import Kubeapps.Lib.Workqueue
import Kubeapps.Lib.Call
import Kubeapps.Lib.Paging
import Kubeapps.Lib.Merge
import Kubeapps.Lib.Writes
import Kubeapps.Lib.Firsts
import Kubeapps.Lib.Receive
import Kubeapps.Lib.Memo
import Kubeapps.Lib.UniqBy
import Kubeapps.Lib.Binary64
import Kubeapps.Models.Chart
import Kubeapps.Helm.Index
import Kubeapps.Helm.IndexCharts
import Kubeapps.Agent.CreateRelease
import Kubeapps.Flux.Repository
import Kubeapps.Flux.Cache
import Kubeapps.Flux.HelmChart
import Kubeapps.Flux.WatchLoops
import Kubeapps.Syncer.HelmRepo
import Kubeapps.Syncer.Oci
import Kubeapps.Syncer.FilterIndex
import Kubeapps.Syncer.OciCharts
import Kubeapps.Syncer.Tarball
import Kubeapps.Syncer.FirstSync
import Kubeapps.Syncer.Database
import Kubeapps.Syncer.Sync
import Kubeapps.Syncer.FetchFiles
import Kubeapps.Syncer.Run
import Kubeapps.Syncer.History
import Kubeapps.Syncer.StoredFiles
import Kubeapps.Syncer.ImportJobs
import Kubeapps.Syncer.IndexPanics
import Kubeapps.Syncer.Overlap
import Kubeapps.Syncer.Cleanup
import Kubeapps.Controller.AppRepository
import Kubeapps.Controller.Jobs
import Kubeapps.Controller.SyncHandler
import Kubeapps.Controller.Workers
import Kubeapps.Controller.CronJobNames
import Kubeapps.Controller.Reconcile
import Kubeapps.Kube.AppRepositories
import Kubeapps.Kube.Credentials
import Kubeapps.Kube.Copies
import Kubeapps.Kube.SecretNames
import Kubeapps.Kube.FailedCreate
import Kubeapps.Kube.ClusterConfig
import Kubeapps.Kubeops.Chart
import Kubeapps.Kubeops.Handler
import Kubeapps.Assetsvc.Charts
import Kubeapps.Lib.Percent
import Kubeapps.Lib.Query
import Kubeapps.Lib.Base64
import Kubeapps.Lib.NetUrl
import Kubeapps.Lib.NetParse
import Kubeapps.Lib.NetPrint
import Kubeapps.Assetsvc.GetChart
import Kubeapps.Assetsvc.PageParams
import Kubeapps.Assetsvc.PageCount
import Kubeapps.HelmPlugin.Summaries
import Kubeapps.HelmPlugin.Details
import Kubeapps.Dashboard.AppRepository
import Kubeapps.Lib.NetPath
import Kubeapps.RepoUrls.IndexUrl
import Kubeapps.Dashboard.Clusters
import Kubeapps.Lib.Handles
import Kubeapps.Dashboard.Kube
import Kubeapps.Dashboard.Sockets
import Kubeapps.Dashboard.Items
import Kubeapps.Dashboard.AppView
import Kubeapps.Dashboard.ListWatch
import Kubeapps.Dashboard.Charts
import Kubeapps.Dashboard.ReceivedCharts
import Kubeapps.Dashboard.Catalog
import Kubeapps.Dashboard.CatalogFilters
import Kubeapps.Dashboard.SelectVersion
import Kubeapps.Dashboard.UpdateInfo
import Kubeapps.Dashboard.Schema
import Kubeapps.Dashboard.SetValue
import Kubeapps.Dashboard.DeleteValue
import Kubeapps.Dashboard.BasicForm
import Kubeapps.Lib.Yaml
import Kubeapps.Agent.PostRenderer
import Kubeapps.Agent.PullSecrets
import Kubeapps.Auth.Auth
import Kubeapps.Auth.Reduce
import Kubeapps.Auth.Forbidden
import Kubeapps.HelmPlugin.VersionSummary
import Kubeapps.Kubeops.PullSecretDomains
import Kubeapps.Kube.AllowedNamespaces
import Kubeapps.Syncer.FilesIds
import Kubeapps.Assetsvc.RightRows
import Kubeapps.Lib.Trim
import Kubeapps.Syncer.JqQuery
import Kubeapps.Dashboard.FilterRules
import Kubeapps.Dashboard.AuthForm
import Kubeapps.Lib.SqlTokens
import Kubeapps.Lib.SqlCond
import Kubeapps.Assetsvc.WhereClause
import Kubeapps.Lib.JsonText
import Kubeapps.Assetsvc.Search
import Kubeapps.Kubeops.IndexCache
import Kubeapps.Lib.SqlDelete
import Kubeapps.Syncer.RemoveMissing
import Kubeapps.Assetsvc.Handler
import Kubeapps.Kubeops.AuthGate
import Kubeapps.Kubeops.Namespaces
import Kubeapps.Lib.Readers
import Kubeapps.Flux.Listing
import Kubeapps.Syncer.InvalidateCache
import Kubeapps.Dashboard.Apps
import Kubeapps.Lib.Thunks
import Kubeapps.Lib.TtlCache
import Kubeapps.Dashboard.Operators
import Kubeapps.Lib.Versioned
import Kubeapps.Kube.Refresh
import Kubeapps.Dashboard.Session
import Kubeapps.Kube.ClustersFile
import Kubeapps.PinnipedProxy.Proxy
import Kubeapps.PinnipedProxy.Clients
import Kubeapps.Frontend.ClusterRoutes
import Kubeapps.Agent.Discovery
import Kubeapps.KubeappsApis.Core
import Kubeapps.Kube.RepoClients
