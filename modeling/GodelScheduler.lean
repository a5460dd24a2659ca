import GodelScheduler.Framework.Accounting
import GodelScheduler.NodeResources.ConflictCheck
import GodelScheduler.GenerationStore.Recency
import GodelScheduler.SchedulerCache.UpdateSnapshot
import GodelScheduler.SchedulerCache.NodeObjects
import GodelScheduler.SchedulerCache.PreemptionSnapshot
import GodelScheduler.Queue.Delivery
import GodelScheduler.UnitScheduler.Schedule
import GodelScheduler.Binder.Evictions
import GodelScheduler.Binder.Conflicts
import GodelScheduler.Binder.DisruptionBudgets
import GodelScheduler.UnitScheduler.PersistPods
import GodelScheduler.BinderCache.Containment
import GodelScheduler.BinderQueue.Readiness
import GodelScheduler.BinderQueue.Deletion
import GodelScheduler.BinderQueue.Exclusive
import GodelScheduler.BinderQueue.HandBack
import GodelScheduler.Dispatcher.SelectScheduler
import GodelScheduler.Dispatcher.MetricsFIFO
import GodelScheduler.Dispatcher.SchedulerNodes
import GodelScheduler.Framework.NumaBookkeeping
import GodelScheduler.Framework.NumaHistory
import GodelScheduler.Framework.NodeHashSlice
import GodelScheduler.Framework.PodTrees
import GodelScheduler.NonNativeResource.NonExclusive
import GodelScheduler.SchedulerCache.OwnerIndex
import GodelScheduler.Searching.Budgets
import GodelScheduler.Preemption.BetterPreemption
import GodelScheduler.UnitPlugins.JobLevelAffinity
