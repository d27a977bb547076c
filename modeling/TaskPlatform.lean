import TaskPlatform.Concurrency.Linearizable
import TaskPlatform.Concurrency.Completion
import TaskPlatform.Mediation.Authentication
import TaskPlatform.Mediation.Contract
import TaskPlatform.Specification.Refinement
import TaskPlatform.Relational.Table
import TaskPlatform.Relational.Query
import TaskPlatform.Migration.Cleanup
import TaskPlatform.Migration.Contract
import TaskPlatform.Migration.DowngradeGuard
import TaskPlatform.Migration.DowngradeEffect
import TaskPlatform.Migration.Reapply
import TaskPlatform.Transaction.Interleaving
import TaskPlatform.Atomicity.Returned
import TaskPlatform.Concurrency.Permission
import TaskPlatform.Concurrency.Assignment
import TaskPlatform.Concurrency.Ownership
import TaskPlatform.Concurrency.References
import TaskPlatform.Concurrency.Deadlock
import TaskPlatform.Concurrency.Frozen
import TaskPlatform.Concurrency.Isolation
import TaskPlatform.Integrity.Accepted
import TaskPlatform.Concurrency.Registration
import TaskPlatform.Serial.Edits
import TaskPlatform.Serial.Independence
import TaskPlatform.Serial.Reopening
import TaskPlatform.Serial.Retry
import TaskPlatform.Serial.TaskListing
import TaskPlatform.Serial.Timestamps
import TaskPlatform.Serial.MembershipViews
import TaskPlatform.Confidentiality.Noninterference
import TaskPlatform.RateLimit.FixedWindow
import TaskPlatform.RateLimit.RetryAfter
import TaskPlatform.RateLimit.LoginBudget
import TaskPlatform.RateLimit.Buckets
import TaskPlatform.RateLimit.Budget
