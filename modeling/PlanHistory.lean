import PlanHistory.FileTree
import PlanHistory.Main
import PlanHistory.Store.Edit
import PlanHistory.Proofs.Conflict.Independent
import PlanHistory.Proofs.Conflict.Symmetric
import PlanHistory.Proofs.Document.Validation
import PlanHistory.Proofs.Repository.Accepted
import PlanHistory.Proofs.Repository.BranchStatus
import PlanHistory.Proofs.Repository.Commits
import PlanHistory.Proofs.Repository.CommonAncestor
import PlanHistory.Proofs.Repository.Contents
import PlanHistory.Proofs.Repository.CreationOrder
import PlanHistory.Proofs.Repository.Failures
import PlanHistory.Proofs.Repository.Isolation
import PlanHistory.Proofs.Repository.Mergeable
import PlanHistory.Proofs.Repository.MergedBranch
import PlanHistory.Proofs.Repository.Mirrors
import PlanHistory.Proofs.Repository.Outcome
import PlanHistory.Proofs.Repository.OwnRules
import PlanHistory.Proofs.Repository.ParentWalk
import PlanHistory.Proofs.Repository.ReadBack
import PlanHistory.Proofs.Repository.Repeated
import PlanHistory.Proofs.Repository.Resolutions
import PlanHistory.Proofs.Repository.Search
import PlanHistory.Proofs.Repository.SourceTaken
import PlanHistory.Proofs.Repository.Unbroken
