import DriveAccess.Main
import DriveAccess.Proofs.Hierarchy.ClosureTable
import DriveAccess.Proofs.Storage.Rows
import DriveAccess.Proofs.Hierarchy.FolderRows
import DriveAccess.Proofs.Hierarchy.Verification
import DriveAccess.Proofs.Storage.Sessions
import DriveAccess.Proofs.Dialogues
import DriveAccess.Proofs.Access.Running
import DriveAccess.Proofs.Storage.Coherence
import DriveAccess.Proofs.Access.Reads
import DriveAccess.Proofs.Access.Writes
import DriveAccess.Proofs.Access.Groups
import DriveAccess.Proofs.Access.Sharing
import DriveAccess.Proofs.Access.Files
import DriveAccess.Proofs.Access.FolderCreation
import DriveAccess.Proofs.Access.FolderDeletion
import DriveAccess.Proofs.Access.FolderMoves
import DriveAccess.Proofs.Access.Commands
import DriveAccess.Proofs.Runs.Worlds
import DriveAccess.Proofs.Runs.Coherence
import DriveAccess.Proofs.Storage.Timestamps
import DriveAccess.Proofs.Access.Timestamps
import DriveAccess.Proofs.Runs.Atomicity
import DriveAccess.Proofs.Runs.Ledgers
import DriveAccess.Proofs.Storage.Keys
import DriveAccess.Proofs.Runs.Keys
import DriveAccess.Proofs.Runs.Serializability
import DriveAccess.Proofs.Resolution.Chains
import DriveAccess.Proofs.Resolution.EffectiveRoles
import DriveAccess.Proofs.Resolution.Traversals
import DriveAccess.Proofs.Resolution.Data
import DriveAccess.Proofs.Resolution.Answers
import DriveAccess.Proofs.Resolution.Ancestors
import DriveAccess.Proofs.Access.Deletions
import DriveAccess.Proofs.Access.Guards
import DriveAccess.Proofs.Access.Mediation
import DriveAccess.Proofs.Resolution.Frames
import DriveAccess.Proofs.Resolution.Grants
import DriveAccess.Proofs.Resolution.Moves
import DriveAccess.Proofs.Runs.Commands
import DriveAccess.Proofs.Runs.Escalation
import DriveAccess.Proofs.Runs.Grants
import DriveAccess.Proofs.Runs.Mediation
import DriveAccess.Proofs.Runs.Moves
import DriveAccess.Proofs.Runs.Chains
import DriveAccess.Proofs.Runs.Deletions
import DriveAccess.Proofs.Access.Undoing
import DriveAccess.Proofs.Runs.Undoing
import DriveAccess.Proofs.Runs.Tenants
import DriveAccess.Proofs.Courses
import DriveAccess.Proofs.Server.Replies
import DriveAccess.Proofs.Access.Composition
import DriveAccess.Proofs.Server.Transactions
import DriveAccess.Proofs.Server.Failures
import DriveAccess.Proofs.Server.Texts
import DriveAccess.Proofs.Server.Confinement
import DriveAccess.Proofs.Server.Schemas
import DriveAccess.Proofs.Access.Announcements
import DriveAccess.Proofs.Runs.Announcements
import DriveAccess.Proofs.Resolution.Failures
import DriveAccess.Proofs.Storage.Surgery
import DriveAccess.Proofs.Runs.Relocations
import DriveAccess.Proofs.Server.Vocabularies
import DriveAccess.Proofs.Server.Records
import DriveAccess.Proofs.Server.Clauses
import DriveAccess.Proofs.Access.AuditTrail
import DriveAccess.Proofs.Server.Register
import DriveAccess.Proofs.Storage.Batches
import DriveAccess.Proofs.Storage.Lineages
import DriveAccess.Proofs.Access.Sums
import DriveAccess.Proofs.Server.Sums
